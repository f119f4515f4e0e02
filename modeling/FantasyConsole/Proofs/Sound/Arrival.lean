import FantasyConsole.Proofs.Sound.MusicRows
import FantasyConsole.Proofs.Sound.SoundRange

/-!
# Where a frame of music comes to

In each frame of the console the music takes a jump or turns a frame of its track, and so comes to a
row. A row that differs from the one that memory names as played is handed over and published there;
the tick then ends in the same way for every row.
-/

namespace FantasyConsole

open Ram

namespace Sequencer

/-- Where a frame of music has come to. -/
structure Arrival where
  track : Track
  music : Sequencer
  /-- The position, with the row that was played last. -/
  position : MusicPosition
  /-- The row that comes next. -/
  row : Int

namespace Arrival

/-- The position that is stored in the end. -/
def published (a : Arrival) : MusicPosition :=
  if a.row = a.position.row then a.position
  else { a.position with row := signedByte (byteOfInt a.row) }

/-- The rows that are handed to channels. -/
def rows (a : Arrival) (r : Ram) : List (Fin channelCount × PatternRow) :=
  if a.row = a.position.row then [] else rowsAt r a.track a.published.frame a.published.row

theorem status_published (a : Arrival) : a.published.status = a.position.status := by
  unfold published
  split <;> rfl

theorem track_published (a : Arrival) : a.published.track = a.position.track := by
  unfold published
  split <;> rfl

theorem fits_published {a : Arrival} (fits : a.position.Fits) : a.published.Fits := by
  unfold published
  split
  · exact fits
  · refine ⟨fits.track, fits.frame, ?_⟩
    dsimp only
    exact signedByte_mem _

/-- A row that fits into its byte is published as it is. -/
theorem published_eq {a : Arrival} (lower : -128 ≤ a.row) (upper : a.row ≤ 127) :
    a.published = { a.position with row := a.row } := by
  unfold published
  split
  case isTrue same => rw [same]
  case isFalse => rw [signedByte_byteOfInt lower upper]

theorem rows_of_eq {a : Arrival} (same : a.row = a.position.row) (r : Ram) : a.rows r = [] :=
  if_pos same

theorem rows_of_ne {a : Arrival} (new : a.row ≠ a.position.row) (lower : -128 ≤ a.row)
    (upper : a.row ≤ 127) (r : Ram) : a.rows r = rowsAt r a.track a.position.frame a.row := by
  rw [rows, if_neg new, published_eq lower upper]

end Arrival

/-- Where the next frame of music comes to; `none` when the music does not go on. -/
def arrival? (s : Sequencer) (r : Ram) : Option Arrival :=
  let p := MusicPosition.load r
  if p.status = .stopped then none
  else
    (Track.index? p.track).bind fun index =>
      let t := Track.load r index
      let (u, p, row) := s.takeJump t p
      (u.turnFrame t p row).map fun (v, q, next) => ⟨t, v, q, next⟩

/-- What comes before an arrival. -/
theorem arrival?_eq_some {s : Sequencer} {r : Ram} {a : Arrival}
    (arrived : s.arrival? r = some a) :
    ∃ index u p row,
      (MusicPosition.load r).status ≠ .stopped ∧
      Track.index? (MusicPosition.load r).track = some index ∧
      a.track = Track.load r index ∧
      s.takeJump a.track (MusicPosition.load r) = (u, p, row) ∧
      u.turnFrame a.track p row = some (a.music, a.position, a.row) := by
  unfold arrival? at arrived
  dsimp only at arrived
  split at arrived
  case isTrue => cases arrived
  case isFalse playing =>
    obtain ⟨index, found, arrived⟩ := Option.bind_eq_some_iff.mp arrived
    obtain ⟨⟨v, q, next⟩, turned, rfl⟩ := Option.map_eq_some_iff.mp arrived
    exact ⟨index, _, _, _, playing, found, rfl, rfl, turned⟩

theorem arrival?_congr {r m : Ram} (same : SameOn Layout.song r m) (s : Sequencer) :
    s.arrival? m = s.arrival? r := by
  have position := MusicPosition.load_congr (same.mono (by decide))
  have track := Track.load_congr (same.mono (by decide))
  unfold arrival?
  simp only [position, track]

theorem rowsAt_congr {r m : Ram} (same : SameOn Layout.song r m) (t : Track) (frame row : Int) :
    rowsAt m t frame row = rowsAt r t frame row := by
  have pattern := PatternRow.load?_congr (same.mono (by decide))
  unfold rowsAt
  simp only [pattern]

theorem Arrival.rows_congr {r m : Ram} (same : SameOn Layout.song r m) (a : Arrival) :
    a.rows m = a.rows r := by
  unfold rows
  rw [rowsAt_congr same]

/-! ### The position that is reached -/

/-- A jump that waits is taken when its row is over. -/
theorem takeJump_cases (s : Sequencer) (t : Track) (p : MusicPosition) :
    s.takeJump t p = (s, p, s.rowOfTick t s.ticks) ∨
    ∃ jump, s.jump = some jump ∧ s.rowOfTick t s.ticks ≠ p.row ∧
      s.takeJump t p = ({ s with ticks := s.tickOfRow t (jump.beat * rowsPerBeat), jump := none },
        { p with frame := jump.frame }, jump.beat * rowsPerBeat) := by
  unfold takeJump
  cases s.jump with
  | none => exact .inl rfl
  | some jump =>
    dsimp only
    split
    case isTrue sounding => exact .inl rfl
    case isFalse ended => exact .inr ⟨jump, rfl, ended, rfl⟩

/-- The sequencer when it turns to another frame of the track. -/
def turned (s : Sequencer) (sustain : Bool) : Sequencer :=
  let s := { s with ticks := 0 }
  if sustain then s else s.clear.silence (UInt8.ofNat maxVolume)

theorem turnFrame_of_le (s : Sequencer) {t : Track} (p : MusicPosition) {row : Int}
    (ended : t.patternLength ≤ row) : s.turnFrame t p row =
      (nextFrame t p).map fun frame => (s.turned p.sustain, { p with frame := frame }, 0) := by
  rw [turnFrame, if_neg (by omega)]
  cases nextFrame t p <;> rfl

theorem nextFrame_mem {t : Track} {p : MusicPosition} {frame : Int}
    (following : nextFrame t p = some frame) :
    frame = p.frame ∨ 0 ≤ frame ∧ frame < trackFrames := by
  unfold nextFrame at following
  split at following
  case h_1 =>
    dsimp only at following
    split at following
    · split at following
      · exact .inr (Option.some.inj following ▸ by decide)
      · cases following
    case isFalse inside =>
      rw [← Option.some.inj following]
      exact .inr ⟨by omega, by omega⟩
  case h_2 =>
    split at following
    · exact .inl (Option.some.inj following).symm
    · cases following

/-- A row past the last one turns to the next frame of the track. -/
theorem turnFrame_cases {s u : Sequencer} {t : Track} {p q : MusicPosition} {row next : Int}
    (turned : s.turnFrame t p row = some (u, q, next)) :
    (row < t.patternLength ∧ u = s ∧ q = p ∧ next = row) ∨
    (t.patternLength ≤ row ∧ u = s.turned p.sustain ∧
      ∃ frame, nextFrame t p = some frame ∧ q = { p with frame := frame } ∧ next = 0) := by
  by_cases inside : row < t.patternLength
  · rw [turnFrame, if_pos inside] at turned
    cases turned
    exact .inl ⟨inside, rfl, rfl, rfl⟩
  · rw [s.turnFrame_of_le p (by omega)] at turned
    obtain ⟨frame, following, same⟩ := Option.map_eq_some_iff.mp turned
    cases same
    exact .inr ⟨by omega, rfl, frame, following, rfl, rfl⟩

/-- Of the position only the frame has changed when the music arrives. -/
theorem arrival?_position {s : Sequencer} (inRange : s.InRange) {r : Ram} {a : Arrival}
    (arrived : s.arrival? r = some a) :
    (MusicPosition.load r).status ≠ .stopped ∧
    (∃ index, Track.index? (MusicPosition.load r).track = some index ∧
      a.track = Track.load r index) ∧
    (∃ frame, a.position = { MusicPosition.load r with frame := frame }) ∧ a.position.Fits := by
  obtain ⟨index, u, p, row, playing, found, track, jumped, turned⟩ := arrival?_eq_some arrived
  refine ⟨playing, ⟨index, found, track⟩, ?_⟩
  have fits := MusicPosition.fits_load r
  -- where the position comes from no longer matters
  generalize MusicPosition.load r = before at *
  have reached : (∃ frame, p = { before with frame := frame }) ∧ p.Fits := by
    rcases s.takeJump_cases a.track before with same | ⟨jump, waiting, -, taken⟩
    · rw [same] at jumped
      cases jumped
      exact ⟨⟨p.frame, rfl⟩, fits⟩
    · rw [taken] at jumped
      cases jumped
      have bound := (inRange.jump jump waiting).1
      exact ⟨⟨jump.frame, rfl⟩, fits.setFrame (by omega)⟩
  obtain ⟨⟨frame, rfl⟩, kept⟩ := reached
  rcases turnFrame_cases turned with ⟨-, -, same, -⟩ | ⟨-, -, next, following, same, -⟩
  · rw [same]
    exact ⟨⟨frame, rfl⟩, kept⟩
  · rw [same]
    refine ⟨⟨next, rfl⟩, kept.setFrame ?_⟩
    rcases nextFrame_mem following with own | ⟨lower, upper⟩
    · rw [own]
      exact kept.frame
    · simp only [trackFrames] at upper
      omega

/-- Without a jump the music comes to the row of its tick, or turns when that is past the last. -/
theorem arrival?_of_no_jump {s : Sequencer} {r : Ram} {index : Fin trackCount}
    (playing : (MusicPosition.load r).status ≠ .stopped)
    (found : Track.index? (MusicPosition.load r).track = some index) (idle : s.jump = none) :
    s.arrival? r =
      let t := Track.load r index
      let p := MusicPosition.load r
      let row := s.rowOfTick t s.ticks
      if row < t.patternLength then some ⟨t, s, p, row⟩
      else
        (nextFrame t p).map fun frame => ⟨t, s.turned p.sustain, { p with frame := frame }, 0⟩ := by
  have jumped (t : Track) (p : MusicPosition) : s.takeJump t p = (s, p, s.rowOfTick t s.ticks) := by
    rw [takeJump, idle]
  simp only [arrival?, if_neg playing, found, Option.bind_some, jumped]
  split
  case isTrue below => rw [turnFrame, if_pos below, Option.map_some]
  case isFalse =>
    rw [s.turnFrame_of_le _ (by omega), Option.map_map]
    rfl

/-- A jump that waits is taken when another row than the one that asked for it has been reached. -/
theorem arrival?_of_jump {s : Sequencer} {r : Ram} {index : Fin trackCount}
    (playing : (MusicPosition.load r).status ≠ .stopped)
    (found : Track.index? (MusicPosition.load r).track = some index) {jump : Jump}
    (waits : s.jump = some jump)
    (next : s.rowOfTick (Track.load r index) s.ticks ≠ (MusicPosition.load r).row)
    (below : (jump.beat : Int) * rowsPerBeat < (Track.load r index).patternLength) :
    s.arrival? r =
      let t := Track.load r index
      let row := (jump.beat : Int) * rowsPerBeat
      some ⟨t, { s with ticks := s.tickOfRow t row, jump := none },
        { MusicPosition.load r with frame := jump.frame }, row⟩ := by
  have jumped : s.takeJump (Track.load r index) (MusicPosition.load r) =
      ({ s with ticks := s.tickOfRow (Track.load r index) (jump.beat * rowsPerBeat), jump := none },
        { MusicPosition.load r with frame := jump.frame }, jump.beat * rowsPerBeat) := by
    rw [takeJump, waits]
    exact if_neg next
  simp only [arrival?, if_neg playing, found, Option.bind_some, jumped, turnFrame, if_pos below,
    Option.map_some]

/-! ### What the tick does there -/

theorem tick_of_arrival {s : Sequencer} {r : Ram} {a : Arrival} (arrived : s.arrival? r = some a) :
    s.tick r = (a.music.playRow r a.track a.position a.row).map fun (w, q) => w.moveOn q r := by
  obtain ⟨index, u, p, row, playing, found, track, jumped, turned⟩ := arrival?_eq_some arrived
  rw [track] at jumped turned
  rw [tick_playing playing found jumped, turned, track]

theorem status_stop (s : Sequencer) (r : Ram) :
    (MusicPosition.load (s.stop r).2).status = .stopped := by
  have fits := MusicPosition.fits_load r
  have stored : { MusicPosition.load r with track := -1, status := .stopped }.Fits := by
    constructor <;> dsimp only
    · decide
    · exact fits.frame
    · exact fits.row
  rw [stop, MusicPosition.load_store stored]

/-- Music that does not go on was stopped before, or is stopped now. -/
theorem tick_of_no_arrival {s : Sequencer} {r : Ram} (ended : s.arrival? r = none) :
    ((MusicPosition.load r).status = .stopped ∧ s.tick r = .ok (s, r)) ∨
      ∃ u : Sequencer, s.tick r = .ok (u.stop r) := by
  -- without a track or a frame to turn to, music that was playing is stopped
  by_cases playing : (MusicPosition.load r).status = .stopped
  · left
    exact ⟨playing, by rw [tick, if_pos playing]; rfl⟩
  right
  cases found : Track.index? (MusicPosition.load r).track with
  | none => exact ⟨s, by rw [tick, if_neg playing, found]; rfl⟩
  | some index =>
    cases jumped : s.takeJump (Track.load r index) (MusicPosition.load r) with
    | mk u rest =>
    simp only [arrival?, if_neg playing, found, Option.bind_some, jumped,
      Option.map_eq_none_iff] at ended
    rw [tick_playing playing found jumped, ended]
    exact ⟨_, rfl⟩

theorem exists_arrival {s : Sequencer} {r : Ram} {result : Sequencer × Ram}
    (ticked : s.tick r = .ok result) (plays : (MusicPosition.load result.2).status ≠ .stopped) :
    ∃ a, s.arrival? r = some a := by
  cases arrived : s.arrival? r with
  | some a => exact ⟨a, rfl⟩
  | none =>
    rcases tick_of_no_arrival arrived with ⟨stopped, same⟩ | ⟨u, stops⟩
    · rw [same] at ticked
      cases ticked
      exact absurd stopped plays
    · rw [stops] at ticked
      cases ticked
      exact absurd (u.status_stop r) plays

/-- A row is handed over exactly when it is new, and then every channel with a pattern gets its
own. -/
theorem playRow_of_arrival {a : Arrival} {r : Ram} {result : Sequencer × MusicPosition}
    (played : a.music.playRow r a.track a.position a.row = .ok result) :
    result = (a.music.hand r (a.rows r), a.published) ∧
      (a.row ≠ a.position.row → ∀ c, a.track.PlaysAt a.published.frame c →
        ∃ pattern, PatternRow.load? r (a.track.patternAt a.published.frame c) a.published.row =
          some pattern ∧ (c, pattern) ∈ a.rows r) := by
  unfold playRow at played
  split at played
  case isTrue same =>
    cases played
    refine ⟨?_, fun new => absurd same new⟩
    rw [Arrival.rows, Arrival.published, if_pos same, if_pos same, hand, List.foldl_nil]
  case isFalse new =>
    have position : a.published = { a.position with row := signedByte (byteOfInt a.row) } :=
      if_neg new
    have rows : a.rows r = rowsAt r a.track a.published.frame a.published.row := if_neg new
    rw [rows, position]
    dsimp only at played ⊢
    cases applied : a.music.applyRows r a.track a.position.frame (signedByte (byteOfInt a.row)) with
    | error cause =>
      rw [applied] at played
      cases played
    | ok handed =>
      rw [applied] at played
      cases played
      refine ⟨by rw [applyRows_eq_hand applied], fun _ c plays => ?_⟩
      obtain ⟨pattern, loaded⟩ := exists_load?_of_applyRows applied plays
      exact ⟨pattern, loaded, mem_rowsAt.mpr ⟨plays, loaded⟩⟩

/-- A row from 0 to 63 can always be played. -/
theorem playRow_of_lt {a : Arrival} (r : Ram) (lower : 0 ≤ a.row) (upper : a.row < patternRows) :
    a.music.playRow r a.track a.position a.row = .ok (a.music.hand r (a.rows r), a.published) := by
  suffices succeeds : ∃ result, a.music.playRow r a.track a.position a.row = .ok result by
    obtain ⟨result, played⟩ := succeeds
    rw [played, (playRow_of_arrival played).1]
  unfold playRow
  split
  case isTrue => exact ⟨_, rfl⟩
  case isFalse =>
    have row : signedByte (byteOfInt a.row) = a.row :=
      signedByte_byteOfInt (by omega) (by simp only [patternRows] at upper; omega)
    dsimp only
    rw [row, applyRows_of_lt _ r a.track _ lower upper]
    exact ⟨_, rfl⟩

theorem tick_of_lt {s : Sequencer} {r : Ram} {a : Arrival} (arrived : s.arrival? r = some a)
    (lower : 0 ≤ a.row) (upper : a.row < patternRows) :
    s.tick r = .ok ((a.music.hand r (a.rows r)).moveOn a.published r) := by
  rw [tick_of_arrival arrived, playRow_of_lt r lower upper]
  rfl

/-- A tick that arrives somewhere hands over what is new, and moves the channels on. -/
theorem tick_eq_moveOn {s : Sequencer} {r : Ram} {a : Arrival} (arrived : s.arrival? r = some a)
    {result : Sequencer × Ram} (ticked : s.tick r = .ok result) :
    result = (a.music.hand r (a.rows r)).moveOn a.published r ∧
      (a.row ≠ a.position.row → ∀ c, a.track.PlaysAt a.published.frame c →
        ∃ pattern, PatternRow.load? r (a.track.patternAt a.published.frame c) a.published.row =
          some pattern ∧ (c, pattern) ∈ a.rows r) := by
  rw [tick_of_arrival arrived] at ticked
  cases played : a.music.playRow r a.track a.position a.row with
  | error cause =>
    rw [played] at ticked
    cases ticked
  | ok handed =>
    obtain ⟨rfl, every⟩ := playRow_of_arrival played
    rw [played] at ticked
    cases ticked
    exact ⟨rfl, every⟩

theorem sameOutside_moveOn (s : Sequencer) (p : MusicPosition) (r : Ram) :
    SameOutside Layout.heard (p.store r) (s.moveOn p r).2 :=
  s.sameOutside_playChannels (p.store r)

theorem load_moveOn (s : Sequencer) {p : MusicPosition} (fits : p.Fits) (r : Ram) :
    MusicPosition.load (s.moveOn p r).2 = p := by
  rw [MusicPosition.load_congr ((s.sameOutside_moveOn p r).sameOn (by decide)),
    MusicPosition.load_store fits r]

/-- A tick writes the position of the music and what is heard. -/
theorem sameOutside_tick {s : Sequencer} {r : Ram} {result : Sequencer × Ram}
    (ticked : s.tick r = .ok result) :
    SameOutside (Layout.musicState :: Layout.heard) r result.2 := by
  have position (p : MusicPosition) :
      SameOutside (Layout.musicState :: Layout.heard) r (p.store r) :=
    (p.sameOutside_store r).mono (by decide)
  cases arrived : s.arrival? r with
  | some a =>
    rw [(tick_eq_moveOn arrived ticked).1]
    exact (position _).trans ((sameOutside_moveOn _ _ r).mono (by decide))
  | none =>
    rcases tick_of_no_arrival arrived with ⟨-, same⟩ | ⟨u, stops⟩
    · rw [same] at ticked
      cases ticked
      exact .refl _ r
    · rw [stops] at ticked
      cases ticked
      exact position _

/-- A tick writes the position and what is heard, and leaves tracks and patterns as they are. -/
theorem sameOn_moveOn (s : Sequencer) (p : MusicPosition) (r : Ram) :
    SameOn [Layout.tracks, Layout.patterns] r (s.moveOn p r).2 :=
  ((p.sameOutside_store r).sameOn (by decide)).trans ((s.sameOutside_moveOn p r).sameOn (by decide))

end Sequencer

/-! ### The music in a frame of sound -/

/-- Memory with the registers as a frame of sound finds them. -/
def Ram.clearRegisters (r : Ram) : Ram :=
  (r.fillRegion Layout.registers 0).setWord Layout.stereo.offset 0xFFFFFFFF

theorem Ram.sameOutside_clearRegisters (r : Ram) : SameOutside Layout.heard r r.clearRegisters :=
  (r.sameOutside_fillRegion (by decide) 0).trans
    (sameOutside_setBlock _ (g := Layout.stereo) (by decide) (by decide) (by decide) _)

theorem Ram.sameOn_clearRegisters (r : Ram) : SameOn Layout.song r r.clearRegisters :=
  r.sameOutside_clearRegisters.sameOn (by decide)

namespace Sound

theorem beginFrame_eq (s : Sound) (r : Ram) :
    s.beginFrame r = (s.music.tick r.clearRegisters).map fun (music, m) =>
      allChannels.foldl (fun (s, r) c => tickEffect s r c) ({ s with music := music }, m) := by
  unfold beginFrame
  dsimp only
  rw [← Ram.clearRegisters]
  cases s.music.tick r.clearRegisters <;> rfl

/-- Effects leave the music alone. -/
theorem music_tickEffects (s : Sound) (r : Ram) (channels : List (Fin channelCount)) :
    let result := channels.foldl (fun (s, r) c => tickEffect s r c) (s, r)
    result.1.music = s.music ∧ SameOutside Layout.effectOutput r result.2 := by
  have own (s : Sound) (r : Ram) (c : Fin channelCount) : (s.tickEffect r c).1.music = s.music := by
    unfold tickEffect
    dsimp only
    split <;> rfl
  induction channels generalizing s r with
  | nil => exact ⟨rfl, SameOutside.refl _ r⟩
  | cons c channels ih =>
    obtain ⟨music, memory⟩ := ih (s.tickEffect r c).1 (s.tickEffect r c).2
    exact ⟨music.trans (own s r c),
      ((s.sameOutside_tickEffect r c).widen (Layout.effectOutputOf_within c)).trans memory⟩

theorem beginFrame_of_tick (s : Sound) {r : Ram} {moved : Sequencer × Ram}
    (ticked : s.music.tick r.clearRegisters = .ok moved) :
    ∃ result, s.beginFrame r = .ok result ∧ result.1.music = moved.1 ∧
      SameOn Layout.song moved.2 result.2 := by
  obtain ⟨own, memory⟩ := music_tickEffects { s with music := moved.1 } moved.2 allChannels
  rw [beginFrame_eq, ticked]
  exact ⟨_, rfl, own, memory.sameOn (by decide)⟩

theorem tick_of_beginFrame {s : Sound} {r : Ram} {result : Sound × Ram}
    (begun : s.beginFrame r = .ok result) :
    ∃ moved, s.music.tick r.clearRegisters = .ok moved ∧ result.1.music = moved.1 ∧
      SameOn Layout.song moved.2 result.2 := by
  cases ticked : s.music.tick r.clearRegisters with
  | error cause =>
    rw [beginFrame_eq, ticked] at begun
    cases begun
  | ok moved =>
    obtain ⟨other, same, left⟩ := s.beginFrame_of_tick ticked
    rw [begun] at same
    cases same
    exact ⟨moved, rfl, left⟩

/-- While no music plays, a frame of sound writes what the effects write. -/
theorem beginFrame_of_stopped (s : Sound) {r : Ram}
    (stopped : (MusicPosition.load r).status = .stopped) :
    ∃ result, s.beginFrame r = .ok result ∧ SameOutside Layout.effectOutput r result.2 := by
  have cleared := r.sameOutside_clearRegisters
  have position : MusicPosition.load r.clearRegisters = MusicPosition.load r :=
    MusicPosition.load_congr (cleared.sameOn (by decide))
  have ticked : s.music.tick r.clearRegisters = .ok (s.music, r.clearRegisters) := by
    rw [Sequencer.tick, position, if_pos stopped]
    rfl
  have effects := (music_tickEffects s r.clearRegisters allChannels).2
  rw [beginFrame_eq, ticked]
  exact ⟨_, rfl, (cleared.mono (by decide)).trans effects⟩

/-- What a frame of sound leaves behind when the music has arrived somewhere. -/
structure Arrives (a : Sequencer.Arrival) (r : Ram) (result : Sound × Ram) : Prop where
  music : result.1.music =
    ((a.music.hand r.clearRegisters (a.rows r)).moveOn a.published r.clearRegisters).1
  position : MusicPosition.load result.2 = a.published
  memory : SameOn [Layout.tracks, Layout.patterns] r result.2

private theorem arrives_of_tick {a : Sequencer.Arrival} (fits : a.position.Fits) {r : Ram}
    {moved : Sequencer × Ram}
    (ticked : moved =
      (a.music.hand r.clearRegisters (a.rows r.clearRegisters)).moveOn a.published r.clearRegisters)
    {result : Sound × Ram} (music : result.1.music = moved.1)
    (memory : SameOn Layout.song moved.2 result.2) : Arrives a r result := by
  have cleared := r.sameOn_clearRegisters
  rw [a.rows_congr cleared] at ticked
  rw [ticked] at music memory
  refine ⟨music, ?_, ?_⟩
  · rw [MusicPosition.load_congr (memory.mono (by decide)),
      Sequencer.load_moveOn _ (Sequencer.Arrival.fits_published fits)]
  · apply SameOn.trans (cleared.mono (by decide))
    exact (Sequencer.sameOn_moveOn _ _ _).trans (memory.mono (by decide))

theorem beginFrame_of_arrival {s : Sound} (inRange : s.music.InRange) {r : Ram}
    {a : Sequencer.Arrival} (arrived : s.music.arrival? r = some a) (lower : 0 ≤ a.row)
    (upper : a.row < patternRows) :
    ∃ result, s.beginFrame r = .ok result ∧ Arrives a r result := by
  have ⟨_, _, _, fits⟩ := Sequencer.arrival?_position inRange arrived
  rw [← Sequencer.arrival?_congr r.sameOn_clearRegisters] at arrived
  obtain ⟨result, begun, music, memory⟩ :=
    s.beginFrame_of_tick (Sequencer.tick_of_lt arrived lower upper)
  exact ⟨result, begun, arrives_of_tick fits rfl music memory⟩

theorem beginFrame_of_no_arrival {s : Sound} {r : Ram} (ended : s.music.arrival? r = none) :
    ∃ result, s.beginFrame r = .ok result ∧
      (MusicPosition.load result.2).status = .stopped := by
  rw [← Sequencer.arrival?_congr r.sameOn_clearRegisters] at ended
  rcases Sequencer.tick_of_no_arrival ended with ⟨stopped, ticked⟩ | ⟨u, ticked⟩
  all_goals
    obtain ⟨result, begun, -, memory⟩ := s.beginFrame_of_tick ticked
    refine ⟨result, begun, ?_⟩
    rw [MusicPosition.load_congr (memory.mono (by decide))]
  · exact stopped
  · exact u.status_stop _

/-- A frame after which the music plays has arrived somewhere, and each channel with a pattern there
has a row if the row is new. -/
theorem arrives_of_beginFrame {s : Sound} (inRange : s.music.InRange) {r : Ram}
    {result : Sound × Ram} (begun : s.beginFrame r = .ok result)
    (plays : (MusicPosition.load result.2).status ≠ .stopped) :
    ∃ a, s.music.arrival? r = some a ∧ Arrives a r result ∧
      (a.row ≠ a.position.row → ∀ c, a.track.PlaysAt a.published.frame c →
        ∃ pattern, PatternRow.load? r (a.track.patternAt a.published.frame c) a.published.row =
          some pattern ∧ (c, pattern) ∈ a.rows r) := by
  obtain ⟨moved, ticked, music, memory⟩ := tick_of_beginFrame begun
  have cleared := r.sameOn_clearRegisters
  rw [MusicPosition.load_congr (memory.mono (by decide))] at plays
  obtain ⟨a, arrived⟩ := Sequencer.exists_arrival ticked plays
  obtain ⟨handed, every⟩ := Sequencer.tick_eq_moveOn arrived ticked
  rw [Sequencer.arrival?_congr cleared] at arrived
  have ⟨_, _, _, fits⟩ := Sequencer.arrival?_position inRange arrived
  refine ⟨a, arrived, arrives_of_tick fits handed music memory, fun new c playing => ?_⟩
  obtain ⟨pattern, loaded, listed⟩ := every new c playing
  rw [PatternRow.load?_congr (cleared.mono (by decide))] at loaded
  rw [a.rows_congr cleared] at listed
  exact ⟨pattern, loaded, listed⟩

end Sound

end FantasyConsole
