import FantasyConsole.Proofs.Sound.MusicSchedule
import FantasyConsole.Proofs.Sound.OwnChannel

/-!
# Rows that are held back

A row with the command to delay is held back, and its ticks are counted down in every frame. The
count is looked at only when the channel reaches another row: the first row that is reached after
the count has run out is dropped, and the row that was held back is played in its place. Rows that
are reached before and after that are played.

## Main result

`Sound.delayed_row`: what a channel plays in each frame after it has reached a row to be delayed.
-/

namespace FantasyConsole

open Ram

namespace Sequencer

/-! ### The row of one channel -/

/-- The row that the next frame of music hands to a channel. -/
def reached? (s : Sequencer) (r : Ram) (c : Fin channelCount) : Option PatternRow :=
  (s.handedRows r).lookup c

theorem handedRows_of_arrival {s : Sequencer} {r : Ram} {a : Arrival}
    (arrived : s.arrival? r = some a) : s.handedRows r = a.rows r := by
  rw [handedRows, arrived, Option.elim_some]

theorem mem_rows_of_reached {s : Sequencer} {r : Ram} {a : Arrival}
    (arrived : s.arrival? r = some a) {c : Fin channelCount} {row : PatternRow}
    (reached : s.reached? r c = some row) : (c, row) ∈ a.rows r := by
  rw [reached?, handedRows_of_arrival arrived, List.lookup_eq_some_iff] at reached
  obtain ⟨before, after, rows, -⟩ := reached
  rw [rows]
  exact List.mem_append_right _ List.mem_cons_self

theorem not_mem_rows_of_unreached {s : Sequencer} {r : Ram} {a : Arrival}
    (arrived : s.arrival? r = some a) {c : Fin channelCount} (unreached : s.reached? r c = none) :
    c ∉ (a.rows r).map Prod.fst := by
  rw [reached?, handedRows_of_arrival arrived, List.lookup_eq_none_iff] at unreached
  intro handed
  obtain ⟨row, member, own⟩ := List.mem_map.mp handed
  exact bne_iff_ne.mp (unreached row member) own.symm

/-- What a channel plays of a row: its note and its command. -/
def playRowOn (s : Sequencer) (r : Ram) (c : Fin channelCount) (due : Option PatternRow) :
    Sequencer :=
  due.elim s fun row => (s.playNote r c row).runCommand c row

/-- What a channel holds back when it has been handed a row, or none. -/
def dueAt (d : Delay) (reached : Option PatternRow) : Option PatternRow × Delay :=
  reached.elim (none, d) (dueRow d)

theorem dueRow_of_delay {row : PatternRow} (delays : row.command = .delay) (d : Delay) :
    dueRow d row =
      if row.param = 0 then (some row, ⟨none, 0⟩) else (none, ⟨some row, row.param⟩) := by
  simp only [dueRow, if_pos delays, Option.isSome_some, true_and]
  split
  case isTrue none => rw [none]
  case isFalse => rfl

theorem dueRow_of_other {row : PatternRow} (other : row.command ≠ .delay) (d : Delay) :
    dueRow d row =
      if d.row.isSome ∧ d.ticks = 0 then (d.row, { d with row := none }) else (some row, d) := by
  simp only [dueRow, if_neg other]

theorem delay_playNote (s : Sequencer) (r : Ram) (c : Fin channelCount) (row : PatternRow) :
    ((s.playNote r c row).effects.get c).delay = (s.effects.get c).delay := by
  unfold playNote
  dsimp only
  split_ifs <;> simp [setChannel, setEffects, PerChannel.get_replace_self]

theorem delay_runCommand (s : Sequencer) (c : Fin channelCount) (row : PatternRow) :
    ((s.runCommand c row).effects.get c).delay = (s.effects.get c).delay := by
  unfold runCommand
  cases row.command <;> simp [setChannel, setEffects, PerChannel.get_replace_self]

theorem delay_playRowOn (s : Sequencer) (r : Ram) (c : Fin channelCount)
    (due : Option PatternRow) :
    ((s.playRowOn r c due).effects.get c).delay = (s.effects.get c).delay := by
  cases due with
  | none => rfl
  | some row => exact (delay_runCommand _ c row).trans (s.delay_playNote r c row)

/-- The sequencer with another row held back on a channel. -/
def withDelay (s : Sequencer) (c : Fin channelCount) (d : Delay) : Sequencer :=
  s.setEffects c { s.effects.get c with delay := d }

theorem delay_withDelay (s : Sequencer) (c : Fin channelCount) (d : Delay) :
    ((s.withDelay c d).effects.get c).delay = d := by
  rw [withDelay, setEffects, PerChannel.get_replace_self]

theorem applyRow_eq (s : Sequencer) (r : Ram) (c : Fin channelCount) (row : PatternRow) :
    s.applyRow r c row =
      (s.withDelay c (dueRow (s.effects.get c).delay row).2).playRowOn r c
        (dueRow (s.effects.get c).delay row).1 := by
  unfold applyRow
  dsimp only
  split
  case h_1 none => rw [none]; rfl
  case h_2 row found => rw [found]; rfl

/-- A channel is left by a frame's rows as what is due on it leaves it. -/
theorem sameAt_hand_reached {s : Sequencer} {r : Ram} {a : Arrival}
    (arrived : s.arrival? r = some a) (c : Fin channelCount) :
    let due := dueAt (a.music.effects.get c).delay (s.reached? r c)
    SameAt c ((a.music.withDelay c due.2).playRowOn r c due.1) (a.music.hand r (a.rows r)) := by
  cases reached : s.reached? r c with
  | none =>
    have kept := a.music.sameAt_hand_of_not_mem r (not_mem_rows_of_unreached arrived reached)
    refine SameAt.trans ⟨?_, ?_⟩ kept
    · rfl
    · exact (PerChannel.get_replace_self ..).symm
  | some row =>
    have own := a.music.sameAt_hand_of_mem r (a.nodup_rows r) (mem_rows_of_reached arrived reached)
    rw [applyRow_eq] at own
    exact own

/-- Whether a channel plays a row, or none, in the next frame of music: the rows of the frame leave
on it what that row leaves there. What is held back on the channel may change as well. -/
def Plays (s : Sequencer) (r : Ram) (c : Fin channelCount) (row : Option PatternRow) : Prop :=
  ∃ a d, s.arrival? r = some a ∧
    SameAt c ((a.music.withDelay c d).playRowOn r c row) (a.music.hand r (a.rows r))

/-- A row with a note starts the note, whatever it asks for besides. -/
theorem note_playRowOn (s : Sequencer) (r : Ram) (c : Fin channelCount) {row : PatternRow}
    (starts : PatternRow.firstNote ≤ row.note) :
    ((s.playRowOn r c (some row)).channels.get c).note =
      saturate32 ((row.note - PatternRow.firstNote : Nat) +
        saturate32 (row.octave * Channel.octaveNotes)) := by
  have other : row.note ≠ PatternRow.stopNote := by
    simp only [PatternRow.firstNote, PatternRow.stopNote] at starts ⊢
    omega
  have command (u : Sequencer) :
      ((u.runCommand c row).channels.get c).note = (u.channels.get c).note := by
    unfold runCommand
    cases row.command <;> simp [setChannel, setEffects, PerChannel.get_replace_self]
  rw [playRowOn, Option.elim_some, command]
  simp only [playNote, if_neg other, if_pos starts, setChannel, PerChannel.get_replace_self]
  rfl

/-- Whether the music goes on in the next frame, and with it the commands that run. -/
def GoesOn (s : Sequencer) (r : Ram) : Prop :=
  ∃ a, s.arrival? r = some a ∧ a.music.effects = s.effects

theorem plays_of_goesOn {s : Sequencer} {r : Ram} (goes : s.GoesOn r) (c : Fin channelCount) :
    s.Plays r c (dueAt (s.effects.get c).delay (s.reached? r c)).1 := by
  obtain ⟨a, arrived, kept⟩ := goes
  rw [← kept]
  exact ⟨a, _, arrived, sameAt_hand_reached arrived c⟩

end Sequencer

namespace Sound

/-! ### From frame to frame -/

/-- What is held back counts down in a frame. -/
theorem delay_beginFrame {s : Sound} {r : Ram} {x : Sound × Ram}
    (begun : s.beginFrame r = .ok x) (goes : s.music.GoesOn r) (c : Fin channelCount) :
    let d := (Sequencer.dueAt (s.music.effects.get c).delay (s.music.reached? r c)).2
    (x.1.music.effects.get c).delay = { d with ticks := d.ticks - 1 } := by
  obtain ⟨a, arrived, kept⟩ := goes
  obtain ⟨moved, ticked, music, -⟩ := tick_of_beginFrame begun
  have cleared := r.sameOn_clearRegisters
  -- registers are no part of the song, so the music arrives as if they had not been cleared
  have reached : s.music.reached? r.clearRegisters c = s.music.reached? r c := by
    rw [Sequencer.reached?, Sequencer.reached?, Sequencer.handedRows, Sequencer.handedRows,
      Sequencer.arrival?_congr cleared, arrived, Option.elim_some, Option.elim_some,
      a.rows_congr cleared]
  rw [← Sequencer.arrival?_congr cleared] at arrived
  have handed := Sequencer.sameAt_hand_reached arrived c
  rw [reached, kept] at handed
  rw [music, (Sequencer.tick_eq_moveOn arrived ticked).1, Sequencer.effects_moveOn, handed.effects]
  dsimp only [Effects.tickOn]
  rw [Sequencer.delay_playRowOn, Sequencer.delay_withDelay]

/-- Frames of sound one after the other. Between two of them anything may be written into memory
and any effect be played, but the sequencer is left alone. -/
def Frames (y : Nat → Sound × Ram) (n : Nat) : Prop :=
  ∀ k < n, ∃ x, (y k).1.beginFrame (y k).2 = .ok x ∧ (y (k + 1)).1.music = x.1.music

/-- The row that a channel reaches in frame `k`. -/
def reachedAt (y : Nat → Sound × Ram) (c : Fin channelCount) (k : Nat) : Option PatternRow :=
  (y k).1.music.reached? (y k).2 c

/-- Whether a channel plays a row, or none, in frame `k`. -/
def PlaysAt (y : Nat → Sound × Ram) (c : Fin channelCount) (k : Nat) (row : Option PatternRow) :
    Prop :=
  (y k).1.music.Plays (y k).2 c row

/-- What a channel holds back when frame `k` begins. -/
def heldAt (y : Nat → Sound × Ram) (c : Fin channelCount) (k : Nat) : Delay :=
  ((y k).1.music.effects.get c).delay

/-- Whether no row has been reached from frame `n` on, up to frame `k`. -/
def NoneSince (y : Nat → Sound × Ram) (c : Fin channelCount) (n k : Nat) : Prop :=
  ∀ j < k, n ≤ j → reachedAt y c j = none

theorem noneSince_zero (y : Nat → Sound × Ram) (c : Fin channelCount) (n : Nat) :
    NoneSince y c n 0 := fun j below => absurd below (Nat.not_lt_zero j)

theorem noneSince_succ {y : Nat → Sound × Ram} {c : Fin channelCount} {n k : Nat} :
    NoneSince y c n (k + 1) ↔ NoneSince y c n k ∧ (n ≤ k → reachedAt y c k = none) := by
  constructor
  · intro none
    exact ⟨fun j below => none j (Nat.lt_succ_of_lt below), none k (Nat.lt_succ_self k)⟩
  · rintro ⟨before, last⟩ j below since
    rcases Nat.lt_succ_iff_lt_or_eq.mp below with earlier | rfl
    · exact before j earlier since
    · exact last since

section Run

variable {y : Nat → Sound × Ram} {c : Fin channelCount} {n : Nat} (frames : Frames y n)
  (goesOn : ∀ k ≤ n, (y k).1.music.GoesOn (y k).2)
include frames goesOn

theorem heldAt_succ {k : Nat} (before : k < n) :
    let d := (Sequencer.dueAt (heldAt y c k) (reachedAt y c k)).2
    heldAt y c (k + 1) = { d with ticks := d.ticks - 1 } := by
  obtain ⟨x, begun, music⟩ := frames k before
  have counted := delay_beginFrame begun (goesOn k (Nat.le_of_lt before)) c
  rw [← music] at counted
  exact counted

variable {d : PatternRow} (start : reachedAt y c 0 = some d) (delays : d.command = .delay)
  (alone : ∀ k ≤ n, 0 < k → ∀ row, reachedAt y c k = some row → row.command ≠ .delay)
include start delays alone

/-- As long as nothing has been reached since the count has run out, the row is held back; its count
is what is left of its ticks. -/
theorem heldAt_eq {k : Nat} (below : k ≤ n) (later : 0 < k) :
    (heldAt y c k).ticks = d.param - k ∧
      (NoneSince y c d.param k → (heldAt y c k).row = some d) ∧
      (¬ NoneSince y c d.param k → (heldAt y c k).row = none) := by
  induction k with
  | zero => exact absurd later (Nat.lt_irrefl 0)
  | succ k ih =>
    rw [heldAt_succ frames goesOn (by omega), noneSince_succ]
    by_cases first : k = 0
    · -- the row is held back by the frame that reaches it, unless its ticks are none
      subst first
      rw [start, Sequencer.dueAt, Option.elim_some, Sequencer.dueRow_of_delay delays]
      split
      case isTrue none =>
        refine ⟨by dsimp only; omega, fun since => ?_, fun _ => rfl⟩
        cases since.2 (Nat.le_of_eq none)
      case isFalse some =>
        exact ⟨rfl, fun _ => rfl, fun reached =>
          absurd ⟨noneSince_zero y c d.param, fun late => by omega⟩ reached⟩
    · obtain ⟨ticks, waits, played⟩ := ih (by omega) (by omega)
      generalize heldAt y c k = held at *
      cases reached : reachedAt y c k with
      | none =>
        simp only [implies_true, and_true]
        refine ⟨?_, waits, played⟩
        dsimp only [Sequencer.dueAt, Option.elim_none]
        omega
      | some row =>
        have other := alone k (by omega) (by omega) row reached
        rw [Sequencer.dueAt, Option.elim_some, Sequencer.dueRow_of_other other]
        split
        case isTrue due =>
          -- the row is played now, and a row was reached for it
          refine ⟨by dsimp only; omega, fun since => ?_, fun _ => rfl⟩
          cases since.2 (by omega)
        case isFalse early =>
          refine ⟨by dsimp only; omega, fun since => waits since.1, fun reached => ?_⟩
          dsimp only
          by_cases waiting : NoneSince y c d.param k
          · rw [waits waiting] at early
            refine absurd ⟨waiting, fun late => ?_⟩ reached
            exact absurd ⟨rfl, by omega⟩ early
          · exact played waiting

/-- The first row that is reached after the count has run out gives way to the one held back. -/
theorem playsAt_of_due {k : Nat} (below : k ≤ n) (later : 0 < k) {row : PatternRow}
    (reached : reachedAt y c k = some row) (late : d.param ≤ k)
    (since : NoneSince y c d.param k) : PlaysAt y c k (some d) := by
  have own := Sequencer.plays_of_goesOn (goesOn k below) c
  obtain ⟨ticks, waits, -⟩ := heldAt_eq frames goesOn start delays alone below later
  have other := alone k below later row reached
  rw [← heldAt, ← reachedAt, reached, Sequencer.dueAt, Option.elim_some,
    Sequencer.dueRow_of_other other, waits since, if_pos ⟨rfl, by omega⟩] at own
  exact own

theorem playsAt_of_not_due {k : Nat} (below : k ≤ n) (later : 0 < k) {row : PatternRow}
    (reached : reachedAt y c k = some row)
    (early : ¬ (d.param ≤ k ∧ NoneSince y c d.param k)) : PlaysAt y c k (some row) := by
  have own := Sequencer.plays_of_goesOn (goesOn k below) c
  obtain ⟨ticks, -, played⟩ := heldAt_eq frames goesOn start delays alone below later
  have other := alone k below later row reached
  rw [← heldAt, ← reachedAt, reached, Sequencer.dueAt, Option.elim_some,
    Sequencer.dueRow_of_other other, if_neg] at own
  · exact own
  · rintro ⟨held, none⟩
    refine early ⟨by omega, ?_⟩
    by_contra reached
    rw [played reached] at held
    cases held

end Run

/-- A channel that reaches a row with the command to delay holds it back. From the frame on in which
the ticks of the row have passed, the first other row that the channel reaches is dropped, and the
row that was held back is played in its place. Every other row is played when it is reached, and
nothing is played where no row is reached. -/
theorem delayed_row {y : Nat → Sound × Ram} {c : Fin channelCount} {n : Nat} (frames : Frames y n)
    (goesOn : ∀ k ≤ n, (y k).1.music.GoesOn (y k).2) {d : PatternRow}
    (start : reachedAt y c 0 = some d) (delays : d.command = .delay)
    (alone : ∀ k ≤ n, 0 < k → ∀ row, reachedAt y c k = some row → row.command ≠ .delay) :
    PlaysAt y c 0 (if d.param = 0 then some d else none) ∧
      ∀ k ≤ n, 0 < k →
        (reachedAt y c k = none → PlaysAt y c k none) ∧
        ∀ row, reachedAt y c k = some row →
          (d.param ≤ k ∧ NoneSince y c d.param k → PlaysAt y c k (some d)) ∧
          (¬ (d.param ≤ k ∧ NoneSince y c d.param k) → PlaysAt y c k (some row)) := by
  refine ⟨?_, fun k below later => ⟨fun unreached => ?_, fun row reached => ⟨fun due => ?_, ?_⟩⟩⟩
  · have first := Sequencer.plays_of_goesOn (goesOn 0 (Nat.zero_le n)) c
    rw [← reachedAt, start, Sequencer.dueAt, Option.elim_some,
      Sequencer.dueRow_of_delay delays] at first
    split at first
    case isTrue none => rwa [if_pos none]
    case isFalse some => rwa [if_neg some]
  · have own := Sequencer.plays_of_goesOn (goesOn k below) c
    rw [← reachedAt, unreached] at own
    exact own
  · exact playsAt_of_due frames goesOn start delays alone below later reached due.1 due.2
  · exact playsAt_of_not_due frames goesOn start delays alone below later reached

/-! ### A song with a row that is held back -/

/-- A song of one pattern, whose first row is held back for a tick, and whose second has a note. -/
def delaySong : Ram :=
  (((Ram.blank.setByte Layout.tracks.offset 1).setByte Layout.patterns.offset 0x04).setByte
    (Layout.patterns.offset + 1) 0x71).setByte (Layout.patterns.offset + 3) 0x06

def delayTrack : Track := Track.decode fun k => if k = 0 then 1 else 0

def delayRow : PatternRow := PatternRow.decode 0x04 0x71 0

def noteRow : PatternRow := PatternRow.decode 0x06 0 0

theorem byte_delaySong (i : Nat) : delaySong.byte i =
    if i = Layout.patterns.offset + 3 then 0x06
    else if i = Layout.patterns.offset + 1 then 0x71
    else if i = Layout.patterns.offset then 0x04
    else if i = Layout.tracks.offset then 1
    else 0 := by
  simp only [delaySong, byte_setByte, byte_blank, Layout.patterns, Layout.tracks, Layout.memorySize]
  grind

theorem command_delaySong {id : Nat} {row : Int} {pattern : PatternRow}
    (loaded : PatternRow.load? delaySong id row = some pattern) : pattern.command ≠ .jump := by
  unfold PatternRow.load? at loaded
  dsimp only at loaded
  split at loaded
  case isFalse => cases loaded
  case isTrue inside =>
    -- rows begin at multiples of three bytes, so the second byte of a row is no first one
    obtain ⟨k, place⟩ : ∃ k, (((id : Int) - 1) * (patternRows * rowBytes) + row * rowBytes).toNat =
        3 * k := by
      refine ⟨(((id : Int) - 1) * 64 + row).toNat, ?_⟩
      simp only [patternRows, rowBytes] at inside ⊢
      omega
    have second : delaySong.byte (Layout.patterns.offset + 3 * k + 1) =
        if k = 0 then 0x71 else 0 := by
      rw [byte_delaySong]
      simp only [Layout.patterns, Layout.tracks]
      grind
    rw [place, second] at loaded
    rw [← Option.some.inj loaded]
    simp only [PatternRow.decode]
    split <;> decide

theorem load?_delaySong {r : Ram} (memory : SameOn [Layout.tracks, Layout.patterns] delaySong r) :
    PatternRow.load? r 1 0 = some delayRow ∧ PatternRow.load? r 1 1 = some noteRow := by
  rw [PatternRow.load?_congr (memory.mono (by decide)),
    PatternRow.load?_congr (memory.mono (by decide))]
  simp only [PatternRow.load?, byte_delaySong]
  decide

theorem track_delaySong : Track.load delaySong 0 = delayTrack := by
  apply Track.decode_congr
  intro k below
  rw [byte_delaySong]
  simp only [Layout.tracks, Layout.patterns, trackBytes] at below ⊢
  grind

theorem rowsAt_delaySong {r : Ram} {row : Int} {pattern : PatternRow}
    (loaded : PatternRow.load? r 1 row = some pattern) :
    Sequencer.rowsAt r delayTrack 0 row = [(0, pattern)] := by
  have first : delayTrack.patternAt 0 0 = 1 := by decide
  simp only [Sequencer.rowsAt, allChannels, List.filterMap_cons, List.filterMap_nil]
  rw [if_pos (by decide), if_neg (by decide), if_neg (by decide), if_neg (by decide), first, loaded]
  rfl

/-- The song at a tempo of two ticks for each row. -/
def delayedSong (index : Fin trackCount) (first : Fin trackFrames) : Playback where
  song := delaySong
  index := index
  first := first
  looped := false
  sustain := false
  pace := .ofPeriod 450 6 64 128 (by decide) (by decide) (by decide) (by decide)

theorem calm_delayedSong (frame : Nat) : (delayedSong 0 0).Calm frame :=
  fun _ _ _ _ _ loaded => command_delaySong loaded

/-- A frame of the song hands its row to the first channel, unless it is the one played last. -/
theorem arrival?_delayedSong {tick : Nat} {row : Int} {x : Sound × Ram}
    (cued : (delayedSong 0 0).Cued 0 tick row x) (early : tick < 128) :
    (∃ a, x.1.music.arrival? x.2 = some a ∧ a.music = x.1.music) ∧
      ((delayedSong 0 0).pace.rowAt tick = row → x.1.music.reached? x.2 0 = none) ∧
      ∀ pattern, (delayedSong 0 0).pace.rowAt tick ≠ row →
        PatternRow.load? x.2 1 ((delayedSong 0 0).pace.rowAt tick) = some pattern →
        x.1.music.reached? x.2 0 = some pattern := by
  have below : (delayedSong 0 0).pace.rowAt tick < 64 := (delayedSong 0 0).pace.rowAt_lt early
  have track : (delayedSong 0 0).track = delayTrack := track_delaySong
  have length : delayTrack.patternLength = 64 := by decide
  have arrived := cued.arrival? (Nat.le_of_lt early)
  rw [track, length, if_pos (by omega)] at arrived
  have handed := Sequencer.handedRows_of_arrival arrived
  refine ⟨⟨_, arrived, rfl⟩, fun same => ?_, fun pattern new loaded => ?_⟩
  · rw [Sequencer.reached?, handed, Sequencer.Arrival.rows_of_eq same, List.lookup_nil]
  · rw [Sequencer.reached?, handed, Sequencer.Arrival.rows_of_ne new (by dsimp only; omega)
      (by dsimp only; omega)]
    exact congrArg (List.lookup 0) (rowsAt_delaySong loaded)

/-- Three frames of the song. -/
theorem exists_delayed_run : ∃ y : Nat → Sound × Ram, (y 0).1.Reachable ∧ Frames y 2 ∧
    (∀ k ≤ 2, ∃ a, (y k).1.music.arrival? (y k).2 = some a ∧ a.music = (y k).1.music) ∧
    reachedAt y 0 0 = some delayRow ∧ reachedAt y 0 1 = none ∧ reachedAt y 0 2 = some noteRow := by
  obtain ⟨start, started, tempo, speed⟩ :
      ∃ start, fresh.playMusic? delaySong (0 : Fin trackCount) (0 : Fin trackFrames) (-1) false
          false 450 (-1) = some start ∧
        start.1.music.tempoOf delayTrack = 450 ∧ start.1.music.speedOf delayTrack = 6 :=
    ⟨_, fresh.playMusic?_of_index delaySong (Track.index?_val 0) (0 : Fin trackFrames) (-1) false
      false 450 (-1), rfl, (by decide : Sequencer.fresh.speedOf delayTrack = 6)⟩
  have track : (delayedSong 0 0).track = delayTrack := track_delaySong
  have rows : (delayedSong 0 0).track.patternLength = (delayedSong 0 0).pace.rows := by
    rw [track]
    decide
  have calm := calm_delayedSong 0
  have zero : (delayedSong 0 0).Cued 0 0 (-1) start :=
    Playback.cued_of_start .fresh rfl started (track ▸ tempo) (track ▸ speed)
  obtain ⟨x, first, one⟩ := zero.stay rows calm (by decide)
  obtain ⟨z, second, two⟩ := one.stay rows calm (by decide)
  obtain ⟨goes, -, reached⟩ := arrival?_delayedSong zero (by decide)
  obtain ⟨goesOn, same, -⟩ := arrival?_delayedSong one (by decide)
  obtain ⟨goesFurther, -, next⟩ := arrival?_delayedSong two (by decide)
  refine ⟨fun k => if k = 0 then start else if k = 1 then x else z, .playMusic .fresh started,
    fun k below => ?_, fun k below => ?_, ?_, ?_, ?_⟩
  · obtain rfl | rfl : k = 0 ∨ k = 1 := by omega
    · exact ⟨x, first, rfl⟩
    · exact ⟨z, second, rfl⟩
  · obtain rfl | rfl | rfl : k = 0 ∨ k = 1 ∨ k = 2 := by omega
    · exact goes
    · exact goesOn
    · exact goesFurther
  · exact reached delayRow (by decide) (load?_delaySong zero.memory).1
  · exact same (by decide)
  · exact next noteRow (by decide) (load?_delaySong two.memory).2

theorem alone_delayed_run {y : Nat → Sound × Ram} (second : reachedAt y 0 1 = none)
    (third : reachedAt y 0 2 = some noteRow) :
    ∀ k ≤ 2, 0 < k → ∀ row, reachedAt y 0 k = some row → row.command ≠ .delay := by
  intro k below later row reached
  obtain rfl | rfl : k = 1 ∨ k = 2 := by omega
  · rw [second] at reached
    cases reached
  · rw [third] at reached
    cases reached
    decide

theorem noneSince_delayed_run {y : Nat → Sound × Ram} (second : reachedAt y 0 1 = none) :
    NoneSince y 0 delayRow.param 2 := by
  intro k below since
  have one : delayRow.param = 1 := by decide
  rw [show k = 1 by omega, second]

/-- The first row of the song is played two frames late, in place of the second. -/
theorem delayed_row_in_song : ∃ y : Nat → Sound × Ram, Frames y 2 ∧
    (∀ k ≤ 2, (y k).1.music.GoesOn (y k).2) ∧ reachedAt y 0 0 = some delayRow ∧
    reachedAt y 0 1 = none ∧ reachedAt y 0 2 = some noteRow ∧
    PlaysAt y 0 0 none ∧ PlaysAt y 0 1 none ∧ PlaysAt y 0 2 (some delayRow) := by
  obtain ⟨y, -, frames, stays, first, second, third⟩ := exists_delayed_run
  have goesOn (k : Nat) (below : k ≤ 2) : (y k).1.music.GoesOn (y k).2 := by
    obtain ⟨a, arrived, same⟩ := stays k below
    exact ⟨a, arrived, by rw [same]⟩
  obtain ⟨held, later⟩ := delayed_row frames goesOn first (by decide)
    (alone_delayed_run second third)
  refine ⟨y, frames, goesOn, first, second, third, held, ?_, ?_⟩
  · exact (later 1 (by decide) (by decide)).1 second
  · refine ((later 2 (by decide) (by decide)).2 noteRow third).1 ⟨by decide, ?_⟩
    exact noneSince_delayed_run second

/-- A delayed row can take the place of another one, which is lost. -/
theorem row_lost_to_delay : ¬ ∀ (y : Nat → Sound × Ram) (c : Fin channelCount) (n : Nat)
    (d : PatternRow), (y 0).1.Reachable → Frames y n →
    (∀ k ≤ n, ∃ a, (y k).1.music.arrival? (y k).2 = some a ∧ a.music = (y k).1.music) →
    reachedAt y c 0 = some d → d.command = .delay → d.param ≤ n →
    PlaysAt y c d.param (some d) ∧
      ∀ k ≤ n, ∀ row, reachedAt y c k = some row → row.command ≠ .delay →
        PlaysAt y c k (some row) := by
  intro claimed
  obtain ⟨y, known, frames, stays, first, second, third⟩ := exists_delayed_run
  have goesOn (k : Nat) (below : k ≤ 2) : (y k).1.music.GoesOn (y k).2 := by
    obtain ⟨a, arrived, same⟩ := stays k below
    exact ⟨a, arrived, by rw [same]⟩
  obtain ⟨a, d, arrived, plays⟩ := (claimed y 0 2 delayRow known frames stays first (by decide)
    (by decide)).2 2 (by decide) noteRow third (by decide)
  obtain ⟨b, e, also, other⟩ := playsAt_of_due frames goesOn first (by decide)
    (alone_delayed_run second third) (by decide) (by decide) third (by decide)
    (noneSince_delayed_run second)
  rw [arrived] at also
  cases also
  -- The two rows would have to leave the channel with the same note.
  have early := Sequencer.note_playRowOn (a.music.withDelay 0 d) (y 2).2 0
    (by decide : PatternRow.firstNote ≤ noteRow.note)
  have late := Sequencer.note_playRowOn (a.music.withDelay 0 e) (y 2).2 0
    (by decide : PatternRow.firstNote ≤ delayRow.note)
  rw [← plays.channel] at early
  rw [← other.channel] at late
  exact absurd (late.symm.trans early) (by decide)

end Sound

end FantasyConsole
