import FantasyConsole.Proofs.Sound.ChannelRange

/-!
# The range of the sequencer

The rows of a pattern come from memory and so from the program, but their parameters are four bits
wide each. The sequencer keeps what it decoded until the next row, and nothing that it does in between
takes a number out of its bounds.
-/

namespace FantasyConsole

theorem PerChannel.get_replicate {α : Type} (a : α) (c : Fin channelCount) :
    (Vector.replicate channelCount a).get c = a :=
  Vector.getElem_replicate c.isLt

theorem PerChannel.get_map {α β : Type} (f : α → β) (v : PerChannel α) (c : Fin channelCount) :
    (v.map f).get c = f (v.get c) :=
  Vector.getElem_map f c.isLt

theorem PerChannel.forall_replace {α : Type} {p : α → Prop} {v : PerChannel α}
    (all : ∀ c, p (v.get c)) {a : α} (own : p a) (c : Fin channelCount) :
    ∀ d, p ((v.replace c a).get d) := by
  intro d
  by_cases same : d = c
  · rw [same, get_replace_self]
    exact own
  · rw [get_replace_of_ne v same]
    exact all d

/-! ### Rows and commands -/

structure PatternRow.InRange (row : PatternRow) : Prop where
  param1 : row.param1 ≤ 15
  param2 : row.param2 ≤ 15

theorem PatternRow.InRange.param {row : PatternRow} (inRange : row.InRange) : row.param ≤ 255 := by
  have first := inRange.param1
  have second := inRange.param2
  unfold PatternRow.param
  omega

theorem PatternRow.inRange_of_load? {r : Ram} {id : Nat} {i : Int} {row : PatternRow}
    (loaded : load? r id i = some row) : row.InRange := by
  unfold load? at loaded
  dsimp only at loaded
  split at loaded
  case isTrue =>
    rw [← Option.some.inj loaded]
    -- the parameters are the two halves of one byte
    exact ⟨toNat_shift_high _, toNat_and_low _⟩
  case isFalse => cases loaded

structure Delay.InRange (d : Delay) : Prop where
  ticks : d.ticks ≤ 255
  held : ∀ row, d.row = some row → row.InRange

/-- How far the parameters of the commands on one channel can go. -/
structure Effects.InRange (e : Effects) : Prop where
  arpeggio : e.arpeggio.note1 ≤ 15 ∧ e.arpeggio.note2 ≤ 15
  vibrato : e.vibrato.period ≤ 15 ∧ e.vibrato.depth ≤ 15
  slide : e.slide.duration ≤ 255
  finePitch : -128 ≤ e.finePitch ∧ e.finePitch ≤ 127
  delay : e.delay.InRange

theorem Effects.inRange_default : ({} : Effects).InRange := by
  constructor
  case delay => exact ⟨by decide, fun row none => by cases none⟩
  all_goals decide

theorem Effects.InRange.tickOn {e : Effects} (inRange : e.InRange) : e.tickOn.InRange where
  arpeggio := inRange.arpeggio
  vibrato := inRange.vibrato
  slide := inRange.slide
  finePitch := inRange.finePitch
  delay := ⟨Nat.le_trans (Nat.sub_le _ _) inRange.delay.ticks, inRange.delay.held⟩

/-! ### The sequencer -/

namespace Sequencer

/-- How far the numbers of the sequencer can go. -/
structure InRange (s : Sequencer) : Prop where
  channels : ∀ c, (s.channels.get c).InRange
  effects : ∀ c, (s.effects.get c).InRange
  jump : ∀ j, s.jump = some j → j.frame ≤ 15 ∧ j.beat ≤ 15

theorem inRange_fresh : fresh.InRange where
  channels c := by
    rw [fresh, PerChannel.get_replicate]
    exact Channel.inRange_default
  effects c := by
    rw [fresh, PerChannel.get_replicate]
    exact Effects.inRange_default
  jump j none := by cases none

namespace InRange

variable {s u : Sequencer} (inRange : s.InRange)
include inRange

theorem setChannel {ch : Channel} (own : ch.InRange) (c : Fin channelCount) :
    (s.setChannel c ch).InRange :=
  { inRange with channels := PerChannel.forall_replace inRange.channels own c }

theorem setEffects {e : Effects} (own : e.InRange) (c : Fin channelCount) :
    (s.setEffects c e).InRange :=
  { inRange with effects := PerChannel.forall_replace inRange.effects own c }

/-- The tick counter, the tempo and the speed have no bounds. -/
theorem setTime (ticks : Int) (tempo speed : Option Nat) :
    { s with ticks := ticks, tempo := tempo, speed := speed }.InRange :=
  ⟨inRange.channels, inRange.effects, inRange.jump⟩

theorem silence {volume : UInt8} (bound : volume.toNat ≤ 15) : (s.silence volume).InRange := by
  refine { inRange with channels := fun c => ?_ }
  rw [Sequencer.silence, PerChannel.get_map]
  exact Channel.inRange_of_idle rfl bound bound (inRange.channels c).speed

theorem clear : s.clear.InRange where
  channels := (inRange.silence (by decide)).channels
  effects c := by
    rw [Sequencer.clear, PerChannel.get_replicate]
    exact Effects.inRange_default
  jump j none := by cases none

theorem stop (r : Ram) : (s.stop r).1.InRange := inRange.clear

theorem start (r : Ram) (track : Fin trackCount) (frame row : Int) (looped sustain : Bool)
    (tempo speed : Option Nat) :
    (s.start r track frame row looped sustain tempo speed).1.InRange :=
  (inRange.silence (by decide)).setTime _ tempo speed

theorem playNote (r : Ram) (c : Fin channelCount) (row : PatternRow) :
    (s.playNote r c row).InRange := by
  have own := inRange.channels c
  -- the note that a slide comes from has no bounds
  have slid : (if row.note = 0 then s else
      s.setEffects c { s.effects.get c with
        slide.tick := 0, slide.note := (s.channels.get c).note }).InRange := by
    split
    · exact inRange
    · have e := inRange.effects c
      refine inRange.setEffects ?_ c
      exact ⟨e.arpeggio, e.vibrato, e.slide, e.finePitch, e.delay⟩
  unfold Sequencer.playNote
  dsimp only
  split
  · exact slid.setChannel (own.start r _ _ _ _ own.left own.right (by simp)) c
  · split
    · exact slid.setChannel (own.start r _ _ _ _ own.left own.right (by simp)) c
    · exact slid

theorem runCommand {row : PatternRow} (decoded : row.InRange) (c : Fin channelCount) :
    (s.runCommand c row).InRange := by
  have e := inRange.effects c
  have narrow {n : Nat} (bound : n ≤ 15) : (UInt8.ofNat n).toNat ≤ 15 := by
    rw [UInt8.toNat_ofNat']
    omega
  unfold Sequencer.runCommand
  dsimp only
  cases row.command with
  | volume =>
    exact inRange.setChannel
      ((inRange.channels c).setVolumes (narrow decoded.param1) (narrow decoded.param2)) c
  | chord =>
    refine inRange.setEffects ?_ c
    exact ⟨⟨decoded.param1, decoded.param2⟩, e.vibrato, e.slide, e.finePitch, e.delay⟩
  | jump =>
    refine { inRange with jump := ?_ }
    rintro j ⟨rfl⟩
    exact ⟨decoded.param1, decoded.param2⟩
  | vibrato =>
    refine inRange.setEffects ?_ c
    exact ⟨e.arpeggio, ⟨decoded.param1, decoded.param2⟩, e.slide, e.finePitch, e.delay⟩
  | slide =>
    refine inRange.setEffects ?_ c
    exact ⟨e.arpeggio, e.vibrato, decoded.param, e.finePitch, e.delay⟩
  | pitch =>
    -- one byte, read as an offset from the middle of its range
    have bound := decoded.param
    refine inRange.setEffects ?_ c
    exact ⟨e.arpeggio, e.vibrato, e.slide, by dsimp only; omega, e.delay⟩
  | empty | delay => exact inRange

end InRange

/-- A row is released from a delay or reached, and decoded in both cases. -/
theorem inRange_dueRow {d : Delay} (inRange : d.InRange) {row : PatternRow}
    (decoded : row.InRange) :
    (∀ due, (dueRow d row).1 = some due → due.InRange) ∧ (dueRow d row).2.InRange := by
  -- what is held now was decoded when it was reached, and so is what comes in its place
  have released {e : Delay} (kept : e.InRange) {reached : Option PatternRow}
      (fresh : ∀ row, reached = some row → row.InRange) :
      (∀ due, (if e.row.isSome ∧ e.ticks = 0 then (e.row, { e with row := none })
        else (reached, e)).1 = some due → due.InRange) ∧
      (if e.row.isSome ∧ e.ticks = 0 then (e.row, { e with row := none })
        else (reached, e)).2.InRange := by
    split
    · exact ⟨kept.held, kept.ticks, fun row none => by cases none⟩
    · exact ⟨fresh, kept⟩
  unfold dueRow
  by_cases delayed : row.command = .delay
  · have held : Delay.InRange { row := some row, ticks := row.param } := by
      refine ⟨decoded.param, ?_⟩
      rintro later ⟨rfl⟩
      exact decoded
    simp only [if_pos delayed]
    exact released held fun row none => by cases none
  · simp only [if_neg delayed]
    refine released inRange ?_
    rintro reached ⟨rfl⟩
    exact decoded

namespace InRange

theorem applyRow {s : Sequencer} (inRange : s.InRange) (r : Ram) (c : Fin channelCount)
    {row : PatternRow} (decoded : row.InRange) : (s.applyRow r c row).InRange := by
  have e := inRange.effects c
  obtain ⟨due, delay⟩ := inRange_dueRow e.delay decoded
  have waiting : (s.setEffects c
      { s.effects.get c with delay := (dueRow (s.effects.get c).delay row).2 }).InRange := by
    refine inRange.setEffects ?_ c
    exact ⟨e.arpeggio, e.vibrato, e.slide, e.finePitch, delay⟩
  unfold Sequencer.applyRow
  dsimp only
  split
  case h_1 => exact waiting
  case h_2 row reached => exact (waiting.playNote r c row).runCommand (due row reached) c

/-- Each channel gets a row that was decoded, until one row lies outside the patterns. -/
theorem applyRows {s u : Sequencer} (inRange : s.InRange) {r : Ram} {t : Track} {frame row : Int}
    (applied : s.applyRows r t frame row = .ok u) : u.InRange := by
  unfold Sequencer.applyRows at applied
  generalize allChannels = channels at applied
  induction channels generalizing s with
  | nil => exact Except.ok.inj applied ▸ inRange
  | cons c channels ih =>
    rw [List.foldlM_cons] at applied
    dsimp only at applied
    split at applied
    -- no pattern for this channel, a row outside the patterns, or a row that was decoded
    case isTrue => exact ih inRange applied
    case isFalse =>
      split at applied
      case h_1 => cases applied
      case h_2 row loaded =>
        exact ih (inRange.applyRow r c (PatternRow.inRange_of_load? loaded)) applied

theorem playChannels {s : Sequencer} (inRange : s.InRange) (r : Ram) :
    (s.playChannels r).1.InRange := by
  unfold Sequencer.playChannels
  generalize allChannels = channels
  induction channels generalizing s r with
  | nil => exact inRange
  | cons c channels ih =>
    rw [List.foldl_cons]
    dsimp only
    have ticked := (inRange.effects c).tickOn
    split
    · exact ih ((inRange.setChannel ((inRange.channels c).play c r _ _) c).setEffects ticked c) _
    · exact ih (inRange.setEffects ticked c) _

theorem takeJump {s : Sequencer} (inRange : s.InRange) (t : Track) (p : MusicPosition) :
    (s.takeJump t p).1.InRange := by
  unfold Sequencer.takeJump
  dsimp only
  split
  · split
    · exact inRange
    · exact ⟨inRange.channels, inRange.effects, fun j none => by cases none⟩
  · exact inRange

theorem turnFrame {s u : Sequencer} (inRange : s.InRange) {t : Track} {p q : MusicPosition}
    {row next : Int} (turned : s.turnFrame t p row = some (u, q, next)) : u.InRange := by
  unfold Sequencer.turnFrame at turned
  split at turned
  case isTrue =>
    cases turned
    exact inRange
  case isFalse =>
    cases following : nextFrame t p with
    | none => simp [following] at turned
    | some frame =>
      simp only [following] at turned
      cases turned
      have begun := inRange.setTime 0 s.tempo s.speed
      split
      · exact begun
      · exact begun.clear.silence (by decide)

end InRange

/-! ### A frame of music -/

private theorem ok_of_map_eq_ok {α β : Type} {x : Except Fault α} {f : α → β} {b : β}
    (mapped : x.map f = .ok b) : ∃ a, x = .ok a ∧ f a = b := by
  cases x with
  | error cause => cases mapped
  | ok a => exact ⟨a, rfl, Except.ok.inj mapped⟩

/-- A row that is new is handed to the channels. -/
def playRow (s : Sequencer) (r : Ram) (t : Track) (p : MusicPosition) (row : Int) :
    Except Fault (Sequencer × MusicPosition) :=
  if row = p.row then .ok (s, p)
  else
    let p := { p with row := signedByte (byteOfInt row) }
    (s.applyRows r t p.frame p.row).map fun s => (s, p)

/-- What a frame of music ends with: the channels move on, and the position is stored. -/
def moveOn (s : Sequencer) (p : MusicPosition) (r : Ram) : Sequencer × Ram :=
  let (s, r) := s.playChannels (p.store r)
  ({ s with ticks := wrap32 (s.ticks + 1) }, r)

/-- Music that plays takes its jump and turns to the next frame of the track; then it ends, or plays
the row that it has come to. -/
theorem tick_playing {s u : Sequencer} {r : Ram} {index : Fin trackCount} {p : MusicPosition}
    {row : Int} (playing : (MusicPosition.load r).status ≠ .stopped)
    (found : Track.index? (MusicPosition.load r).track = some index)
    (jumped : s.takeJump (Track.load r index) (MusicPosition.load r) = (u, p, row)) :
    s.tick r =
      match u.turnFrame (Track.load r index) p row with
      | none => .ok ({ u with ticks := 0 }.stop r)
      | some (v, q, next) =>
        (v.playRow r (Track.load r index) q next).map fun (w, q) => w.moveOn q r := by
  rw [tick, if_neg playing, found]
  simp only [jumped]
  cases u.turnFrame (Track.load r index) p row with
  | none => rfl
  | some turned =>
    obtain ⟨v, q, next⟩ := turned
    simp only [playRow]
    split
    case isTrue => simp only [bind, Except.bind, pure, Except.pure, Except.map, moveOn]
    case isFalse =>
      cases v.applyRows r (Track.load r index) q.frame (signedByte (byteOfInt next)) with
      | error cause => rfl
      | ok w => simp only [bind, Except.bind, pure, Except.pure, Except.map, moveOn]

namespace InRange

variable {s : Sequencer} (inRange : s.InRange)
include inRange

theorem playRow {r : Ram} {t : Track} {p : MusicPosition} {row : Int}
    {result : Sequencer × MusicPosition} (played : s.playRow r t p row = .ok result) :
    result.1.InRange := by
  unfold Sequencer.playRow at played
  split at played
  case isTrue =>
    cases played
    exact inRange
  case isFalse =>
    obtain ⟨u, applied, rfl⟩ := ok_of_map_eq_ok played
    exact inRange.applyRows applied

theorem moveOn (p : MusicPosition) (r : Ram) : (s.moveOn p r).1.InRange :=
  (inRange.playChannels (p.store r)).setTime _ _ _

theorem tick {r : Ram} {result : Sequencer × Ram} (ticked : s.tick r = .ok result) :
    result.1.InRange := by
  by_cases stopped : (MusicPosition.load r).status = .stopped
  · rw [Sequencer.tick, if_pos stopped] at ticked
    cases ticked
    exact inRange
  cases found : Track.index? (MusicPosition.load r).track with
  | none =>
    rw [Sequencer.tick, if_neg stopped, found] at ticked
    cases ticked
    exact inRange.stop r
  | some index =>
    have reached := inRange.takeJump (Track.load r index) (MusicPosition.load r)
    cases jumped : s.takeJump (Track.load r index) (MusicPosition.load r) with
    | mk u rest =>
    rw [jumped] at reached
    rw [tick_playing stopped found jumped] at ticked
    cases turning : u.turnFrame (Track.load r index) rest.1 rest.2 with
    | none =>
      rw [turning] at ticked
      cases ticked
      exact (reached.setTime 0 _ _).stop r
    | some turned =>
      obtain ⟨v, q, next⟩ := turned
      rw [turning] at ticked
      obtain ⟨w, played, rfl⟩ := ok_of_map_eq_ok ticked
      exact ((reached.turnFrame turning).playRow played).moveOn _ r

end InRange

end Sequencer

end FantasyConsole
