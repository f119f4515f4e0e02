import FantasyConsole.Proofs.Sound.Lookups
import FantasyConsole.Proofs.Sound.OwnChannel

/-!
# Frames with checked lookups

The steps of the music, with every lookup and every division checked. The notes of running commands,
the frames of a track and the rows of a pattern are found by numbers out of memory. Each step passes
its checks and is the step without them, with two exceptions. The row of a tick is a quotient that
may be no number of 32 bits, and a row of a pattern is read with the checks exactly where it can be
read without them.
-/

namespace FantasyConsole

/-! ### Running commands -/

namespace Effects

def checkedArpeggioNote (e : Effects) : Checked Int := do
  let notes : Vector Int 3 := #v[0, e.arpeggio.note1, e.arpeggio.note2]
  let turns : Nat := if e.arpeggio.note2 = 0 then 2 else 3
  entry notes (← remainder e.arpeggio.tick turns)

theorem checkedArpeggioNote_eq (e : Effects) : e.checkedArpeggioNote = pure e.arpeggioNote := by
  have bounds : 0 < (if e.arpeggio.note2 = 0 then 2 else 3) ∧
      (if e.arpeggio.note2 = 0 then 2 else 3) ≤ 3 := by
    split <;> decide
  unfold checkedArpeggioNote arpeggioNote
  dsimp only
  generalize (if e.arpeggio.note2 = 0 then 2 else 3) = turns at *
  have turn : e.arpeggio.tick % turns < 3 :=
    Nat.lt_of_lt_of_le (Nat.mod_lt _ bounds.1) bounds.2
  rw [remainder_of_pos _ (by omega), pure_bind, ← Int.ofNat_tmod,
    entry_eq _ (Int.natCast_nonneg _) (Int.ofNat_lt.mpr turn) 0, Int.toNat_natCast]
  generalize e.arpeggio.tick % turns = k at turn
  match k, turn with
  | 0, _ => rfl
  | 1, _ => rfl
  | 2, _ => rfl

def checkedVibratoPitch (e : Effects) : Checked Int :=
  let v := e.vibrato
  if v.period = 0 ∨ v.depth = 0 then pure 0
  else do
    let span : Nat := 2 * v.period
    let phase ← quotient ((← remainder v.tick span) * 32) span
    return ((← entry sine phase) * v.depth) / 65536

theorem checkedVibratoPitch_eq (e : Effects) : e.checkedVibratoPitch = pure e.vibratoPitch := by
  unfold checkedVibratoPitch vibratoPitch
  dsimp only
  split
  case isTrue => rfl
  case isFalse runs =>
    have positive : 0 < 2 * e.vibrato.period := by omega
    generalize 2 * e.vibrato.period = span at positive
    -- a place within the span is a place within the table
    have phase : e.vibrato.tick % span * 32 / span < 32 := by
      apply Nat.div_lt_of_lt_mul
      exact Nat.mul_lt_mul_of_pos_right (Nat.mod_lt _ positive) (by decide)
    rw [remainder_of_pos _ (by omega), pure_bind, quotient_of_pos _ (by omega), pure_bind,
      ← Int.ofNat_tmod, show (32 : Int) = (32 : Nat) from rfl, ← Int.natCast_mul,
      ← Int.ofNat_tdiv, entry_eq _ (Int.natCast_nonneg _) (Int.ofNat_lt.mpr phase) 0,
      Int.toNat_natCast, pure_bind]

def checkedApply (e : Effects) (note : Int) : Checked (Int × Int) := do
  let arpeggio ← e.checkedArpeggioNote
  let pitch ← e.checkedVibratoPitch
  if e.slide.tick < e.slide.duration then
    let distance := (← checkedFrequency note) - (← checkedFrequency e.slide.note)
    let part ← quotient (distance * e.slide.tick) e.slide.duration
    return (e.slide.note, pitch + part + e.finePitch)
  else
    return (note + arpeggio, pitch + e.finePitch)

/-- Running commands fail no check: a vibrato without a period moves no pitch, and a slide that is
not over has a duration. -/
theorem checkedApply_eq (e : Effects) (note : Int) : e.checkedApply note = pure (e.apply note) := by
  simp only [checkedApply, apply, checkedArpeggioNote_eq, checkedVibratoPitch_eq,
    checkedFrequency_eq, pure_bind]
  split
  case isTrue slides => rw [quotient_of_pos _ (by omega), pure_bind]
  case isFalse => rfl

end Effects

/-! ### Tracks -/

namespace Track

/-- Reads a track that a number names. -/
def checkedLoad (r : Ram) (index : Int) : Checked Track := do
  return decode (Ram.bytesOf (← r.slice Layout.tracks (index * trackBytes) trackBytes))

theorem checkedLoad_eq (r : Ram) (i : Fin trackCount) : checkedLoad r i = pure (load r i) := by
  have decoded : decode (Ram.bytesOf (r.block (Layout.tracks.offset + i * trackBytes)
      trackBytes)) = load r i := by
    apply decode_congr
    intro k member
    exact r.bytesOf_block _ member
  rw [checkedLoad, r.slice_record _ i.isLt (by decide) (by decide), pure_bind, decoded]

theorem le_tempo_load (r : Ram) (i : Fin trackCount) : -128 ≤ (load r i).tempo := by
  simp only [load, decode]
  exact (signedByte_mem _).1

def checkedPatternId (t : Track) (frame : Int) (c : Fin channelCount) : Checked Nat := do
  let packed ← entry t.frames frame
  return ((packed >>> UInt32.ofNat (6 * c)) &&& 0x3F).toNat

theorem checkedPatternId_eq (t : Track) {frame : Int} (lower : 0 ≤ frame)
    (upper : frame < trackFrames) (c : Fin channelCount) :
    t.checkedPatternId frame c = pure (t.patternId frame.toNat c) := by
  rw [checkedPatternId, entry_eq t.frames lower upper 0, pure_bind, patternId]

def checkedSilent (t : Track) (frame : Int) : Checked Bool :=
  allChannels.allM fun c => do return (← t.checkedPatternId frame c) == 0

theorem checkedSilent_eq (t : Track) {frame : Int} (lower : 0 ≤ frame)
    (upper : frame < trackFrames) : t.checkedSilent frame = pure (t.isSilent frame.toNat) := by
  simp only [checkedSilent, t.checkedPatternId_eq lower upper, pure_bind, List.allM_pure, isSilent]

end Track

/-! ### Rows of a pattern -/

namespace PatternRow

/-- The row in three bytes. What it names has to be a sample. -/
def checkedDecode (a b c : UInt8) : Checked PatternRow :=
  let number := (((b >>> 7) <<< 5) ||| (c &&& 0x1F)).toNat
  if number < sampleCount then pure (decode a b c) else throw (.index number sampleCount)

/-- Six bits hold no more than the numbers of samples. -/
theorem checkedDecode_eq (a b c : UInt8) : checkedDecode a b c = pure (decode a b c) := by
  have high : (((b >>> 7) <<< 5)).toNat < 2 ^ 6 := by
    have byte := b.toNat_lt
    rw [UInt8.toNat_shiftLeft, UInt8.toNat_shiftRight]
    simp only [UInt8.reduceToNat, Nat.reduceMod, Nat.shiftRight_eq_div_pow, Nat.shiftLeft_eq]
    omega
  have low : (c &&& 0x1F).toNat < 2 ^ 6 := by
    rw [UInt8.toNat_and]
    exact Nat.lt_of_le_of_lt Nat.and_le_right (by decide)
  refine if_pos ?_
  rw [UInt8.toNat_or]
  exact Nat.or_lt_two_pow high low

def checkedLoad (r : Ram) (id : Nat) (row : Int) : Checked PatternRow := do
  -- a negative row is no place, although bytes before the pattern may lie in the region
  let place ← checkedPlace row
  let start := ((id : Int) - 1) * (patternRows * rowBytes) + place * rowBytes
  let bytes ← r.slice Layout.patterns start rowBytes
  checkedDecode bytes[0] bytes[1] bytes[2]

/-- A row can be read where the unchecked step finds one. -/
theorem toOption_checkedLoad (r : Ram) {id : Nat} (first : 1 ≤ id) (row : Int) :
    (checkedLoad r id row).toOption = load? r id row := by
  by_cases lower : 0 ≤ row
  · have place : ((row.toNat : Nat) : Int) = row := Int.toNat_of_nonneg lower
    have start : 0 ≤ ((id : Int) - 1) * (patternRows * rowBytes) + row * rowBytes := by
      simp only [patternRows, rowBytes]
      omega
    rw [checkedLoad, checkedPlace, if_pos lower, pure_bind, place, load?]
    dsimp only
    by_cases upper : ((id : Int) - 1) * (patternRows * rowBytes) + row * rowBytes + rowBytes ≤
        Layout.patterns.size
    · rw [if_pos ⟨lower, upper⟩, r.slice_eq _ start upper (by decide), pure_bind,
        checkedDecode_eq]
      simp only [Ram.getElem_block]
      rfl
    · rw [if_neg fun inside => upper inside.2, Ram.slice, Region.address,
        if_neg fun inside => upper inside.2.1]
      rfl
  · rw [load?, if_neg fun inside => lower inside.1, checkedLoad, checkedPlace, if_neg lower]
    rfl

end PatternRow

/-! ### The position of the music -/

namespace MusicPosition

def checkedLoad (r : Ram) : Checked MusicPosition := do
  let _ ← r.slice Layout.musicState 0 Layout.musicState.size
  return load r

theorem checkedLoad_eq (r : Ram) : checkedLoad r = pure (load r) := by
  rw [checkedLoad, r.slice_eq _ (by decide) (by decide) (by decide), pure_bind]

def checkedStore (p : MusicPosition) (r : Ram) : Checked Ram := do
  let _ ← Layout.musicState.address 0 Layout.musicState.size
  return p.store r

theorem checkedStore_eq (p : MusicPosition) (r : Ram) : p.checkedStore r = pure (p.store r) := by
  rw [checkedStore, Layout.musicState.address_eq (by decide) (by decide) (by decide), pure_bind]

end MusicPosition

namespace Sequencer

/-! ### Rows and ticks -/

/-- What the row of a tick is a quotient of. -/
def product (s : Sequencer) (t : Track) (tick : Int) : Int := tick * s.tempoOf t * defaultSpeed

/-- Whether the product that a row is computed from is a number of 32 bits. -/
def Countable (s : Sequencer) (t : Track) (tick : Int) : Prop :=
  minInt32 ≤ s.product t tick ∧ s.product t tick ≤ maxInt32

def checkedRowOfTick (s : Sequencer) (t : Track) (tick : Int) : Checked Int :=
  let speed := s.speedOf t
  -- music that stands still divides nothing
  if speed = 0 then pure 0
  else do
    let rows ← quotient (wrap32 (wrap32 (tick * s.tempoOf t) * defaultSpeed)) speed
    quotient rows rowsPerMinute

def checkedTickOfRow (s : Sequencer) (t : Track) (row : Int) : Checked Int :=
  let tempo := s.tempoOf t
  if tempo = 0 then pure 0
  else do
    let ticks ← quotient (wrap32 (wrap32 (row * s.speedOf t) * rowsPerMinute)) tempo
    quotient ticks defaultSpeed

theorem wrap32_product {s : Sequencer} {t : Track} {tick : Int} (countable : s.Countable t tick) :
    wrap32 (wrap32 (tick * s.tempoOf t) * defaultSpeed) = s.product t tick := by
  obtain ⟨lower, upper⟩ := countable
  unfold product at *
  rw [wrap32_eq_self (n := tick * s.tempoOf t), wrap32_eq_self lower upper]
  all_goals
    simp only [minInt32, maxInt32, defaultSpeed] at *
    omega

/-- The row of a tick has no zero divisor, and its quotients are numbers of 32 bits as long as the
product is one. -/
theorem checkedRowOfTick_cases (s : Sequencer) (t : Track) (tick : Int) :
    s.checkedRowOfTick t tick = pure (s.rowOfTick t tick) ∨
      (s.checkedRowOfTick t tick = throw .overflow ∧ ¬ s.Countable t tick) := by
  unfold checkedRowOfTick rowOfTick
  dsimp only
  by_cases still : s.speedOf t = 0
  · rw [if_pos still, if_pos still]
    exact .inl rfl
  rw [if_neg still, if_neg still]
  by_cases extreme : wrap32 (wrap32 (tick * s.tempoOf t) * defaultSpeed) = minInt32 ∧ s.speedOf t = -1
  · right
    refine ⟨by rw [quotient, if_neg still, if_pos extreme]; rfl, fun countable => ?_⟩
    -- the product is a multiple of 6, and the smallest number of 32 bits is none
    have smallest := (wrap32_product countable).symm.trans extreme.1
    simp only [product, defaultSpeed, minInt32] at smallest
    omega
  · left
    rw [quotient, if_neg still, if_neg extreme, pure_bind]
    exact quotient_of_pos _ (by decide)

/-- Whether music plays at a tick whose row is no number of 32 bits. -/
def RowOverflows (s : Sequencer) (r : Ram) : Prop :=
  (MusicPosition.load r).status ≠ .stopped ∧
    ∃ index, Track.index? (MusicPosition.load r).track = some index ∧
      s.checkedRowOfTick (Track.load r index) s.ticks = throw .overflow

theorem rowOverflows_congr {r m : Ram} (same : Ram.SameOn Layout.song r m) (s : Sequencer) :
    s.RowOverflows m ↔ s.RowOverflows r := by
  rw [RowOverflows, RowOverflows, MusicPosition.load_congr (same.mono (by decide))]
  simp only [Track.load_congr (same.mono (by decide))]

/-- No tempo in force is negative. -/
theorem tempoOf_nonneg (s : Sequencer) (r : Ram) (i : Fin trackCount) :
    0 ≤ s.tempoOf (Track.load r i) := by
  -- a track takes at most 128 off a tempo of 150
  have own := Track.le_tempo_load r i
  unfold tempoOf defaultTempo
  split
  case h_1 => exact Int.natCast_nonneg _
  case h_2 => omega

theorem checkedTickOfRow_eq (s : Sequencer) {t : Track} (tempo : 0 ≤ s.tempoOf t) (row : Int) :
    s.checkedTickOfRow t row = pure (s.tickOfRow t row) := by
  unfold checkedTickOfRow tickOfRow
  dsimp only
  split
  case isTrue => rfl
  case isFalse counts =>
    rw [quotient_of_pos _ (by omega), pure_bind]
    exact quotient_of_pos _ (by decide)

/-! ### The frame that is reached -/

def checkedTakeJump (s : Sequencer) (t : Track) (p : MusicPosition) :
    Checked (Sequencer × MusicPosition × Int) := do
  let row ← s.checkedRowOfTick t s.ticks
  match s.jump with
  | some jump =>
    if row = p.row then
      return (s, p, row)
    else
      let row := jump.beat * rowsPerBeat
      let ticks ← s.checkedTickOfRow t row
      return ({ s with ticks := ticks, jump := none }, { p with frame := jump.frame }, row)
  | none => return (s, p, row)

theorem checkedTakeJump_cases (s : Sequencer) {t : Track} (tempo : 0 ≤ s.tempoOf t)
    (p : MusicPosition) :
    s.checkedTakeJump t p = pure (s.takeJump t p) ∨
      (s.checkedTakeJump t p = throw .overflow ∧
        s.checkedRowOfTick t s.ticks = throw .overflow) := by
  unfold checkedTakeJump takeJump
  rcases s.checkedRowOfTick_cases t s.ticks with row | ⟨fails, -⟩
  · left
    rw [row, pure_bind]
    cases s.jump with
    | none => rfl
    | some jump =>
      dsimp only
      split
      case isTrue => rfl
      case isFalse => rw [s.checkedTickOfRow_eq tempo, pure_bind]
  · right
    rw [fails]
    exact ⟨rfl, rfl⟩

def checkedNextFrame (t : Track) (p : MusicPosition) : Checked (Option Int) :=
  match p.status with
  | .play => do
    let frame := p.frame + 1
    -- a frame past the last one is not looked up
    let ended ← if frame < 0 ∨ trackFrames ≤ frame then pure true else t.checkedSilent frame
    if ended then
      return if p.looped then some 0 else none
    else
      return some frame
  | _ => return if p.looped then some p.frame else none

theorem checkedNextFrame_eq (t : Track) (p : MusicPosition) :
    checkedNextFrame t p = pure (nextFrame t p) := by
  unfold checkedNextFrame nextFrame
  cases p.status with
  | stopped | playFrame => rfl
  | play =>
    dsimp only
    by_cases past : p.frame + 1 < 0 ∨ trackFrames ≤ p.frame + 1
    · have ended : p.frame + 1 < 0 ∨ trackFrames ≤ p.frame + 1 ∨
          t.isSilent (p.frame + 1).toNat = true := by
        rcases past with before | after
        · exact .inl before
        · exact .inr (.inl after)
      rw [if_pos past, pure_bind, if_pos rfl, if_pos ended]
    · have frame : (p.frame + 1 < 0 ∨ trackFrames ≤ p.frame + 1 ∨
          t.isSilent (p.frame + 1).toNat = true) ↔ t.isSilent (p.frame + 1).toNat = true := by
        rw [← or_assoc, or_iff_right past]
      rw [if_neg past, t.checkedSilent_eq (by omega) (by omega), pure_bind]
      simp only [frame]
      split <;> rfl

def checkedTurnFrame (s : Sequencer) (t : Track) (p : MusicPosition) (row : Int) :
    Checked (Option (Sequencer × MusicPosition × Int)) :=
  if row < t.patternLength then
    pure (some (s, p, row))
  else do
    let frame? ← checkedNextFrame t p
    return frame?.map fun frame => (s.turned p.sustain, { p with frame := frame }, 0)

theorem checkedTurnFrame_eq (s : Sequencer) (t : Track) (p : MusicPosition) (row : Int) :
    s.checkedTurnFrame t p row = pure (s.turnFrame t p row) := by
  unfold checkedTurnFrame
  split
  case isTrue inside => rw [turnFrame, if_pos inside]
  case isFalse ended =>
    rw [s.turnFrame_of_le p (by omega), checkedNextFrame_eq, pure_bind]

/-! ### Rows that are handed over -/

def checkedPlayNote (s : Sequencer) (r : Ram) (c : Fin channelCount) (row : PatternRow) :
    Checked Sequencer :=
  let ch := s.channels.get c
  let s :=
    if row.note = 0 then s
    else
      let e := s.effects.get c
      s.setEffects c { e with slide.tick := 0, slide.note := ch.note }
  if row.note = PatternRow.stopNote then do
    return s.setChannel c (← ch.checkedStart r none 0 0 (-1) ch.left ch.right none)
  else if PatternRow.firstNote ≤ row.note then do
    return s.setChannel c
      (← ch.checkedStart r (some row.sample) (row.note - PatternRow.firstNote : Nat) row.octave (-1)
        ch.left ch.right none)
  else
    return s

theorem checkedPlayNote_eq (s : Sequencer) (r : Ram) (c : Fin channelCount) (row : PatternRow) :
    s.checkedPlayNote r c row = pure (s.playNote r c row) := by
  unfold checkedPlayNote playNote
  -- what is left are the same three cases of the note
  simp only [Channel.checkedStart_eq, pure_bind]
  split
  · rfl
  · split <;> rfl

def checkedApplyRow (s : Sequencer) (r : Ram) (c : Fin channelCount) (row : PatternRow) :
    Checked Sequencer :=
  let e := s.effects.get c
  let (due, delay) := dueRow e.delay row
  let s := s.setEffects c { e with delay := delay }
  match due with
  | none => return s
  | some row => do return (← s.checkedPlayNote r c row).runCommand c row

theorem checkedApplyRow_eq (s : Sequencer) (r : Ram) (c : Fin channelCount) (row : PatternRow) :
    s.checkedApplyRow r c row = pure (s.applyRow r c row) := by
  unfold checkedApplyRow applyRow
  dsimp only
  cases (dueRow (s.effects.get c).delay row).1 with
  | none => rfl
  | some due => simp only [checkedPlayNote_eq, pure_bind]

def checkedApplyRowAt (s : Sequencer) (r : Ram) (t : Track) (frame row : Int)
    (c : Fin channelCount) : Checked Sequencer := do
  let id ← t.checkedPatternId (clampInt 0 (trackFrames - 1) frame) c
  if id = 0 ∨ patternCount < id then
    return s
  else
    s.checkedApplyRow r c (← PatternRow.checkedLoad r id row)

def checkedApplyRows (s : Sequencer) (r : Ram) (t : Track) (frame row : Int) : Checked Sequencer :=
  allChannels.foldlM (fun s c => s.checkedApplyRowAt r t frame row c) s

end Sequencer

/-! ### Results that are the same, whatever goes wrong -/

section Outcomes

variable {ε δ α β : Type}

theorem toOption_bind (x : Except ε α) (f : α → Except ε β) :
    (x >>= f).toOption = x.toOption.bind fun a => (f a).toOption := by
  cases x <;> rfl

theorem toOption_map (x : Except ε α) (f : α → β) : (x.map f).toOption = x.toOption.map f := by
  cases x <;> rfl

/-- Loops whose turns have the same results have the same result. -/
theorem toOption_foldlM {f : β → α → Except ε β} {g : β → α → Except δ β}
    (same : ∀ b a, (f b a).toOption = (g b a).toOption) (b : β) (turns : List α) :
    (turns.foldlM f b).toOption = (turns.foldlM g b).toOption := by
  induction turns generalizing b with
  | nil => rfl
  | cons a turns ih => simp only [List.foldlM_cons, toOption_bind, same, ih]

end Outcomes

namespace Sequencer

theorem toOption_checkedApplyRowAt (s : Sequencer) (r : Ram) (t : Track) (frame row : Int)
    (c : Fin channelCount) :
    (s.checkedApplyRowAt r t frame row c).toOption =
      (s.applyRowAt r t frame row c).toOption := by
  -- the frame is limited before it is looked up
  have inside : 0 ≤ clampInt 0 (trackFrames - 1) frame ∧
      clampInt 0 (trackFrames - 1) frame < trackFrames := by
    simp only [clampInt, trackFrames]
    omega
  rw [checkedApplyRowAt, t.checkedPatternId_eq inside.1 inside.2, pure_bind, ← Track.patternAt,
    applyRowAt]
  by_cases plays : t.PlaysAt frame c
  · obtain ⟨first, last⟩ := plays
    rw [if_neg (by omega), if_pos ⟨first, last⟩, toOption_bind,
      PatternRow.toOption_checkedLoad r first]
    cases PatternRow.load? r (t.patternAt frame c) row with
    | none => rfl
    | some pattern =>
      simp only [Option.bind_some, checkedApplyRow_eq]
      rfl
  · have idle : t.patternAt frame c = 0 ∨ patternCount < t.patternAt frame c := by
      by_contra other
      exact plays ⟨by omega, by omega⟩
    rw [if_pos idle, if_neg plays]
    rfl

/-- Rows are handed over with the checks where they are handed over without. -/
theorem toOption_checkedApplyRows (s : Sequencer) (r : Ram) (t : Track) (frame row : Int) :
    (s.checkedApplyRows r t frame row).toOption = (s.applyRows r t frame row).toOption := by
  rw [checkedApplyRows, applyRows_eq]
  exact toOption_foldlM (fun s c => s.toOption_checkedApplyRowAt r t frame row c) s allChannels

def checkedPlayRow (s : Sequencer) (r : Ram) (t : Track) (p : MusicPosition) (row : Int) :
    Checked (Sequencer × MusicPosition) :=
  if row = p.row then pure (s, p)
  else
    let p := { p with row := signedByte (byteOfInt row) }
    (s.checkedApplyRows r t p.frame p.row).map fun s => (s, p)

theorem toOption_checkedPlayRow (s : Sequencer) (r : Ram) (t : Track) (p : MusicPosition)
    (row : Int) : (s.checkedPlayRow r t p row).toOption = (s.playRow r t p row).toOption := by
  unfold checkedPlayRow playRow
  split
  case isTrue => rfl
  case isFalse =>
    dsimp only
    rw [toOption_map, toOption_map, toOption_checkedApplyRows]

/-! ### The music moves on -/

def checkedMoveChannel (x : Sequencer × Ram) (c : Fin channelCount) : Checked (Sequencer × Ram) :=
  let e := x.1.effects.get c
  let ch := x.1.channels.get c
  if ch.isActive then do
    let (note, pitch) ← e.checkedApply ch.note
    let moved ← ch.checkedPlay c x.2 note pitch
    return ((x.1.setChannel c moved.1).setEffects c e.tickOn, moved.2)
  else
    return (x.1.setEffects c e.tickOn, x.2)

theorem checkedMoveChannel_eq (x : Sequencer × Ram) (c : Fin channelCount) :
    checkedMoveChannel x c = pure (moveChannel x c) := by
  unfold checkedMoveChannel moveChannel
  simp only [Effects.checkedApply_eq, Channel.checkedPlay_eq, pure_bind]
  split <;> rfl

def checkedMoveOn (s : Sequencer) (p : MusicPosition) (r : Ram) : Checked (Sequencer × Ram) := do
  let moved ← allChannels.foldlM checkedMoveChannel (s, ← p.checkedStore r)
  return ({ moved.1 with ticks := wrap32 (moved.1.ticks + 1) }, moved.2)

theorem checkedMoveOn_eq (s : Sequencer) (p : MusicPosition) (r : Ram) :
    s.checkedMoveOn p r = pure (s.moveOn p r) := by
  have turn : checkedMoveChannel = fun x c => pure (moveChannel x c) := by
    funext x c
    exact checkedMoveChannel_eq x c
  rw [checkedMoveOn, p.checkedStore_eq, pure_bind, turn, List.foldlM_pure, pure_bind, moveOn,
    playChannels_eq]

def checkedStop (s : Sequencer) (r : Ram) : Checked (Sequencer × Ram) := do
  let p ← MusicPosition.checkedLoad r
  let stopped := { p with track := -1, status := .stopped }
  return (s.clear, ← stopped.checkedStore r)

theorem checkedStop_eq (s : Sequencer) (r : Ram) : s.checkedStop r = pure (s.stop r) := by
  simp only [checkedStop, MusicPosition.checkedLoad_eq, MusicPosition.checkedStore_eq, pure_bind,
    stop]

def checkedTick (s : Sequencer) (r : Ram) : Checked (Sequencer × Ram) := do
  let p ← MusicPosition.checkedLoad r
  if p.status = .stopped then
    return (s, r)
  else
    match Track.index? p.track with
    | none => s.checkedStop r
    | some index =>
      let t ← Track.checkedLoad r index
      let (u, p, row) ← s.checkedTakeJump t p
      match ← u.checkedTurnFrame t p row with
      | none => checkedStop { u with ticks := 0 } r
      | some (v, p, row) =>
        let (w, p) ← v.checkedPlayRow r t p row
        w.checkedMoveOn p r

/-- The tick with the checks has the result of the tick without, unless its row overflows. -/
theorem checkedTick_cases (s : Sequencer) (r : Ram) :
    (s.checkedTick r).toOption = (s.tick r).toOption ∨
      (s.checkedTick r = throw .overflow ∧ s.RowOverflows r) := by
  unfold checkedTick
  rw [MusicPosition.checkedLoad_eq, pure_bind]
  split
  case isTrue stopped =>
    left
    rw [tick, if_pos stopped]
    rfl
  case isFalse playing =>
    cases found : Track.index? (MusicPosition.load r).track with
    | none =>
      left
      rw [tick, if_neg playing, found]
      dsimp only
      rw [checkedStop_eq]
      rfl
    | some index =>
      dsimp only
      rw [Track.checkedLoad_eq, pure_bind]
      rcases s.checkedTakeJump_cases (s.tempoOf_nonneg r index) (MusicPosition.load r) with
        jumps | ⟨fails, row⟩
      · left
        rw [jumps, pure_bind]
        -- the tick ends, or the row that it has come to is played
        cases jumped : s.takeJump (Track.load r index) (MusicPosition.load r) with
        | mk u rest =>
          obtain ⟨p, row⟩ := rest
          dsimp only
          rw [tick_playing playing found jumped, checkedTurnFrame_eq, pure_bind]
          cases u.turnFrame (Track.load r index) p row with
          | none =>
            dsimp only
            rw [checkedStop_eq]
            rfl
          | some turned =>
            obtain ⟨v, q, next⟩ := turned
            dsimp only
            rw [toOption_bind, toOption_checkedPlayRow, toOption_map]
            simp only [checkedMoveOn_eq]
            cases (v.playRow r (Track.load r index) q next) <;> rfl
      · right
        rw [fails]
        exact ⟨rfl, playing, index, found, row⟩

end Sequencer

end FantasyConsole
