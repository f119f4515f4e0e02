import FantasyConsole.Proofs.Sound.Lockstep

/-!
# Checked lookups

The ticks of an envelope, its loops and the bytes of a waveform are all found by numbers that come
from memory, and so from the program. Here every lookup and every division of a channel is made with
a check. It gives nothing at all, and says why, where an index lies past the end of its table, bytes
past the end of their region, or a divisor is zero. A channel makes the same steps with the checks as
without them, since no number that is decoded from bytes fails one.
-/

namespace FantasyConsole

/-- What can be wrong with a lookup or a division. -/
inductive Slip where
  /-- A negative number where a place is asked for. -/
  | negative (i : Int)
  /-- No place of a table of some length. -/
  | index (i : Int) (length : Nat)
  /-- Bytes that do not all lie in their region. -/
  | slice (g : Region) (start : Int) (n : Nat)
  | zeroDivisor
  /-- A quotient that is no number of 32 bits. -/
  | overflow
deriving DecidableEq, Repr

abbrev Checked := Except Slip

/-! ### The checks -/

/-- A number that is used as a place. -/
def checkedPlace (i : Int) : Checked Nat := if 0 ≤ i then pure i.toNat else throw (.negative i)

/-- The entry of a table. -/
def entry {α : Type} {n : Nat} (table : Vector α n) (i : Int) : Checked α :=
  if inside : 0 ≤ i ∧ i < n then pure (table.get ⟨i.toNat, by omega⟩) else throw (.index i n)

/-- The address of bytes of a region. -/
def Region.address (g : Region) (start : Int) (n : Nat) : Checked Nat :=
  if 0 ≤ start ∧ start + n ≤ g.size ∧ g.stop ≤ Layout.memorySize then
    pure (g.offset + start.toNat)
  else
    throw (.slice g start n)

/-- The bytes of a region from some place on. -/
def Ram.slice (r : Ram) (g : Region) (start : Int) (n : Nat) : Checked (Vector UInt8 n) := do
  return r.block (← g.address start n) n

/-- A quotient, cut off towards 0. -/
def quotient (a b : Int) : Checked Int :=
  if b = 0 then throw .zeroDivisor
  else if a = minInt32 ∧ b = -1 then throw .overflow
  else pure (a.tdiv b)

def remainder (a b : Int) : Checked Int :=
  if b = 0 then throw .zeroDivisor
  else if a = minInt32 ∧ b = -1 then throw .overflow
  else pure (a.tmod b)

theorem entry_eq {α : Type} {n : Nat} (table : Vector α n) {i : Int} (lower : 0 ≤ i) (upper : i < n)
    (other : α) : entry table i = pure (table[i.toNat]?.getD other) := by
  have inside : i.toNat < n := by omega
  rw [entry, dif_pos ⟨lower, upper⟩, Vector.getElem?_eq_getElem inside]
  rfl

theorem Region.address_eq (g : Region) {start : Int} {n : Nat} (lower : 0 ≤ start)
    (upper : start + n ≤ g.size) (within : g.stop ≤ Layout.memorySize) :
    g.address start n = pure (g.offset + start.toNat) :=
  if_pos ⟨lower, upper, within⟩

/-- The records of a region lie in it, one behind the other. -/
theorem Region.address_record (g : Region) {i count size : Nat} (below : i < count)
    (upper : count * size ≤ g.size) (within : g.stop ≤ Layout.memorySize) :
    g.address (i * size) size = pure (g.offset + i * size) := by
  have inside : i * size + size ≤ g.size := by
    rw [← Nat.succ_mul]
    exact Nat.le_trans (Nat.mul_le_mul_right size below) upper
  rw [← Int.natCast_mul, g.address_eq (Int.natCast_nonneg _) (by omega) within, Int.toNat_natCast]

theorem Ram.slice_eq (r : Ram) (g : Region) {start : Int} {n : Nat} (lower : 0 ≤ start)
    (upper : start + n ≤ g.size) (within : g.stop ≤ Layout.memorySize) :
    r.slice g start n = pure (r.block (g.offset + start.toNat) n) := by
  rw [slice, g.address_eq lower upper within, pure_bind]

theorem Ram.slice_record (r : Ram) (g : Region) {i count size : Nat} (below : i < count)
    (upper : count * size ≤ g.size) (within : g.stop ≤ Layout.memorySize) :
    r.slice g (i * size) size = pure (r.block (g.offset + i * size) size) := by
  rw [slice, g.address_record below upper within, pure_bind]

/-- A divisor that is positive fails no check. -/
theorem quotient_of_pos (a : Int) {b : Int} (positive : 0 < b) :
    quotient a b = pure (a.tdiv b) := by
  rw [quotient, if_neg (by omega), if_neg (by omega)]

theorem remainder_of_pos (a : Int) {b : Int} (positive : 0 < b) :
    remainder a b = pure (a.tmod b) := by
  rw [remainder, if_neg (by omega), if_neg (by omega)]

/-! ### Samples -/

/-- The bytes of a slice, as a decoder asks for them; past the end it would find none. -/
def Ram.bytesOf {n : Nat} (bytes : Vector UInt8 n) (k : Nat) : UInt8 := bytes[k]?.getD 0

theorem Ram.bytesOf_block (r : Ram) (start : Nat) {n k : Nat} (inside : k < n) :
    bytesOf (r.block start n) k = r.byte (start + k) := by
  rw [bytesOf, Vector.getElem?_eq_getElem inside, getElem_block]
  rfl

namespace Sample

/-- Reads a sample that a number names. -/
def checkedLoad (r : Ram) (index : Int) : Checked Sample := do
  return decode (Ram.bytesOf (← r.slice Layout.samples (index * sampleBytes) sampleBytes))

theorem checkedLoad_eq (r : Ram) (i : Fin sampleCount) : checkedLoad r i = pure (load r i) := by
  -- a sample is decoded from its own bytes alone
  have decoded : decode (Ram.bytesOf (r.block (Layout.samples.offset + i * sampleBytes)
      sampleBytes)) = load r i := by
    apply decode_congr
    intro k member
    exact r.bytesOf_block _ member
  rw [checkedLoad, r.slice_record _ i.isLt (by decide) (by decide), pure_bind, decoded]

def checkedTickAt (s : Sample) (position : Int) : Checked EnvelopeTick := entry s.ticks position

theorem checkedTickAt_eq (s : Sample) {position : Int} (inside : 0 ≤ position ∧ position ≤ 29) :
    s.checkedTickAt position = pure (s.tickAt position) := by
  apply entry_eq s.ticks inside.1
  simp only [envelopeTicks]
  omega

end Sample

/-! ### Envelopes -/

def SampleLoop.checkedPosition (l : SampleLoop) (pos : Int) : Checked Int :=
  if pos ≤ 0 then pure 0
  else if l.size = 0 then pure (min pos (envelopeTicks - 1))
  else
    let last : Int := l.start + l.size - 1
    if pos ≤ last then pure pos
    else do
      return l.start + (← remainder (pos - last - 1) l.size)

theorem SampleLoop.checkedPosition_eq (l : SampleLoop) (pos : Int) :
    l.checkedPosition pos = pure (l.position pos) := by
  unfold checkedPosition position
  split
  · rfl
  · split
    · rfl
    · dsimp only
      split
      · rfl
      · -- what is left of the way past the end of the loop is not negative
        have rest : 0 ≤ pos - (l.start + l.size - 1) - 1 := by omega
        rw [remainder_of_pos _ (by omega), pure_bind, Int.tmod_eq_emod_of_nonneg rest]

def checkedProgress (speed ticks : Int) : Checked Int :=
  if 0 < speed then pure (ticks * (1 + speed)) else quotient ticks (1 - speed)

theorem checkedProgress_eq (speed ticks : Int) :
    checkedProgress speed ticks = pure (envelopeProgress speed ticks) := by
  unfold checkedProgress envelopeProgress
  split
  · rfl
  · exact quotient_of_pos ticks (by omega)

namespace Envelope

/-- Looks something up for every part of an envelope. -/
def checkedMap {α β : Type} (f : α → Checked β) (e : Envelope α) : Checked (Envelope β) := do
  return ⟨← f e.wave, ← f e.volume, ← f e.chord, ← f e.pitch⟩

theorem checkedMap_eq {α β : Type} {f : α → Checked β} {g : α → β} (each : ∀ a, f a = pure (g a))
    (e : Envelope α) : e.checkedMap f = pure (e.map g) := by
  simp only [checkedMap, each, pure_bind, map]

end Envelope

/-- Wherever the envelope of a sample has come to is one of its ticks. -/
theorem Sample.positions_load (r : Ram) (i : Fin sampleCount) (passed : Int) :
    ((load r i).loops.map (·.position passed)).All fun p => 0 ≤ p ∧ p ≤ 29 := by
  obtain ⟨wave, volume, chord, pitch⟩ := Sample.loops_decode fun k =>
    r.byte (Layout.samples.offset + i * sampleBytes + k)
  have each (l : SampleLoop) (bounds : l.start ≤ 15 ∧ l.size ≤ 15) :=
    l.position_mem bounds.1 bounds.2 passed
  exact ⟨each _ wave, each _ volume, each _ chord, each _ pitch⟩

/-! ### Channels -/

def checkedFrequency (note : Int) : Checked Int := do
  return (← entry noteFrequencies (clampInt 0 103 note))

/-- Every note has a frequency, since notes past the table take the nearest one in it. -/
theorem checkedFrequency_eq (note : Int) : checkedFrequency note = pure (noteFrequency note) := by
  have inside : 0 ≤ clampInt 0 103 note ∧ clampInt 0 103 note < (104 : Nat) := by
    unfold clampInt
    omega
  rw [checkedFrequency, entry_eq noteFrequencies inside.1 inside.2 0, pure_bind, noteFrequency]

/-- Writes the register of a channel, and then its two volumes, each half a byte. -/
def Register.checkedStore (g : Register) (c : Fin channelCount) (r : Ram) : Checked Ram := do
  let start ← Layout.registers.address (c * registerBytes) registerBytes
  let r := r.setByte start (UInt8.ofNat g.frequency)
  let r := r.setByte (start + 1) (UInt8.ofNat (g.frequency / 256 % 16 + g.volume * 16))
  let r := r.setBlock (start + 2) g.waveform
  -- one byte for each channel
  let sides ← Layout.stereo.address (c * (1 : Nat)) 1
  let r := r.setPacked .four (2 * sides) g.left
  return r.setPacked .four (2 * sides + 1) g.right

theorem Register.checkedStore_eq (g : Register) (c : Fin channelCount) (r : Ram) :
    g.checkedStore c r = pure (g.store c r) := by
  have register := Layout.registers.address_record c.isLt (by decide : _ * registerBytes ≤ _)
    (by decide)
  have sides := Layout.stereo.address_record c.isLt (by decide : _ * 1 ≤ _) (by decide)
  simp only [checkedStore, register, sides, pure_bind, store, Nat.mul_one, Nat.mul_add]

namespace Channel

def checkedWaveform (r : Ram) (index : Nat) : Checked (Vector UInt8 waveformBytes) :=
  r.slice Layout.waveforms (index * waveformBytes) waveformBytes

theorem checkedWaveform_eq (r : Ram) {index : Nat} (bound : index ≤ 15) :
    checkedWaveform r index = pure (loadWaveform r index) :=
  r.slice_record Layout.waveforms (Nat.lt_succ_of_le bound) (by decide) (by decide)

/-- The speed of a sample that starts: its own, unless another one was chosen. -/
def checkedSpeed (ch : Channel) (r : Ram) (sample : Option (Fin sampleCount))
    (speed : Option Int) : Checked Int :=
  match sample, speed with
  | none, _ => pure ch.speed
  | some _, some speed => pure speed
  | some i, none => Sample.speed <$> Sample.checkedLoad r i

def checkedStart (ch : Channel) (r : Ram) (sample : Option (Fin sampleCount))
    (note octave duration : Int) (left right : UInt8) (speed : Option Int) : Checked Channel := do
  let own ← ch.checkedSpeed r sample speed
  return { ch.start r sample note octave duration left right speed with speed := own }

theorem checkedStart_eq (ch : Channel) (r : Ram) (sample : Option (Fin sampleCount))
    (note octave duration : Int) (left right : UInt8) (speed : Option Int) :
    ch.checkedStart r sample note octave duration left right speed =
      pure (ch.start r sample note octave duration left right speed) := by
  have own : ch.checkedSpeed r sample speed =
      pure (ch.start r sample note octave duration left right speed).speed := by
    unfold checkedSpeed start
    cases sample with
    | none => rfl
    | some i =>
      cases speed with
      | none =>
        dsimp only
        rw [Sample.checkedLoad_eq, map_pure]
        rfl
      | some speed => rfl
  rw [checkedStart, own, pure_bind]

def checkedStorePositions (ch : Channel) (c : Fin channelCount) (r : Ram) : Checked Ram := do
  let start ← Layout.effectPositions.address (c * (4 : Nat)) 4
  return r.setBlock start (ch.positions.toVector.map byteOfInt)

theorem checkedStorePositions_eq (ch : Channel) (c : Fin channelCount) (r : Ram) :
    ch.checkedStorePositions c r = pure (ch.storePositions c r) := by
  rw [checkedStorePositions,
    Layout.effectPositions.address_record c.isLt (by decide) (by decide), pure_bind, Nat.mul_comm]
  rfl

def checkedRegister? (ch : Channel) (r : Ram) (sample : Sample) (positions : Envelope Int)
    (note pitch : Int) : Checked (Option Register) := do
  let volume := maxVolume - (← sample.checkedTickAt positions.volume).volume
  if volume = 0 then
    return none
  else
    let chordTick ← sample.checkedTickAt positions.chord
    let chord : Int := if sample.reverse then -chordTick.chord else chordTick.chord
    let scale : Int := if sample.pitch16x then 16 else 1
    let base ← checkedFrequency (saturate32 (note + chord))
    let bend ← sample.checkedTickAt positions.pitch
    let frequency := base + bend.pitch * scale + pitch
    let wave ← sample.checkedTickAt positions.wave
    return some
      { frequency := (frequency % 4096).toNat
        volume := volume
        waveform := ← checkedWaveform r wave.wave
        left := if sample.muteLeft then 0 else ch.left
        right := if sample.muteRight then 0 else ch.right }

/-- The positions of an envelope are ticks of it, and these name waveforms that exist. -/
theorem checkedRegister?_eq (ch : Channel) (r : Ram) (i : Fin sampleCount)
    {positions : Envelope Int} (inside : positions.All fun p => 0 ≤ p ∧ p ≤ 29) (note pitch : Int) :
    ch.checkedRegister? r (Sample.load r i) positions note pitch =
      pure (ch.register? r (Sample.load r i) positions note pitch) := by
  obtain ⟨wave, volume, chord, bend⟩ := inside
  have waveform := checkedWaveform_eq r (Sample.wave_tickAt_load r i positions.wave)
  simp only [checkedRegister?, Sample.checkedTickAt_eq _ wave, Sample.checkedTickAt_eq _ volume,
    Sample.checkedTickAt_eq _ chord, Sample.checkedTickAt_eq _ bend, checkedFrequency_eq, waveform,
    pure_bind]
  split
  case isTrue silent => exact congrArg pure (if_pos silent).symm
  case isFalse heard => exact congrArg pure (if_neg heard).symm

def checkedAdvance (ch : Channel) (r : Ram) (note pitch : Int) :
    Checked (Channel × Option Register) :=
  let ch := { ch with duration := if 0 < ch.duration then ch.duration - 1 else ch.duration }
  if ch.sampleNumber < 0 ∨ ch.duration = 0 then pure ({ ch with progress := none }, none)
  else do
    let sample ← Sample.checkedLoad r ch.sampleNumber
    let tick : Nat := match ch.progress with
      | some p => p.tick + 1
      | none => 0
    let passed ← checkedProgress ch.speed tick
    let positions ← sample.loops.checkedMap (·.checkedPosition passed)
    let register ← ch.checkedRegister? r sample positions note pitch
    return ({ ch with progress := some ⟨tick, positions⟩ }, register)

theorem checkedAdvance_eq (ch : Channel) (r : Ram) (note pitch : Int) :
    ch.checkedAdvance r note pitch = pure (ch.advance r note pitch) := by
  unfold checkedAdvance advance
  dsimp only
  generalize (if 0 < ch.duration then ch.duration - 1 else ch.duration) = duration
  cases ch.sample with
  | none => rw [if_pos (.inl (show (-1 : Int) < 0 by decide))]
  | some i =>
    have number : { ch with sample := some i, duration := duration }.sampleNumber = (i : Int) := rfl
    rw [number]
    dsimp only
    split
    case isTrue ended => rw [if_pos (ended.resolve_left (by omega))]
    case isFalse plays =>
      rw [if_neg fun ended => plays (.inr ended), Sample.checkedLoad_eq, pure_bind,
        checkedProgress_eq, pure_bind, Envelope.checkedMap_eq fun l => l.checkedPosition_eq _,
        pure_bind, checkedRegister?_eq _ r i (Sample.positions_load r i _)]
      exact pure_bind _ _

def checkedPlay (ch : Channel) (c : Fin channelCount) (r : Ram) (note pitch : Int) :
    Checked (Channel × Ram) := do
  match ← ch.checkedAdvance r note pitch with
  | (ch, some register) => return (ch, ← register.checkedStore c r)
  | (ch, none) => return (ch, r)

/-- A channel that moves on fails no check. -/
theorem checkedPlay_eq (ch : Channel) (c : Fin channelCount) (r : Ram) (note pitch : Int) :
    ch.checkedPlay c r note pitch = pure (ch.play c r note pitch) := by
  rw [checkedPlay, checkedAdvance_eq, pure_bind, play]
  cases ch.advance r note pitch with
  | mk moved register =>
    cases register with
    | none => rfl
    | some register =>
      dsimp only
      rw [register.checkedStore_eq, pure_bind]

end Channel

end FantasyConsole
