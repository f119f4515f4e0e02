import FantasyConsole.Sound.Sequencer

/-!
# The range of channels and music effects

Whatever bytes a program writes into memory, what is decoded from them fits in few bits. This module
says how far the numbers of a channel and of the effects that run on it can go, and that a channel
that is started or moved on stays in these bounds.
-/

namespace FantasyConsole

/-! ### Decoded bytes -/

theorem toNat_and_low (b : UInt8) : (b &&& 0x0F).toNat ≤ 15 := by
  rw [UInt8.toNat_and]
  exact Nat.and_le_right

theorem toNat_shift_high (b : UInt8) : (b >>> 4).toNat ≤ 15 := by
  have bound := b.toNat_lt
  rw [UInt8.toNat_shiftRight]
  simp only [UInt8.reduceToNat, Nat.reduceMod, Nat.shiftRight_eq_div_pow]
  omega

/-- Three bits hold the speeds from -4 to 3. -/
theorem signExtend_three (b : UInt8) : -4 ≤ signExtend 3 b ∧ signExtend 3 b ≤ 3 := by
  have lower := le_two_mul_signExtend 3 b
  have upper := two_mul_signExtend_lt 3 b
  have values : (wordValues 3 : Int) = 8 := by decide
  omega

namespace SampleLoop

theorem position_mem (l : SampleLoop) (start : l.start ≤ 15) (size : l.size ≤ 15) (pos : Int) :
    0 ≤ l.position pos ∧ l.position pos ≤ 29 := by
  unfold position
  split
  · omega
  · split
    · simp only [envelopeTicks]
      omega
    · dsimp only
      split
      · omega
      · have lower := Int.emod_nonneg (pos - (l.start + l.size - 1) - 1)
          (b := (l.size : Int)) (by omega)
        have upper := Int.emod_lt_of_pos (pos - (l.start + l.size - 1) - 1)
          (b := (l.size : Int)) (by omega)
        omega

end SampleLoop

/-- Whether something holds of all parts of an envelope. -/
def Envelope.All {α : Type} (p : α → Prop) (e : Envelope α) : Prop :=
  p e.wave ∧ p e.volume ∧ p e.chord ∧ p e.pitch

theorem Sample.loops_decode (byte : Nat → UInt8) :
    (Sample.decode byte).loops.All fun l => l.start ≤ 15 ∧ l.size ≤ 15 := by
  have each (b : UInt8) : (decodeLoop b).start ≤ 15 ∧ (decodeLoop b).size ≤ 15 :=
    ⟨toNat_and_low b, toNat_shift_high b⟩
  exact ⟨each _, each _, each _, each _⟩

/-! ### Channels -/

namespace Channel

/-- The number of the sample that plays, -1 when the channel is stopped. -/
def sampleNumber (ch : Channel) : Int :=
  match ch.sample with
  | some i => i.val
  | none => -1

/-- How far the numbers of a channel can go. -/
structure InRange (ch : Channel) : Prop where
  sample : -1 ≤ ch.sampleNumber ∧ ch.sampleNumber ≤ 63
  left : ch.left.toNat ≤ 15
  right : ch.right.toNat ≤ 15
  speed : -4 ≤ ch.speed ∧ ch.speed ≤ 3
  tick : -1 ≤ ch.tick
  positions : ch.positions.All fun p => -1 ≤ p ∧ p ≤ 29

theorem sampleNumber_mem (ch : Channel) : -1 ≤ ch.sampleNumber ∧ ch.sampleNumber ≤ 63 := by
  unfold sampleNumber
  split
  case h_1 i _ =>
    have bound := i.isLt
    simp only [sampleCount] at bound
    omega
  case h_2 => omega

theorem neg_one_le_tick (ch : Channel) : -1 ≤ ch.tick := by
  unfold tick
  split <;> omega

/-- A channel that is idle has the bounds of its volumes and its speed. -/
theorem inRange_of_idle {ch : Channel} (idle : ch.progress = none) (left : ch.left.toNat ≤ 15)
    (right : ch.right.toNat ≤ 15) (speed : -4 ≤ ch.speed ∧ ch.speed ≤ 3) : ch.InRange where
  sample := ch.sampleNumber_mem
  left := left
  right := right
  speed := speed
  tick := ch.neg_one_le_tick
  positions := by simp [positions, idle, Envelope.All]

theorem inRange_default : ({} : Channel).InRange :=
  inRange_of_idle rfl (by decide) (by decide) (by decide)

theorem InRange.setVolumes {ch : Channel} (inRange : ch.InRange) {left right : UInt8}
    (leftBound : left.toNat ≤ 15) (rightBound : right.toNat ≤ 15) :
    { ch with left := left, right := right }.InRange where
  sample := inRange.sample
  left := leftBound
  right := rightBound
  speed := inRange.speed
  tick := inRange.tick
  positions := inRange.positions

theorem speed_mem_of_speed? {speed chosen : Int} (found : speed? speed = some chosen) :
    -4 ≤ chosen ∧ chosen ≤ 3 := by
  unfold speed? at found
  split at found
  case isTrue inside => exact Option.some.inj found ▸ inside
  case isFalse => cases found

theorem InRange.start {ch : Channel} (inRange : ch.InRange) (r : Ram)
    (sample : Option (Fin sampleCount)) (note octave duration : Int) {left right : UInt8}
    {speed : Option Int} (leftBound : left.toNat ≤ 15) (rightBound : right.toNat ≤ 15)
    (chosen : ∀ n, speed = some n → -4 ≤ n ∧ n ≤ 3) :
    (ch.start r sample note octave duration left right speed).InRange := by
  refine inRange_of_idle rfl leftBound rightBound ?_
  -- without a sample the speed stays, and a sample has a speed of its own
  cases sample with
  | none => exact inRange.speed
  | some i =>
    cases speed with
    | none => exact signExtend_three _
    | some n => exact chosen n rfl

theorem InRange.advance {ch : Channel} (inRange : ch.InRange) (r : Ram) (note pitch : Int) :
    (ch.advance r note pitch).1.InRange := by
  have idle (duration : Int) : { ch with duration := duration, progress := none }.InRange :=
    inRange_of_idle rfl inRange.left inRange.right inRange.speed
  unfold Channel.advance
  dsimp only
  generalize (if 0 < ch.duration then ch.duration - 1 else ch.duration) = duration
  split
  case h_1 => exact idle duration
  case h_2 i _ =>
    split
    · exact idle duration
    · refine ⟨sampleNumber_mem _, inRange.left, inRange.right, inRange.speed, neg_one_le_tick _, ?_⟩
      have loops := Sample.loops_decode fun k =>
        r.byte (Layout.samples.offset + i * sampleBytes + k)
      have each (l : SampleLoop) (bounds : l.start ≤ 15 ∧ l.size ≤ 15) (pos : Int) :
          -1 ≤ l.position pos ∧ l.position pos ≤ 29 := by
        have inside := l.position_mem bounds.1 bounds.2 pos
        omega
      exact ⟨each _ loops.1 _, each _ loops.2.1 _, each _ loops.2.2.1 _, each _ loops.2.2.2 _⟩

theorem play_fst (ch : Channel) (c : Fin channelCount) (r : Ram) (note pitch : Int) :
    (ch.play c r note pitch).1 = (ch.advance r note pitch).1 := by
  unfold play
  obtain ⟨moved, register⟩ := ch.advance r note pitch
  cases register <;> rfl

theorem InRange.play {ch : Channel} (inRange : ch.InRange) (c : Fin channelCount) (r : Ram)
    (note pitch : Int) : (ch.play c r note pitch).1.InRange := by
  rw [play_fst]
  exact inRange.advance r note pitch

end Channel

end FantasyConsole
