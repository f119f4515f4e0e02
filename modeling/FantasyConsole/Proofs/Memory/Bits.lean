import FantasyConsole.Memory.Ram

/-!
# The bits of memory

Memory is one string of bits: bit `8 * i + j` is bit `j` of byte `i`. At every width the value with
packed index `i` consists of the bits from `i * w.bits` up to `(i + 1) * w.bits`, so access at one
width is described without mentioning the bytes that the other widths share with it.
-/

namespace FantasyConsole

/-- Bit `j` of a byte, the lowest bit first. -/
def byteBit (b : UInt8) (j : Nat) : Bool := b.toNat.testBit j

theorem byteBit_eq_getLsbD (b : UInt8) (j : Nat) : byteBit b j = b.toBitVec.getLsbD j := rfl

theorem byteBit_of_le (b : UInt8) {j : Nat} (h : 8 ≤ j) : byteBit b j = false :=
  BitVec.getLsbD_of_ge b.toBitVec j h

theorem byteBit_ext {a b : UInt8} (bits : ∀ j, byteBit a j = byteBit b j) : a = b :=
  UInt8.toNat_inj.mp (Nat.eq_of_testBit_eq bits)

/-- A value of four bits, written into both halves of a byte. -/
theorem byteBit_twice {v : UInt8} (four : ∀ j, 4 ≤ j → byteBit v j = false) {j : Nat} (low : j < 8) :
    byteBit (v ||| (v <<< 4)) j = byteBit v (j % 4) := by
  have shift : (UInt8.toBitVec 4 % 8).toNat = 4 := rfl
  simp only [byteBit_eq_getLsbD, UInt8.toBitVec_or, UInt8.toBitVec_shiftLeft, BitVec.getLsbD_or,
    BitVec.shiftLeft_eq', BitVec.getLsbD_shiftLeft, shift] at four ⊢
  by_cases half : j < 4
  · rw [decide_eq_true half, Nat.mod_eq_of_lt half, Bool.not_true, Bool.and_false, Bool.false_and,
      Bool.or_false]
  · have rest : j % 4 = j - 4 := by omega
    rw [decide_eq_false half, decide_eq_true low, rest, four j (Nat.le_of_not_lt half),
      Bool.not_false, Bool.true_and, Bool.true_and, Bool.false_or]

namespace Width

/-! ### The bits of one packed value -/

/-- The place of the value with packed index `i` in its byte. -/
def offset (w : Width) (i : Nat) : Nat := i % w.perByte * w.bits

theorem offset_add_bits_le (w : Width) (i : Nat) : w.offset i + w.bits ≤ 8 := by
  have place : i % w.perByte + 1 ≤ w.perByte := Nat.mod_lt i w.perByte_pos
  calc w.offset i + w.bits = (i % w.perByte + 1) * w.bits := by rw [offset, Nat.add_one_mul]
    _ ≤ w.perByte * w.bits := Nat.mul_le_mul_right _ place
    _ = 8 := w.perByte_mul_bits

/-- A packed index names its first bit in the string of bits. -/
theorem byteIndex_mul_add_offset (w : Width) (i : Nat) :
    w.byteIndex i * 8 + w.offset i = i * w.bits := by
  rw [byteIndex, offset, ← w.perByte_mul_bits, ← Nat.mul_assoc, ← Nat.add_mul, Nat.div_add_mod']

theorem toNat_shift (w : Width) (i : Nat) : (w.shift i).toNat = w.offset i := by
  have bound := w.offset_add_bits_le i
  simp only [shift, UInt8.toNat_ofNat', offset] at bound ⊢
  omega

theorem byteBit_mask (w : Width) (j : Nat) : byteBit w.mask j = decide (j < w.bits) := by
  cases w
  case one => exact Nat.testBit_two_pow_sub_one 1 j
  case two => exact Nat.testBit_two_pow_sub_one 2 j
  case four => exact Nat.testBit_two_pow_sub_one 4 j
  case eight => exact Nat.testBit_two_pow_sub_one 8 j

private theorem toNat_shift_mod (w : Width) (i : Nat) :
    ((w.shift i).toBitVec % 8).toNat = w.offset i := by
  have bound := w.offset_add_bits_le i
  have positive := w.bits_pos
  have value : (w.shift i).toBitVec.toNat = w.offset i := w.toNat_shift i
  have small : w.offset i < 8 := by omega
  rw [BitVec.toNat_umod, value]
  exact Nat.mod_eq_of_lt small

theorem byteBit_extract (w : Width) (i : Nat) (b : UInt8) (j : Nat) :
    byteBit (w.extract i b) j = (decide (j < w.bits) && byteBit b (w.offset i + j)) := by
  have mask : w.mask.toBitVec.getLsbD j = decide (j < w.bits) := w.byteBit_mask j
  simp only [byteBit_eq_getLsbD, extract, UInt8.toBitVec_and, UInt8.toBitVec_shiftRight,
    BitVec.getLsbD_and, BitVec.ushiftRight_eq', BitVec.getLsbD_ushiftRight, toNat_shift_mod, mask]
  exact Bool.and_comm _ _

theorem byteBit_replace (w : Width) (i : Nat) (b v : UInt8) (j : Nat) :
    byteBit (w.replace i b v) j =
      if w.offset i ≤ j ∧ j < w.offset i + w.bits then byteBit v (j - w.offset i)
      else byteBit b j := by
  have bound := w.offset_add_bits_le i
  have mask : ∀ k, w.mask.toBitVec.getLsbD k = decide (k < w.bits) := w.byteBit_mask
  -- beyond the byte both sides are false, whatever the shifts do there
  by_cases high : 8 ≤ j
  · rw [byteBit_of_le _ high, byteBit_of_le b high, if_neg (by omega)]
  · simp only [byteBit_eq_getLsbD, replace, UInt8.toBitVec_or, UInt8.toBitVec_and,
      UInt8.toBitVec_not, UInt8.toBitVec_shiftLeft, BitVec.getLsbD_or, BitVec.getLsbD_and,
      BitVec.getLsbD_not, BitVec.shiftLeft_eq', BitVec.getLsbD_shiftLeft, toNat_shift_mod, mask]
    grind

end Width

namespace Ram

/-! ### The string of bits -/

/-- Number of bits of memory. -/
abbrev bitCount : Nat := Layout.memorySize * 8

/-- Bit `k` of memory, `false` outside memory. -/
def bit (r : Ram) (k : Nat) : Bool := byteBit (r.byte (k / 8)) (k % 8)

theorem bit_of_le (r : Ram) {k : Nat} (h : bitCount ≤ k) : r.bit k = false := by
  have outside : Layout.memorySize ≤ k / 8 := by simp only [bitCount] at h; omega
  rw [bit, r.byte_of_le outside]
  exact Nat.zero_testBit _

/-- The bits of a byte are bits of memory. -/
theorem byteBit_byte (r : Ram) (i : Nat) {j : Nat} (low : j < 8) :
    byteBit (r.byte i) j = r.bit (8 * i + j) := by
  have place : (8 * i + j) / 8 = i := by omega
  have offset : (8 * i + j) % 8 = j := by omega
  rw [bit, place, offset]

theorem byte_congr {r s : Ram} {i : Nat} (bits : ∀ k, k / 8 = i → r.bit k = s.bit k) :
    r.byte i = s.byte i := by
  refine byteBit_ext fun j => ?_
  by_cases low : j < 8
  · rw [r.byteBit_byte i low, s.byteBit_byte i low]
    exact bits _ (by omega)
  · rw [byteBit_of_le _ (Nat.le_of_not_lt low), byteBit_of_le _ (Nat.le_of_not_lt low)]

theorem ext_bit {r s : Ram} (bits : ∀ k, r.bit k = s.bit k) (dirty : r.dirty = s.dirty) : r = s :=
  ext_byte (fun _ => byte_congr fun k _ => bits k) dirty

/-- The bits of memory that the packed value `i` consists of. -/
theorem mem_packed_iff (w : Width) (i k : Nat) :
    (i * w.bits ≤ k ∧ k < i * w.bits + w.bits) ↔
      w.byteIndex i = k / 8 ∧ w.offset i ≤ k % 8 ∧ k % 8 < w.offset i + w.bits := by
  have place := w.byteIndex_mul_add_offset i
  have bound := w.offset_add_bits_le i
  rw [← place]
  omega

theorem byteBit_packed (r : Ram) (w : Width) (i j : Nat) :
    byteBit (r.packed w i) j = (decide (j < w.bits) && r.bit (i * w.bits + j)) := by
  rw [packed, Width.byteBit_extract]
  by_cases inside : j < w.bits
  · have place := w.byteIndex_mul_add_offset i
    have bound := w.offset_add_bits_le i
    have byte : (i * w.bits + j) / 8 = w.byteIndex i := by omega
    have offset : (i * w.bits + j) % 8 = w.offset i + j := by omega
    rw [bit, byte, offset]
  · rw [decide_eq_false inside, Bool.false_and, Bool.false_and]

theorem byteBit_mapColor_of_le (r : Ram) (color : UInt8) (j : Nat) (high : 4 ≤ j) :
    byteBit (r.mapColor color) j = false := by
  have beyond : ¬ j < Width.four.bits := Nat.not_lt.mpr high
  rw [mapColor, byteBit_packed, decide_eq_false beyond, Bool.false_and]

theorem byteBit_pixel (r : Ram) (p j : Nat) :
    byteBit (r.pixel p) j = (decide (j < 4) && r.bit (4 * p + j)) := by
  rw [pixel, byteBit_packed, Width.bits, Nat.mul_comm]

theorem pixel_congr {r s : Ram} {p : Nat} (bits : ∀ k, k / 4 = p → r.bit k = s.bit k) :
    r.pixel p = s.pixel p := by
  refine byteBit_ext fun j => ?_
  rw [byteBit_pixel, byteBit_pixel]
  by_cases own : j < 4
  · rw [bits (4 * p + j) (by omega)]
  · rw [decide_eq_false own, Bool.false_and, Bool.false_and]

theorem bit_congr {r s : Ram} {p : Nat} (same : r.pixel p = s.pixel p) {k : Nat} (own : k / 4 = p) :
    r.bit k = s.bit k := by
  have place : 4 * p + k % 4 = k := own ▸ Nat.div_add_mod k 4
  have bits := congrArg (byteBit · (k % 4)) same
  simpa only [byteBit_pixel, place, Nat.mod_lt k (show 0 < 4 by decide), decide_true,
    Bool.true_and] using bits

/-- Replacing a packed value is seen in its own bits and in no other. -/
theorem bit_setPacked (r : Ram) (w : Width) {i : Nat} (h : w.byteIndex i < Layout.memorySize)
    (v : UInt8) (k : Nat) :
    (r.setPacked w i v).bit k =
      if i * w.bits ≤ k ∧ k < i * w.bits + w.bits then byteBit v (k - i * w.bits)
      else r.bit k := by
  have place := w.byteIndex_mul_add_offset i
  simp only [bit, setPacked, byte_setByte, mem_packed_iff]
  -- in any other byte there is nothing to show, since a value lies in one byte
  by_cases own : w.byteIndex i = k / 8
  · have inside : k / 8 < Layout.memorySize := own ▸ h
    have offset : k % 8 - w.offset i = k - i * w.bits := by omega
    rw [if_pos ⟨own, inside⟩, Width.byteBit_replace, own, offset]
    simp only [true_and]
  · rw [if_neg (fun both => own both.1), if_neg (fun all => own all.1)]

@[simp] theorem bit_markPacked (r : Ram) (w : Width) (i k : Nat) :
    (r.markPacked w i).bit k = r.bit k := rfl

theorem addressable_iff (w : Width) (i : Nat) :
    Addressable w i ↔ w.byteIndex i < Layout.memorySize := by
  rw [Width.byteIndex_lt_iff, Addressable]
  omega

/-! ### Values and words as bits -/

theorem packed_setPacked_self (r : Ram) (w : Width) {i : Nat}
    (h : w.byteIndex i < Layout.memorySize) (v : UInt8) :
    (r.setPacked w i v).packed w i = v &&& w.mask := by
  refine byteBit_ext fun j => ?_
  have mask : w.mask.toBitVec.getLsbD j = decide (j < w.bits) := w.byteBit_mask j
  rw [byteBit_packed, bit_setPacked r w h, byteBit_eq_getLsbD (v &&& w.mask), UInt8.toBitVec_and,
    BitVec.getLsbD_and, mask, ← byteBit_eq_getLsbD]
  by_cases own : j < w.bits
  · rw [if_pos ⟨Nat.le_add_right _ _, Nat.add_lt_add_left own _⟩, Nat.add_sub_cancel_left]
    exact Bool.and_comm _ _
  · rw [decide_eq_false own, Bool.false_and, Bool.and_false]

theorem packed_setPacked_of_ne (r : Ram) (w : Width) {i j : Nat}
    (h : w.byteIndex i < Layout.memorySize) (ne : j ≠ i) (v : UInt8) :
    (r.setPacked w i v).packed w j = r.packed w j := by
  refine byteBit_ext fun k => ?_
  rw [byteBit_packed, byteBit_packed, bit_setPacked r w h]
  by_cases own : k < w.bits
  · -- values with different indices share no bit
    rw [if_neg]
    rintro ⟨lower, upper⟩
    rcases Nat.lt_or_gt_of_ne ne with before | after
    · have apart : (j + 1) * w.bits ≤ i * w.bits := Nat.mul_le_mul_right _ before
      rw [Nat.add_one_mul] at apart
      omega
    · have apart : (i + 1) * w.bits ≤ j * w.bits := Nat.mul_le_mul_right _ after
      rw [Nat.add_one_mul] at apart
      omega
  · rw [decide_eq_false own, Bool.false_and, Bool.false_and]

/-- A word is 32 bits of memory in a row. -/
theorem testBit_word (r : Ram) (start i : Nat) :
    (r.word start).toNat.testBit i = (decide (i < 32) && r.bit (8 * start + i)) := by
  have place : (8 * start + i) / 8 = start + i / 8 := by omega
  have offset : (8 * start + i) % 8 = i % 8 := by omega
  have high (b : UInt8) {j : Nat} (above : 8 ≤ j) : b.toNat.testBit j = false :=
    byteBit_of_le b above
  rw [bit, place, offset, byteBit]
  simp only [word, UInt32.toNat_or, UInt32.toNat_shiftLeft, UInt8.toNat_toUInt32,
    UInt32.reduceToNat, Nat.reduceMod, Nat.testBit_or, Nat.testBit_mod_two_pow,
    Nat.testBit_shiftLeft]
  -- outside its own eight bits a byte adds nothing, so that one byte of the four is left
  have which : i < 8 ∧ i / 8 = 0 ∧ i % 8 = i ∨ 8 ≤ i ∧ i < 16 ∧ i / 8 = 1 ∧ i % 8 = i - 8 ∨
      16 ≤ i ∧ i < 24 ∧ i / 8 = 2 ∧ i % 8 = i - 16 ∨ 24 ≤ i ∧ i < 32 ∧ i / 8 = 3 ∧ i % 8 = i - 24 ∨
      32 ≤ i := by omega
  rcases which with ⟨upper, own, rest⟩ | ⟨lower, upper, own, rest⟩ | ⟨lower, upper, own, rest⟩ |
    ⟨lower, upper, own, rest⟩ | lower
  · rw [own, rest]
    simp [show i < 32 by omega, show ¬8 ≤ i by omega, show ¬16 ≤ i by omega, show ¬24 ≤ i by omega]
  · rw [own, rest, high _ lower]
    simp [show i < 32 by omega, show 8 ≤ i by omega, show ¬16 ≤ i by omega, show ¬24 ≤ i by omega]
  · rw [own, rest, high _ (show 8 ≤ i by omega), high _ (show 8 ≤ i - 8 by omega)]
    simp [show i < 32 by omega, show 16 ≤ i by omega, show ¬24 ≤ i by omega]
  · rw [own, rest, high _ (show 8 ≤ i by omega), high _ (show 8 ≤ i - 8 by omega),
      high _ (show 8 ≤ i - 16 by omega)]
    simp [show i < 32 by omega, show 24 ≤ i by omega]
  · rw [high _ (show 8 ≤ i by omega)]
    simp [show ¬i < 32 by omega]

/-- The bytes that a word is cut into are those of memory. -/
theorem toUInt8_word_shiftRight (r : Ram) (start : Nat) {place : UInt32} {k : Nat}
    (place_eq : place.toNat = 8 * k) (small : k < 4) :
    (r.word start >>> place).toUInt8 = r.byte (start + k) := by
  refine byteBit_ext fun j => ?_
  by_cases low : j < 8
  · have shift : 8 * k % 32 = 8 * k := Nat.mod_eq_of_lt (by omega)
    have inside : 8 * k + j < 32 := by omega
    have bit : 8 * start + (8 * k + j) = 8 * (start + k) + j := by omega
    rw [r.byteBit_byte _ low, ← bit, byteBit, UInt32.toNat_toUInt8, UInt32.toNat_shiftRight,
      place_eq, shift, Nat.testBit_mod_two_pow _ 8, Nat.testBit_shiftRight, testBit_word,
      decide_eq_true low, decide_eq_true inside, Bool.true_and, Bool.true_and]
  · rw [byteBit_of_le _ (Nat.le_of_not_lt low), byteBit_of_le _ (Nat.le_of_not_lt low)]

end Ram

end FantasyConsole
