import FantasyConsole.Proofs.Memory.Bits
import Mathlib.Data.Nat.Bitwise

/-!
# Packed memory is one bit array

`peek` and `poke` reach memory through four encodings that share their bytes. Here they are compared
with a plain array of bits, on which reading takes some bits in a row and writing replaces them.

## Main result

`Ram.packed_access`: a `poke` inside memory replaces exactly the bits of its value and a `peek`
returns the number that they form; outside memory neither does anything; and a sequence of both, at
any mixture of widths, gives the answers and leaves the bits that the bit array gives.
-/

namespace FantasyConsole

/-! ### The array -/

/-- An array of as many bits as memory has. -/
structure BitArray where
  bits : Vector Bool Ram.bitCount

namespace BitArray

/-- Bit `k`, `false` beyond the end. -/
def bit (b : BitArray) (k : Nat) : Bool := if h : k < Ram.bitCount then b.bits[k] else false

/-- The number that the `n` bits from `start` form, the lowest first. -/
def read (b : BitArray) (start n : Nat) : Nat := Nat.ofBits fun j : Fin n => b.bit (start + j)

/-- Replaces the `n` bits from `start` by the low bits of a byte. -/
def write (b : BitArray) (start n : Nat) (v : UInt8) : BitArray where
  bits := Vector.ofFn fun k =>
    if start ≤ k ∧ k < start + n then byteBit v (k - start) else b.bits[k]

theorem bit_ext {a b : BitArray} (bits : ∀ k, a.bit k = b.bit k) : a = b := by
  obtain ⟨left⟩ := a
  obtain ⟨right⟩ := b
  congr
  refine Vector.ext fun k h => ?_
  have same := bits k
  simp only [bit, h, ↓reduceDIte] at same
  exact same

theorem bit_write (b : BitArray) {start n : Nat} (inside : start + n ≤ Ram.bitCount) (v : UInt8)
    (k : Nat) :
    (b.write start n v).bit k =
      if start ≤ k ∧ k < start + n then byteBit v (k - start) else b.bit k := by
  by_cases h : k < Ram.bitCount
  · simp only [bit, write, h, ↓reduceDIte, Vector.getElem_ofFn]
    rfl
  · simp only [bit, h, ↓reduceDIte]
    rw [if_neg (by omega)]

/-- Whether the value with index `addr`, counted in values of `w.bits` bits, lies in the array. -/
def Holds (w : Width) (addr : Int) : Prop := 0 ≤ addr ∧ addr < 786432 / w.bits

instance (w : Width) (addr : Int) : Decidable (Holds w addr) :=
  inferInstanceAs (Decidable (_ ∧ _))

end BitArray

/-! ### Sequences of accesses -/

/-- One access to memory. -/
inductive Access where
  | peek (addr : Int) (w : Width)
  | poke (addr : Int) (v : UInt8) (w : Width)
deriving DecidableEq, Repr

/-- Makes accesses to the array: the numbers read, and the array afterwards. -/
def BitArray.run (b : BitArray) : List Access → List Nat × BitArray
  | [] => ([], b)
  | .peek addr w :: rest =>
    let (answers, last) := b.run rest
    ((if Holds w addr then b.read (addr.toNat * w.bits) w.bits else 0) :: answers, last)
  | .poke addr v w :: rest =>
    if Holds w addr then (b.write (addr.toNat * w.bits) w.bits v).run rest else b.run rest

namespace Ram

/-- Makes accesses to memory: the numbers read, and memory afterwards. -/
def run (r : Ram) : List Access → List Nat × Ram
  | [] => ([], r)
  | .peek addr w :: rest =>
    let (answers, last) := r.run rest
    ((r.peek addr w).toNat :: answers, last)
  | .poke addr v w :: rest => (r.poke addr v w).run rest

/-- Memory as an array of bits. -/
def bitArray (r : Ram) : BitArray := ⟨Vector.ofFn fun k => r.bit k⟩

theorem bit_bitArray (r : Ram) (k : Nat) : r.bitArray.bit k = r.bit k := by
  by_cases h : k < bitCount
  · simp only [BitArray.bit, bitArray, h, ↓reduceDIte, Vector.getElem_ofFn]
  · rw [r.bit_of_le (Nat.le_of_not_lt h), BitArray.bit, dif_neg h]

/-! ### One access -/

theorem addressable_iff_holds (w : Width) (addr : Int) :
    Addressable w addr ↔ BitArray.Holds w addr := by
  cases w <;> simp only [Addressable, BitArray.Holds, Width.count, Layout.memorySize, Width.bits] <;>
    omega

theorem byteIndex_lt {w : Width} {addr : Int} (inside : Addressable w addr) :
    w.byteIndex addr.toNat < Layout.memorySize := by
  rw [← addressable_iff, Int.toNat_of_nonneg inside.1]
  exact inside

/-- The bits of a value inside memory are bits of memory. -/
theorem packed_stop_le {w : Width} {addr : Int} (inside : Addressable w addr) :
    addr.toNat * w.bits + w.bits ≤ bitCount := by
  have index := byteIndex_lt inside
  have place := w.byteIndex_mul_add_offset addr.toNat
  have bound := w.offset_add_bits_le addr.toNat
  simp only [bitCount]
  omega

theorem bit_poke (r : Ram) {addr : Int} {w : Width} (inside : Addressable w addr) (v : UInt8)
    (k : Nat) :
    (r.poke addr v w).bit k =
      if addr.toNat * w.bits ≤ k ∧ k < addr.toNat * w.bits + w.bits then
        byteBit v (k - addr.toNat * w.bits)
      else
        r.bit k := by
  rw [poke, if_pos inside, bit_markPacked, bit_setPacked r w (byteIndex_lt inside)]

theorem toNat_peek (r : Ram) {addr : Int} {w : Width} (inside : Addressable w addr) :
    (r.peek addr w).toNat =
      Nat.ofBits fun j : Fin w.bits => r.bit (addr.toNat * w.bits + j) := by
  -- above its width a value has no bits
  rw [peek, if_pos inside]
  refine Nat.eq_of_testBit_eq fun j => ?_
  have packed := r.byteBit_packed w addr.toNat j
  by_cases own : j < w.bits
  · rw [Nat.testBit_ofBits_lt _ _ own]
    rw [decide_eq_true own, Bool.true_and] at packed
    exact packed
  · rw [Nat.testBit_ofBits_ge _ _ (Nat.le_of_not_lt own)]
    rw [decide_eq_false own, Bool.false_and] at packed
    exact packed

theorem peek_outside (r : Ram) {addr : Int} {w : Width} (outside : ¬ Addressable w addr) :
    r.peek addr w = 0 := if_neg outside

theorem poke_outside (r : Ram) {addr : Int} {w : Width} (outside : ¬ Addressable w addr)
    (v : UInt8) : r.poke addr v w = r := if_neg outside

/-! ### Sequences of accesses -/

theorem bitArray_poke (r : Ram) {addr : Int} {w : Width} (inside : Addressable w addr) (v : UInt8) :
    (r.poke addr v w).bitArray = r.bitArray.write (addr.toNat * w.bits) w.bits v := by
  refine BitArray.bit_ext fun k => ?_
  rw [bit_bitArray, bit_poke r inside, BitArray.bit_write _ (packed_stop_le inside), bit_bitArray]

theorem toNat_peek_eq_read (r : Ram) {addr : Int} {w : Width} (inside : Addressable w addr) :
    (r.peek addr w).toNat = r.bitArray.read (addr.toNat * w.bits) w.bits := by
  rw [toNat_peek r inside, BitArray.read]
  simp only [bit_bitArray]

theorem run_bitArray (r : Ram) (accesses : List Access) :
    r.bitArray.run accesses = ((r.run accesses).1, (r.run accesses).2.bitArray) := by
  induction accesses generalizing r with
  | nil => rfl
  | cons access rest ih =>
    cases access with
    | peek addr w =>
      simp only [BitArray.run, run, ih, ← addressable_iff_holds]
      by_cases inside : Addressable w addr
      · rw [if_pos inside, toNat_peek_eq_read r inside]
      · rw [if_neg inside, peek_outside r inside]
        rfl
    | poke addr v w =>
      simp only [BitArray.run, run, ← addressable_iff_holds]
      by_cases inside : Addressable w addr
      · rw [if_pos inside, ← bitArray_poke r inside, ih]
      · rw [if_neg inside, poke_outside r inside, ih]

/-- Packed memory is one array of 786432 bits. A value of `w.bits` bits whose index lies in
`0 ≤ addr < 786432 / w.bits` is the bits from `addr * w.bits` on: writing it replaces these bits by
the low bits of the byte and no other, and reading it gives the number that they form. At any other
index reading gives 0, and writing changes neither memory nor the record of written pixels. So a
sequence of accesses of any widths is one on the array. -/
theorem packed_access (r : Ram) :
    (∀ addr w, if 0 ≤ addr ∧ addr < 786432 / (w.bits : Int) then
      (∀ v k, (r.poke addr v w).bit k =
        if addr.toNat * w.bits ≤ k ∧ k < addr.toNat * w.bits + w.bits then
          byteBit v (k - addr.toNat * w.bits)
        else
          r.bit k) ∧
      (r.peek addr w).toNat =
        Nat.ofBits fun j : Fin w.bits => r.bit (addr.toNat * w.bits + j)
    else
      r.peek addr w = 0 ∧ ∀ v, r.poke addr v w = r) ∧
    ∀ accesses, r.bitArray.run accesses = ((r.run accesses).1, (r.run accesses).2.bitArray) := by
  refine ⟨fun addr w => ?_, run_bitArray r⟩
  split
  case isTrue inside =>
    have inside := (addressable_iff_holds w addr).mpr inside
    exact ⟨bit_poke r inside, toNat_peek r inside⟩
  case isFalse outside =>
    have outside : ¬ Addressable w addr := fun h => outside ((addressable_iff_holds w addr).mp h)
    exact ⟨peek_outside r outside, poke_outside r outside⟩

end Ram

end FantasyConsole
