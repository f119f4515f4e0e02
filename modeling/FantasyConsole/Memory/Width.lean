/-!
# Packed bit fields

Memory packs values of 1, 2, 4 or 8 bits into bytes, lowest bits first. Seen as one string of
bits, where bit `8 * i + j` is bit `j` of byte `i`, the value with packed index `i` at width `w`
occupies the bits `i * w, …, i * w + w - 1`.
-/

namespace FantasyConsole

/-- The widths, in bits, at which memory can be addressed. -/
inductive Width where
  | one
  | two
  | four
  | eight
deriving DecidableEq, Repr

namespace Width

/-- Every width, narrowest first. -/
def all : List Width := [one, two, four, eight]

/-- Number of bits of one value. -/
def bits : Width → Nat
  | one => 1
  | two => 2
  | four => 4
  | eight => 8

/-- Number of values in a byte. -/
def perByte : Width → Nat
  | one => 8
  | two => 4
  | four => 2
  | eight => 1

/-- The largest value of this width, all of its bits set. -/
def mask : Width → UInt8
  | one => 0x01
  | two => 0x03
  | four => 0x0F
  | eight => 0xFF

/-- Only 1, 2, 4 and 8 name a width. -/
def ofBits? (n : Int) : Option Width :=
  all.find? fun w => (w.bits : Int) = n

def count (w : Width) (bytes : Nat) : Nat := bytes * 8 / w.bits

/-- The byte that holds the value with packed index `i`. -/
def byteIndex (w : Width) (i : Nat) : Nat := i / w.perByte

/-- How far above the lowest bit of its byte the value with packed index `i` begins. -/
def shift (w : Width) (i : Nat) : UInt8 := UInt8.ofNat (i % w.perByte * w.bits)

/-- The value with packed index `i`, taken out of the byte that holds it. -/
def extract (w : Width) (i : Nat) (byte : UInt8) : UInt8 :=
  (byte >>> w.shift i) &&& w.mask

/-- The byte that holds packed index `i`, with that value replaced by the low bits of `v`. -/
def replace (w : Width) (i : Nat) (byte v : UInt8) : UInt8 :=
  (byte &&& ~~~(w.mask <<< w.shift i)) ||| ((v &&& w.mask) <<< w.shift i)

/-- The value with packed index `i` in a block of bytes, if it lies inside the block. -/
def read? (w : Width) (block : Array UInt8) (i : Nat) : Option UInt8 :=
  (w.extract i ·) <$> block[w.byteIndex i]?

/-- Replaces the value with packed index `i` of a block, if it lies inside the block. -/
def write? (w : Width) (block : Array UInt8) (i : Nat) (v : UInt8) : Option (Array UInt8) :=
  if h : w.byteIndex i < block.size then
    some (block.set (w.byteIndex i) (w.replace i block[w.byteIndex i] v))
  else
    none

/-- The values of a byte fill it. -/
theorem perByte_mul_bits (w : Width) : w.perByte * w.bits = 8 := by
  cases w <;> rfl

theorem perByte_pos (w : Width) : 0 < w.perByte := by
  cases w <;> decide

theorem bits_pos (w : Width) : 0 < w.bits := by
  cases w <;> decide

theorem count_eq (w : Width) (bytes : Nat) : w.count bytes = bytes * w.perByte := by
  rw [count, ← w.perByte_mul_bits, ← Nat.mul_assoc, Nat.mul_div_cancel _ w.bits_pos]

theorem byteIndex_lt_iff (w : Width) (i bytes : Nat) :
    w.byteIndex i < bytes ↔ i < w.count bytes := by
  rw [byteIndex, count_eq, Nat.div_lt_iff_lt_mul w.perByte_pos]

end Width

end FantasyConsole
