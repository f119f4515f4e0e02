/-!
# Integers in fixed-width words

Unbounded integers stand for the console's bytes and 32-bit words. This module says how a word is
read as a signed number, how an integer is cut down to a word, and how it is brought into the range
of a word when it has to saturate.
-/

namespace FantasyConsole

def wordValues (bits : Nat) : Nat := 1 <<< bits

/-- Reads the low `bits` bits of `value` as a signed number. -/
def signExtend (bits : Nat) (value : UInt8) : Int :=
  Int.bmod value.toNat (wordValues bits)

/-- The byte that stands for `n`, reduced modulo 256. -/
def byteOfInt (n : Int) : UInt8 := UInt8.ofNat (n % 256).toNat

/-- The 32-bit word that stands for `n`, reduced modulo 4294967296. -/
def wordOfInt (n : Int) : UInt32 := UInt32.ofNat (n % 4294967296).toNat

def signedByte (b : UInt8) : Int := signExtend 8 b

/-- The two's complement reading of `n` in 32 bits: arithmetic that leaves the range wraps. -/
def wrap32 (n : Int) : Int := Int.bmod n 4294967296

/-- The smallest 32-bit signed integer. -/
def minInt32 : Int := -2147483648

/-- The largest 32-bit signed integer. -/
def maxInt32 : Int := 2147483647

/-- Whether `n` is a 32-bit signed integer. -/
def IsInt32 (n : Int) : Prop := minInt32 ≤ n ∧ n ≤ maxInt32

instance (n : Int) : Decidable (IsInt32 n) := inferInstanceAs (Decidable (_ ∧ _))

/-- The point of the interval from `lo` to `hi` that is nearest to `n`. -/
def clampInt (lo hi n : Int) : Int := max lo (min hi n)

/-- The nearest 32-bit signed integer. -/
def saturate32 (n : Int) : Int := clampInt minInt32 maxInt32 n

theorem wrap32_eq_self {n : Int} (lower : minInt32 ≤ n) (upper : n ≤ maxInt32) :
    wrap32 n = n := by
  simp only [minInt32, maxInt32] at lower upper
  exact Int.bmod_eq_of_le (by omega) (by omega)

theorem saturate32_eq_self {n : Int} (lower : minInt32 ≤ n) (upper : n ≤ maxInt32) :
    saturate32 n = n := by
  simp only [saturate32, clampInt, minInt32, maxInt32] at *
  omega

theorem isInt32_saturate32 (n : Int) : IsInt32 (saturate32 n) := by
  simp only [IsInt32, saturate32, clampInt, minInt32, maxInt32]
  omega

theorem wordValues_pos (bits : Nat) : 0 < wordValues bits := by
  rw [wordValues, Nat.shiftLeft_eq]
  exact Nat.mul_pos Nat.one_pos (Nat.two_pow_pos bits)

/-- A signed reading is less than half of the values of the word. -/
theorem two_mul_signExtend_lt (bits : Nat) (value : UInt8) :
    2 * signExtend bits value < wordValues bits := by
  have upper := @Int.bmod_lt value.toNat (wordValues bits) (wordValues_pos bits)
  rw [signExtend]
  omega

/-- A signed reading is at least minus half of the values of the word. -/
theorem le_two_mul_signExtend (bits : Nat) (value : UInt8) :
    -(wordValues bits : Int) ≤ 2 * signExtend bits value := by
  have lower := @Int.le_bmod value.toNat (wordValues bits) (wordValues_pos bits)
  rw [signExtend]
  omega

/-- A flag is set in a number that has the bit at its place. -/
theorem and_one_shiftLeft_bne_zero (n bit : Nat) : (n &&& 1 <<< bit != 0) = n.testBit bit := by
  rw [Nat.one_shiftLeft]
  cases set : n.testBit bit with
  | false =>
    refine bne_eq_false_iff_eq.mpr (Nat.eq_of_testBit_eq fun j => ?_)
    rw [Nat.testBit_and, Nat.testBit_two_pow, Nat.zero_testBit]
    by_cases own : bit = j
    · rw [← own, set, Bool.false_and]
    · rw [decide_eq_false own, Bool.and_false]
  | true =>
    refine bne_iff_ne.mpr fun zero => ?_
    have here := congrArg (·.testBit bit) zero
    simp only [Nat.testBit_and, set, Nat.testBit_two_pow_self, Nat.zero_testBit] at here
    cases here

end FantasyConsole
