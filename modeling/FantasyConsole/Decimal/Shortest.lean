/-!
# The shortest decimal that reads back

A finite floating point number is `mantissa * 2 ^ exponent`. Every real number between the midpoints
to its two neighbours reads back as that number. Among the decimals with the fewest digits that do
so, the nearest one is chosen; of two equally near ones the larger in magnitude.
-/

namespace FantasyConsole

namespace Decimal

/-- A power of two. -/
def twoTo (n : Nat) : Nat := Nat.pow 2 n

/-- A power of ten. -/
def tenTo (n : Nat) : Nat := Nat.pow 10 n

/-- The magnitude of a finite floating point number. -/
structure Binary where
  mantissa : Nat
  exponent : Int
deriving DecidableEq, Repr

/-- A decimal `digits * 10 ^ exponent`. -/
structure Numeral where
  digits : Nat
  exponent : Int
deriving DecidableEq, Repr

namespace Binary

/-- The magnitude in the 64 bits of a floating point number. -/
def ofBits (bits : UInt64) : Binary :=
  let fraction : Nat := bits.toNat % twoTo 52
  let biased : Nat := bits.toNat / twoTo 52 % twoTo 11
  if biased = 0 then ⟨fraction, -1074⟩ else ⟨twoTo 52 + fraction, (biased : Int) - 1075⟩

/-- A multiple of a quarter of the magnitude's last place, as numerator and denominator. -/
def quarters (b : Binary) (n : Nat) : Nat × Nat :=
  if 0 ≤ b.exponent then (n * twoTo b.exponent.toNat, 4) else (n, 4 * twoTo (-b.exponent).toNat)

/-- The lower midpoint, in quarters of the last place. Below a power of two the neighbour is only
half as far away. -/
def lower (b : Binary) : Nat := 4 * b.mantissa - if b.mantissa = twoTo 52 then 1 else 2

/-- The upper midpoint, in quarters of the last place. -/
def upper (b : Binary) : Nat := 4 * b.mantissa + 2

end Binary

/-- Number of decimal digits. -/
def digitCount (n : Nat) : Nat := (Nat.toDigits 10 n).length

/-- The exponent of the first significant digit of a positive fraction. -/
def leadingExponent (num den : Nat) : Int :=
  if den ≤ num then (digitCount (num / den) : Int) - 1
  else -(digitCount ((den + num - 1) / num - 1) : Int)

/-- A fraction as numerator and denominator when measured in units of `10 ^ exponent`. -/
def scale (num den : Nat) (exponent : Int) : Nat × Nat :=
  if 0 ≤ exponent then (num, den * tenTo exponent.toNat) else (num * tenTo (-exponent).toNat, den)

/-- The best decimal on the grid of multiples of `10 ^ exponent`, if one of them reads back. -/
def onGrid? (b : Binary) (exponent : Int) : Option Numeral :=
  let (quarterNum, quarterDen) := b.quarters 1
  -- in units of the grid, four quarters of the last place are `num / den`
  let (num, den) := scale quarterNum quarterDen exponent
  let value := 4 * b.mantissa * num
  let readsBack (d : Nat) : Bool :=
    if b.mantissa % 2 = 0 then b.lower * num ≤ d * den && d * den ≤ b.upper * num
    else b.lower * num < d * den && d * den < b.upper * num
  let below := value / den
  let above := below + 1
  match readsBack below, readsBack above with
  | true, true =>
    some ⟨if value - below * den < above * den - value then below else above, exponent⟩
  | true, false => some ⟨below, exponent⟩
  | false, true => some ⟨above, exponent⟩
  | false, false => none

/-- The shortest decimal that reads back as a positive number. At most 17 digits are needed. -/
def shortest (b : Binary) : Numeral :=
  let (num, den) := b.quarters (4 * b.mantissa)
  let first := leadingExponent num den
  let grids := (List.range 17).map fun (n : Nat) => first - n
  (grids.findSome? (onGrid? b)).getD ⟨b.mantissa, b.exponent⟩

/-- Drops zeros at the end of the digits. -/
def trimZeros (digits : List Char) : List Char := (digits.reverse.dropWhile (· == '0')).reverse

/-- A decimal without an exponent: all of its places are written out. -/
def Numeral.positional (d : Numeral) : String :=
  let digits := Nat.toDigits 10 d.digits
  if 0 ≤ d.exponent then
    String.ofList (digits ++ List.replicate d.exponent.toNat '0')
  else
    let places := (-d.exponent).toNat
    let padded := List.replicate (places + 1 - digits.length) '0' ++ digits
    let whole := padded.take (padded.length - places)
    let fraction := trimZeros (padded.drop (padded.length - places))
    String.ofList (if fraction.isEmpty then whole else whole ++ '.' :: fraction)

/-- The text of a floating point number: the shortest decimal that reads back, all places written
out, a sign also before a negative zero. -/
def floatText (f : Float) : String :=
  if f.isNaN then "NaN"
  else
    let bits := f.toBits
    let magnitude :=
      if f.isInf then "inf"
      else
        let b := Binary.ofBits bits
        if b.mantissa = 0 then "0" else (shortest b).positional
    if bits >>> 63 = 1 then "-" ++ magnitude else magnitude

end Decimal

end FantasyConsole
