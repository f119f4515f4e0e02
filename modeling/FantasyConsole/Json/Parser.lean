import FantasyConsole.Json.Value

/-!
# Reading JSON

A reader takes the characters that are left and returns a value with the characters after it, or
`none` when the text is not JSON. `Json.parse?` reads a whole document.
-/

namespace FantasyConsole

namespace Json

/-- Skips blanks between tokens. -/
def skipBlanks (cs : List Char) : List Char :=
  cs.dropWhile fun c => c == ' ' || c == '\n' || c == '\t' || c == '\r'

/-! ### Numbers -/

def digitValue (c : Char) : Nat := c.toNat - '0'.toNat

/-- The digits at the beginning of a text. -/
def digits (cs : List Char) : List Char := cs.takeWhile Char.isDigit

/-- The number that digits denote. -/
def digitsValue (cs : List Char) : Nat := cs.foldl (fun n c => 10 * n + digitValue c) 0

/-- The rest of a text after at least one digit. -/
def afterDigits? (cs : List Char) : Option (List Char) :=
  if (digits cs).isEmpty then none else some (cs.dropWhile Char.isDigit)

/-- The rest of a text after a fraction, and whether there was one. -/
def afterFraction? (cs : List Char) : Option (Bool × List Char) :=
  match cs with
  | '.' :: cs => do return (true, ← afterDigits? cs)
  | cs => some (false, cs)

/-- The rest of a text after an exponent, and whether there was one. -/
def afterExponent? (cs : List Char) : Option (Bool × List Char) :=
  match cs with
  | c :: rest =>
    if c = 'e' ∨ c = 'E' then
      match rest with
      | '+' :: rest | '-' :: rest => do return (true, ← afterDigits? rest)
      | rest => do return (true, ← afterDigits? rest)
    else
      some (false, cs)
  | [] => some (false, [])

/-- Reads a number without its sign. A number with more than one digit does not begin with 0. An
integer is a number without fraction and exponent; minus zero is not one. -/
def readNumber? (negative : Bool) (cs : List Char) : Option (Json × List Char) := do
  let whole := digits cs
  let rest ← afterDigits? cs
  if whole.head? = some '0' ∧ 1 < whole.length then
    none
  let (hasFraction, rest) ← afterFraction? rest
  let (hasExponent, rest) ← afterExponent? rest
  let n := digitsValue whole
  if hasFraction || hasExponent || (negative && n == 0) then
    return (.fraction, rest)
  return (.int (if negative then -n else n), rest)

/-! ### Texts -/

/-- What a text is made of: characters, and the halves of surrogate pairs that escapes name. -/
inductive Piece where
  | char (c : Char)
  | half (unit : Nat)

def hexValue? (c : Char) : Option Nat :=
  if '0' ≤ c ∧ c ≤ '9' then some (c.toNat - '0'.toNat)
  else if 'a' ≤ c ∧ c ≤ 'f' then some (c.toNat - 'a'.toNat + 10)
  else if 'A' ≤ c ∧ c ≤ 'F' then some (c.toNat - 'A'.toNat + 10)
  else none

/-- The piece that an escape of four hexadecimal digits names. -/
def unitPiece? (a b c d : Char) : Option Piece := do
  let n := (((← hexValue? a) * 16 + (← hexValue? b)) * 16 + (← hexValue? c)) * 16 + (← hexValue? d)
  return if 0xD800 ≤ n ∧ n ≤ 0xDFFF then .half n else .char (Char.ofNat n)

/-- The character that a short escape names. -/
def escaped? : Char → Option Char
  | '"' => some '"'
  | '\\' => some '\\'
  | '/' => some '/'
  | 'b' => some '\x08'
  | 'f' => some '\x0c'
  | 'n' => some '\n'
  | 'r' => some '\r'
  | 't' => some '\t'
  | _ => none

/-- Reads the pieces of a text up to its closing quote; `acc` holds those read so far, the last one
first. -/
def readPieces? (acc : List Piece) : List Char → Option (List Piece × List Char)
  | '"' :: cs => some (acc.reverse, cs)
  | '\\' :: 'u' :: a :: b :: c :: d :: cs => do readPieces? ((← unitPiece? a b c d) :: acc) cs
  | '\\' :: c :: cs => do readPieces? (.char (← escaped? c) :: acc) cs
  | c :: cs => if c.toNat < 0x20 then none else readPieces? (.char c :: acc) cs
  | [] => none

/-- The character of a surrogate pair. -/
def pairChar (lead trail : Nat) : Char :=
  Char.ofNat (0x10000 + (lead - 0xD800) * 0x400 + (trail - 0xDC00))

/-- Puts pieces together; `none` when half a pair is left over. -/
def joinPieces? (acc : List Char) : List Piece → Option (List Char)
  | [] => some acc.reverse
  | .char c :: ps => joinPieces? (c :: acc) ps
  | .half lead :: .half trail :: ps =>
    if lead < 0xDC00 ∧ 0xDC00 ≤ trail then joinPieces? (pairChar lead trail :: acc) ps else none
  | .half _ :: _ => none

/-- Reads a text whose opening quote has been read. -/
def readText? (cs : List Char) : Option (JsonText × List Char) := do
  let (pieces, rest) ← readPieces? [] cs
  return ((joinPieces? [] pieces).map String.ofList, rest)

/-! ### Values -/

mutual

def readValue? (fuel : Nat) (cs : List Char) : Option (Json × List Char) :=
  match fuel with
  | 0 => none
  | fuel + 1 =>
    match skipBlanks cs with
    | 'n' :: 'u' :: 'l' :: 'l' :: cs => some (.null, cs)
    | 't' :: 'r' :: 'u' :: 'e' :: cs => some (.bool true, cs)
    | 'f' :: 'a' :: 'l' :: 's' :: 'e' :: cs => some (.bool false, cs)
    | '"' :: cs => do
      let (s, cs) ← readText? cs
      return (.str s, cs)
    | '[' :: cs =>
      match skipBlanks cs with
      | ']' :: cs => some (.arr [], cs)
      | cs => readItems? fuel [] cs
    | '\x7b' :: cs =>
      match skipBlanks cs with
      | '\x7d' :: cs => some (.obj [], cs)
      | cs => readMembers? fuel [] cs
    | '-' :: cs => readNumber? true cs
    | cs => readNumber? false cs

/-- Reads the items of an array up to its closing bracket; `acc` holds those read so far. -/
def readItems? (fuel : Nat) (acc : List Json) (cs : List Char) : Option (Json × List Char) :=
  match fuel with
  | 0 => none
  | fuel + 1 => do
    let (item, cs) ← readValue? fuel cs
    match skipBlanks cs with
    | ',' :: cs => readItems? fuel (item :: acc) cs
    | ']' :: cs => return (.arr (item :: acc).reverse, cs)
    | _ => none

/-- Reads the members of an object up to its closing brace; `acc` holds those read so far. -/
def readMembers? (fuel : Nat) (acc : List (JsonText × Json)) (cs : List Char) :
    Option (Json × List Char) :=
  match fuel with
  | 0 => none
  | fuel + 1 =>
    match skipBlanks cs with
    | '"' :: cs => do
      let (name, cs) ← readText? cs
      match skipBlanks cs with
      | ':' :: cs =>
        let (value, cs) ← readValue? fuel cs
        match skipBlanks cs with
        | ',' :: cs => readMembers? fuel ((name, value) :: acc) cs
        | '\x7d' :: cs => return (.obj ((name, value) :: acc).reverse, cs)
        | _ => none
      | _ => none
    | _ => none

end

/-- Reads a document. Every value takes at most two units of fuel for each of its characters. -/
def parse? (text : String) : Option Json := do
  let cs := text.toList
  let (value, rest) ← readValue? (2 * cs.length + 2) cs
  if (skipBlanks rest).isEmpty then return value else none

end Json

end FantasyConsole
