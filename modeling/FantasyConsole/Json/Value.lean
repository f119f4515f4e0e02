/-!
# JSON values

Integers are kept apart from all other numbers. A text may contain an escape that stands for half a
surrogate pair: the document is well formed then, but the text denotes no string.
-/

namespace FantasyConsole

/-- The string that a JSON text denotes, `none` for a text with half a surrogate pair. -/
abbrev JsonText : Type := Option String

inductive Json where
  | null
  | bool (b : Bool)
  /-- A number written without fraction and exponent. -/
  | int (n : Int)
  /-- Any other number; its value plays no part. -/
  | fraction
  | str (s : JsonText)
  | arr (items : List Json)
  /-- The members in the order in which they are written. -/
  | obj (members : List (JsonText × Json))
deriving Repr, BEq, Inhabited

namespace Json

/-- A text that denotes a string. -/
def text (s : String) : Json := .str (some s)

/-- An object whose names are strings. -/
def object (members : List (String × Json)) : Json :=
  .obj (members.map fun (name, value) => (some name, value))

/-- A natural number. -/
def nat (n : Nat) : Json := .int n

/-- The value of the last member with a name. -/
def member? (j : Json) (name : String) : Option Json :=
  match j with
  | .obj members => (members.reverse.find? (·.1 == some name)).map (·.2)
  | _ => none

/-- The number, if it is an integer from 0 to 4294967295. -/
def word? : Json → Option UInt32
  | .int n => if 0 ≤ n ∧ n < 4294967296 then some (UInt32.ofNat n.toNat) else none
  | _ => none

/-- The words of an array that holds nothing else. -/
def words? : Json → Option (List UInt32)
  | .arr items => items.mapM word?
  | _ => none

end Json

end FantasyConsole
