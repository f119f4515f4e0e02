import FantasyConsole.Decimal.Shortest

/-!
# Guest values

The values that pass between the console and a guest program, whatever language it is written in.
Integers have 64 bits; the console computes with them as unbounded integers and cuts a result down
only where it is stored.
-/

namespace FantasyConsole

inductive Value where
  | nil
  | bool (b : Bool)
  | int (n : Int)
  | num (f : Float)
  | str (s : String)
  | list (items : List Value)
deriving Repr, Inhabited

namespace Value

/-- The value as an integer: a number loses its fraction and is brought into the range of 64 bits,
and a boolean counts as 0 or 1. -/
def toInt? : Value → Option Int
  | int n => some n
  | num f => some f.toInt64.toInt
  | bool b => some (if b then 1 else 0)
  | _ => none

/-- Whether the value counts as true: only nil and false do not. -/
def isTruthy : Value → Bool
  | nil | bool false => false
  | _ => true

mutual

def text : Value → String
  | nil => "nil"
  | bool b => toString b
  | int n => toString n
  | num f => Decimal.floatText f
  | str s => s
  | list items => "[" ++ textItems true items ++ "]"

def textItems (first : Bool) : List Value → String
  | [] => ""
  | item :: items => (if first then "" else ", ") ++ text item ++ textItems false items

end

end Value

end FantasyConsole
