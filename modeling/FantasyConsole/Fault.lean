/-!
# Faults

A fault ends a run: the console was asked for something that does not exist, and has no answer.
-/

namespace FantasyConsole

inductive Fault where
  /-- A cart bank that no cart has. -/
  | bankOutOfRange (bank : Nat)
  /-- The sequencer reached a row that lies in no pattern. -/
  | rowOutOfRange (pattern : Nat) (row : Int)
deriving DecidableEq, Repr

/-- What a fault says of itself, if anything. -/
def Fault.message? : Fault → Option String
  | .bankOutOfRange bank => some s!"bank index {bank} out of range"
  | .rowOutOfRange _ _ => none

end FantasyConsole
