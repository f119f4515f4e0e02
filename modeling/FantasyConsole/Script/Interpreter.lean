import FantasyConsole.Guest.Program
import FantasyConsole.Script.Hooks
import FantasyConsole.Script.Metadata

/-!
# Interpreters

An interpreter runs the programs of one scripting language. The interpreters of a console share one
state, of any type; each of their functions is a guest program that takes this state and returns it.
-/

namespace FantasyConsole

/-- Why an interpreter could not start a program. -/
inductive ScriptError where
  | compile (message : String)
  | missingEntry (name : String)
  | failed (message : String)
deriving DecidableEq, Repr

def ScriptError.message : ScriptError → String
  | compile message => message
  | missingEntry name => s!"'{name}' isn't found :("
  | failed message => message

/-- Why a cart could not be started. -/
inductive StartError where
  | emptyCode
  | noInterpreter
  | script (cause : ScriptError)
deriving DecidableEq, Repr

def StartError.message : StartError → String
  | emptyCode => "the code is empty"
  | noInterpreter => "no script runtime registered"
  | script cause => cause.message

/-- A named definition in a program, and the byte where its name begins. -/
structure Definition where
  position : Nat
  name : String
deriving DecidableEq, Repr

/-- An interpreter over a state `σ`. The functions that a program need not define do nothing unless
they are given. -/
structure Interpreter (σ : Type) where
  /-- The names by which a program asks for the interpreter. -/
  names : List String
  /-- What a comment begins with. -/
  comment : String
  /-- Starts a program. -/
  init : String → σ → Guest (Except ScriptError HookSet × σ)
  /-- Ends the program. -/
  close : σ → Guest σ
  /-- Runs one frame of the program. -/
  tick : σ → Guest σ
  /-- Called before a row of the screen is drawn. -/
  scanline : Int → σ → Guest σ := fun _ s => .done s
  /-- Called before a row of the full frame is drawn. -/
  border : Int → σ → Guest σ := fun _ s => .done s
  /-- Called when the frame has been drawn. -/
  overline : σ → Guest σ := .done
  /-- Called when the user chooses from the menu. -/
  menu : Int → σ → Guest σ := fun _ s => .done s
  /-- Evaluates a piece of code in the program. -/
  eval : String → σ → Guest σ := fun _ s => .done s
  /-- The named definitions in a program. -/
  outline : String → List Definition := fun _ => []

namespace Interpreter

variable {σ : Type}

/-- Whether a program asks for the interpreter: its tag, read with the interpreter's own comment, is
one of the interpreter's names. -/
def isNamedBy (interp : Interpreter σ) (code : String) : Bool :=
  (Metadata.tag? code "script" interp.comment).any interp.names.contains

/-- The interpreter for a program: the first that the program asks for, else the first of all.
`none` when there is no interpreter. -/
def select? (interpreters : Array (Interpreter σ)) (code : String) : Option Nat :=
  if interpreters.isEmpty then none
  else some ((interpreters.findIdx? (·.isNamedBy code)).getD 0)

theorem select?_lt {interpreters : Array (Interpreter σ)} {code : String} {i : Nat}
    (found : select? interpreters code = some i) : i < interpreters.size := by
  unfold select? at found
  split at found
  case isTrue => contradiction
  case isFalse nonempty =>
    cases named : interpreters.findIdx? (·.isNamedBy code) with
    | none =>
      simp only [named, Option.getD_none, Option.some.injEq] at found
      simp only [Array.isEmpty_iff_size_eq_zero] at nonempty
      omega
    | some j =>
      simp only [named, Option.getD_some, Option.some.injEq] at found
      subst found
      exact (Array.findIdx?_eq_some_iff_getElem.mp named).1

end Interpreter

end FantasyConsole
