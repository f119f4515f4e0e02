import FantasyConsole.Machine.Basic

/-!
# Saved states

A saved state keeps persistent memory and the id under which it belongs to a program; the cart is
not part of it.
-/

namespace FantasyConsole

namespace Machine

variable {σ : Type}

def persistentWords (m : Machine σ) : List UInt32 :=
  (List.range Layout.persistentSlots).map fun (i : Nat) => m.console.ram.slot i

/-- The saved state as a JSON value. -/
def saveState (m : Machine σ) : Json :=
  .object
    [("system", .text "nibble"),
     ("version", .nat 1),
     ("saveid", .text m.console.saveId),
     ("persistent", .arr (m.persistentWords.map fun w => .nat w.toNat))]

/-- Writes words into the persistent slots, from the first on; words that are left over are
ignored. -/
def restoreWords (m : Machine σ) (words : List UInt32) : Machine σ :=
  m.mapConsole fun c =>
    { c with ram := words.zipIdx.foldl (fun ram (w, i) => ram.setSlot i w) c.ram }

/-- Restores a saved state; `none` when its persistent memory is not a list of words. A value
without persistent memory changes nothing. -/
def loadState? (m : Machine σ) (saved : Json) : Option (Machine σ) :=
  match saved.member? "persistent" with
  | none => some m
  | some persistent => persistent.words?.map m.restoreWords

def supportsSavedStates (_ : Machine σ) : Bool := true

end Machine

end FantasyConsole
