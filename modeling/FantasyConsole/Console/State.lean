import FantasyConsole.Cart.Section
import FantasyConsole.Draw.Clip
import FantasyConsole.Input.History
import FantasyConsole.Palette
import FantasyConsole.Script.Hooks
import FantasyConsole.Sound.State

/-!
# The state of the console

Besides memory the console remembers how far the program has come, what it may see and draw on, what
plays, and what is not in memory at present: the other bank of video memory and the overlay palette.
-/

namespace FantasyConsole

/-- How far the loaded program has come. -/
inductive Phase where
  | unloaded
  | initializing
  | running
deriving DecidableEq, Repr

/-- The second bank of video memory, which is exchanged with the one in memory. -/
structure VideoBank where
  /-- The bank that is in memory. -/
  current : Fin 2
  /-- The bytes of the other bank. -/
  stash : Vector UInt8 Layout.video.size
deriving DecidableEq

def VideoBank.fresh : VideoBank := ⟨0, Vector.replicate _ 0⟩

/-- The bank that a number names. -/
def VideoBank.ofNumber? (id : Int) : Option (Fin 2) :=
  if id = 0 then some 0 else if id = 1 then some 1 else none

/-- The state of the console besides memory. -/
structure ConsoleState where
  phase : Phase
  /-- Whether the loaded program could not be started. -/
  rejected : Bool
  /-- The interpreter that runs the program. -/
  interpreter : Option Nat
  hooks : HookSet
  devices : Devices
  input : InputHistory
  sound : Sound
  /-- The sections copied since the frame began. -/
  synced : SectionSet
  videoBank : VideoBank
  clip : Clip
  overlayPalette : Vector UInt8 paletteBytes
deriving DecidableEq

/-- The state of a console without a program. -/
def ConsoleState.fresh : ConsoleState where
  phase := .unloaded
  rejected := false
  interpreter := none
  hooks := {}
  devices := .all
  input := .fresh
  sound := .fresh
  synced := .empty
  videoBank := .fresh
  clip := .full
  overlayPalette := Vector.replicate _ 0

end FantasyConsole
