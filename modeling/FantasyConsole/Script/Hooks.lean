/-!
# Hooks

Besides its frame function a program may define functions that are called while a frame is drawn or
when the user chooses from the menu.
-/

namespace FantasyConsole

/-- The hooks that a program defines. -/
structure HookSet where
  scanline : Bool := false
  border : Bool := false
  overline : Bool := false
  menu : Bool := false
deriving DecidableEq, Repr

/-- The hooks as they appear in the log. -/
def HookSet.describe (h : HookSet) : String :=
  "HookSet \x7b scanline: " ++ toString h.scanline ++ ", border: " ++ toString h.border
    ++ ", overline: " ++ toString h.overline ++ ", menu: " ++ toString h.menu ++ " \x7d"

end FantasyConsole
