import FantasyConsole.Memory.Layout
import FantasyConsole.Word

/-!
# The drawing clip

Drawing is confined to a rectangle of screen pixels, given by its edges: the columns
`left ≤ x < right` and the rows `top ≤ y < bottom`.
-/

namespace FantasyConsole

structure Clip where
  left : Int
  top : Int
  right : Int
  bottom : Int
deriving DecidableEq, Repr

namespace Clip

/-- The whole screen. -/
def full : Clip := ⟨0, 0, Screen.width, Screen.height⟩

/-- The part of a rectangle that lies on the screen. A far edge beyond the 32-bit range
saturates. -/
def ofRect (x y width height : Int) : Clip where
  left := max x 0
  top := max y 0
  right := min (saturate32 (x + width)) Screen.width
  bottom := min (saturate32 (y + height)) Screen.height

/-- Whether a pixel lies inside. -/
def Contains (c : Clip) (x y : Int) : Prop :=
  c.left ≤ x ∧ c.top ≤ y ∧ x < c.right ∧ y < c.bottom

instance (c : Clip) (x y : Int) : Decidable (c.Contains x y) :=
  inferInstanceAs (Decidable (_ ∧ _ ∧ _ ∧ _))

/-- Whether no pixel lies inside. -/
def IsEmpty (c : Clip) : Prop := c.right ≤ c.left ∨ c.bottom ≤ c.top

instance (c : Clip) : Decidable c.IsEmpty := inferInstanceAs (Decidable (_ ∨ _))

/-- Whether every pixel inside is a pixel of the screen. -/
def OnScreen (c : Clip) : Prop :=
  0 ≤ c.left ∧ 0 ≤ c.top ∧ c.right ≤ Screen.width ∧ c.bottom ≤ Screen.height

theorem onScreen_full : full.OnScreen := by
  simp [OnScreen, full]

theorem onScreen_ofRect (x y width height : Int) : (ofRect x y width height).OnScreen := by
  simp only [OnScreen, ofRect]
  omega

/-- A clip on the screen whose sides are 32-bit integers. The sides of an empty clip may be
negative. -/
structure Measured (c : Clip) : Prop where
  onScreen : c.OnScreen
  width : IsInt32 (c.right - c.left)
  height : IsInt32 (c.bottom - c.top)

theorem measured_full : full.Measured := ⟨onScreen_full, by decide, by decide⟩

/-- The near edge of a rectangle and what is left of its side, on a screen of some size. -/
private theorem isInt32_side {start length size : Int} (starts : IsInt32 start)
    (long : IsInt32 length) (screen : 0 ≤ size ∧ size ≤ maxInt32) :
    IsInt32 (min (saturate32 (start + length)) size - max start 0) := by
  simp only [IsInt32, saturate32, clampInt, minInt32, maxInt32] at *
  omega

theorem measured_ofRect {x y width height : Int} (column : IsInt32 x) (row : IsInt32 y)
    (wide : IsInt32 width) (high : IsInt32 height) : (ofRect x y width height).Measured where
  onScreen := onScreen_ofRect x y width height
  width := isInt32_side column wide (by decide)
  height := isInt32_side row high (by decide)

end Clip

end FantasyConsole
