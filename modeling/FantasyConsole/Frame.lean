/-!
# Frames of host pixels

A frame is a rectangle of host pixels, stored row after row. The size is part of its type
invariant: a frame always has `width * height` pixels.
-/

namespace FantasyConsole

structure Frame where
  width : Nat
  height : Nat
  pixels : Vector UInt32 (width * height)

namespace Frame

/-- A frame of the given size, all pixels 0. -/
def blank (width height : Nat) : Frame where
  width := width
  height := height
  pixels := Vector.replicate (width * height) 0

/-- The pixel in column `x` of row `y`, or `none` outside the frame. -/
def pixel? (f : Frame) (x y : Nat) : Option UInt32 :=
  if x < f.width ∧ y < f.height then f.pixels[y * f.width + x]? else none

/-- One row of pixels, or `none` when the pixels of that row do not all exist. -/
def row? (f : Frame) (y : Nat) : Option (Array UInt32) :=
  if y * f.width + f.width ≤ f.width * f.height then
    some (f.pixels.toArray.extract (y * f.width) (y * f.width + f.width))
  else
    none

/-- Replaces one pixel; outside the frame nothing changes. -/
def setPixel (f : Frame) (x y : Nat) (color : UInt32) : Frame :=
  if x < f.width ∧ y < f.height then
    { f with pixels := f.pixels.setIfInBounds (y * f.width + x) color }
  else
    f

/-- Replaces a whole row: column `x` of row `y` becomes `color x`. -/
def setRow (f : Frame) (y : Nat) (color : Nat → UInt32) : Frame :=
  if y < f.height then
    { f with
      pixels := f.width.fold
        (fun x _ pixels => pixels.setIfInBounds (y * f.width + x) (color x)) f.pixels }
  else
    f

/-- The frame itself if it has the given size, else a blank frame of that size. -/
def ensureSize (f : Frame) (width height : Nat) : Frame :=
  if f.width = width ∧ f.height = height then f else blank width height

theorem index_lt {x y width height : Nat} (column : x < width) (line : y < height) :
    y * width + x < width * height := by
  calc y * width + x < y * width + width := by omega
    _ = (y + 1) * width := by rw [Nat.succ_mul]
    _ ≤ height * width := Nat.mul_le_mul_right _ line
    _ = width * height := Nat.mul_comm _ _

theorem pixel?_isSome_iff (f : Frame) (x y : Nat) :
    (f.pixel? x y).isSome ↔ x < f.width ∧ y < f.height := by
  unfold pixel?
  split
  case isTrue inside =>
    simp [inside, Vector.getElem?_eq_getElem (index_lt inside.1 inside.2)]
  case isFalse outside => simp [outside]

end Frame

end FantasyConsole
