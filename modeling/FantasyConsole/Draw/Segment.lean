import FantasyConsole.Draw.Clip

/-!
# Clipping a segment

A segment is cut down to the part whose points lie between the first and the last pixel of the clip
on both axes. Its points are `a + t * (b - a)` for `0 ≤ t ≤ 1`; each of the four edges of the clip
raises the lower bound of `t` or lowers the upper one, and the ends of what remains are rounded to
pixels.

The computation is stated for any kind of number that offers the operations it uses. Floating point
numbers are what the console computes with; fractions compute the same without rounding errors.
-/

namespace FantasyConsole

/-- A pixel, on the screen or beyond it. -/
structure Point where
  x : Int
  y : Int
deriving DecidableEq, Repr

structure Segment where
  start : Point
  stop : Point
deriving DecidableEq, Repr

/-- Numbers in which a segment can be clipped. -/
class Coordinate (α : Type) extends Add α, Sub α, Mul α, Div α, Neg α where
  ofInt : Int → α
  isZero : α → Bool
  isNegative : α → Bool
  less : α → α → Bool
  /-- The nearest 32-bit integer; a half goes away from zero. -/
  round : α → Int

instance : Coordinate Float where
  ofInt := Float.ofInt
  isZero a := a == 0.0
  isNegative a := a < 0.0
  less a b := a < b
  round a := a.round.toInt32.toInt

instance : Coordinate Rat where
  ofInt n := (n : Rat)
  isZero a := a = 0
  isNegative a := a < 0
  less a b := a < b
  round a := saturate32 (if a < 0 then -(-a + 1 / 2).floor else (a + 1 / 2).floor)

namespace Segment

variable {α : Type} [Coordinate α]

/-- The part of a segment between two values of the parameter. -/
structure Range (α : Type) where
  enter : α
  leave : α

/-- One edge of the clip: the points with `t * p ≤ q` lie on its inner side. -/
structure Edge (α : Type) where
  p : α
  q : α

/-- Cuts a range at one edge; `none` when nothing remains. -/
def Range.cut? (range : Range α) (edge : Edge α) : Option (Range α) :=
  if Coordinate.isZero edge.p then
    if Coordinate.isNegative edge.q then none else some range
  else
    let t := edge.q / edge.p
    let range :=
      if Coordinate.isNegative edge.p then
        { range with enter := if Coordinate.less range.enter t then t else range.enter }
      else
        { range with leave := if Coordinate.less t range.leave then t else range.leave }
    if Coordinate.less range.leave range.enter then none else some range

/-- The four edges of a clip as a segment meets them: left, right, top, bottom. -/
def edges (s : Segment) (c : Clip) : List (Edge α) :=
  let x : α := Coordinate.ofInt s.start.x
  let y : α := Coordinate.ofInt s.start.y
  let dx := Coordinate.ofInt s.stop.x - x
  let dy := Coordinate.ofInt s.stop.y - y
  [⟨-dx, x - Coordinate.ofInt c.left⟩,
   ⟨dx, Coordinate.ofInt (c.right - 1) - x⟩,
   ⟨-dy, y - Coordinate.ofInt c.top⟩,
   ⟨dy, Coordinate.ofInt (c.bottom - 1) - y⟩]

/-- The pixel nearest to the point of the segment with parameter `t`. -/
def pixelAt (s : Segment) (t : α) : Point :=
  let x : α := Coordinate.ofInt s.start.x
  let y : α := Coordinate.ofInt s.start.y
  let dx := Coordinate.ofInt s.stop.x - x
  let dy := Coordinate.ofInt s.stop.y - y
  ⟨Coordinate.round (x + t * dx), Coordinate.round (y + t * dy)⟩

variable (α) in
/-- The part of a segment inside a clip, its ends rounded to pixels; `none` when no point is
inside. -/
def clip? (s : Segment) (c : Clip) : Option Segment :=
  if c.IsEmpty then
    none
  else do
    let whole : Range α := ⟨Coordinate.ofInt 0, Coordinate.ofInt 1⟩
    let range ← (s.edges c).foldlM Range.cut? whole
    return ⟨s.pixelAt range.enter, s.pixelAt range.leave⟩

end Segment

end FantasyConsole
