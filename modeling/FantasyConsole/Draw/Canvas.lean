import FantasyConsole.Draw.Line
import FantasyConsole.Memory.Ram

/-!
# Drawing on the screen

A canvas is memory together with the clip that is in force. Colours are mapped before they are
stored, and every pixel is written through `Ram.setPixel` or `Ram.fill?`, so it is marked.
-/

namespace FantasyConsole

structure Canvas where
  ram : Ram
  clip : Clip

namespace Canvas

/-- The index of the screen pixel in column `x` of row `y`. -/
def pixelIndex (x y : Int) : Nat := y.toNat * Screen.width + x.toNat

/-- Writes one pixel, if it is inside the clip. -/
def put (c : Canvas) (x y : Int) (color : UInt8) : Canvas :=
  if c.clip.Contains x y then { c with ram := c.ram.setPixel (pixelIndex x y) color } else c

/-- Writes the pixels of a rectangle that are inside the clip. -/
def fill (c : Canvas) (x y width height : Int) (color : UInt8) : Canvas :=
  let left := max x c.clip.left
  let top := max y c.clip.top
  let right := min (saturate32 (x + width)) c.clip.right
  let bottom := min (saturate32 (y + height)) c.clip.bottom
  { c with
    ram := (bottom - top).toNat.fold
      (fun j _ ram => (right - left).toNat.fold
        (fun i _ ram => ram.setPixel (pixelIndex (left + i) (top + j)) color) ram) c.ram }

/-- Fills the clip area. -/
def clear (c : Canvas) (color : UInt8) : Canvas :=
  let color := c.ram.mapColor color
  if c.clip = .full then
    match c.ram.fill? Layout.screen.offset (color ||| (color <<< 4)) Layout.screen.size with
    | some ram => { c with ram := ram }
    | none => c
  else
    c.fill c.clip.left c.clip.top (c.clip.right - c.clip.left) (c.clip.bottom - c.clip.top) color

/-- Writes one pixel. -/
def setPixel (c : Canvas) (x y : Int) (color : UInt8) : Canvas :=
  let color := c.ram.mapColor color
  c.put x y color

/-- The colour index of a screen pixel, 0 outside the screen; the clip plays no part. -/
def getPixel (c : Canvas) (x y : Int) : UInt8 :=
  if 0 ≤ x ∧ 0 ≤ y ∧ x < Screen.width ∧ y < Screen.height then
    c.ram.pixel (pixelIndex x y)
  else
    0

/-- Fills a rectangle. -/
def rect (c : Canvas) (x y width height : Int) (color : UInt8) : Canvas :=
  let color := c.ram.mapColor color
  c.fill x y width height color

/-- Draws the outline of a rectangle, one pixel wide; nothing if the rectangle is empty. The far
edges are computed in 32 bits. -/
def outline (c : Canvas) (x y width height : Int) (color : UInt8) : Canvas :=
  if width ≤ 0 ∨ height ≤ 0 then
    c
  else
    let color := c.ram.mapColor color
    let c := c.fill x y width 1 color
    let c := c.fill x (wrap32 (y + height - 1)) width 1 color
    let c := c.fill x y 1 height color
    c.fill (wrap32 (x + width - 1)) y 1 height color

/-- Draws a line: the part inside the clip, its ends rounded to pixels, is walked from end to
end. -/
def line (c : Canvas) (s : Segment) (color : UInt8) : Canvas :=
  let color := c.ram.mapColor color
  match s.clip? Float c.clip with
  | none => c
  | some s => s.points.foldl (fun c p => c.put p.x p.y color) c

end Canvas

end FantasyConsole
