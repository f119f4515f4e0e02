import FantasyConsole.Console.Basic
import FantasyConsole.Frame

/-!
# Drawing a frame

A frame is composed row by row from video memory, so that hooks can change palette, border colour
and scroll offset between rows. Afterwards an overlay hook may draw on top of the finished frame
with a palette of its own: what it draws is composed into the frame, and the screen is then put back
as it was.
-/

namespace FantasyConsole

namespace Raster

/-- The hooks of one frame, functions on the console and a state `σ` of their own. -/
structure Hooks (σ : Type) where
  scanline : Option (Int → σ × Console → σ × Console) := none
  border : Option (Int → σ × Console → σ × Console) := none
  overline : Option (σ × Console → σ × Console) := none

/-- The index that is shown at `pos` when a range of `size` values is scrolled by `offset`. -/
def sourceIndex (pos : Nat) (offset : Int) (size : Nat) : Nat :=
  (((pos : Int) + offset) % size).toNat

/-- The palette in memory, as host pixels. -/
def palette (c : Console) : HostPalette :=
  .ofBytes c.config.pixelFormat (c.ram.region Layout.palette).toArray

/-- Whether a row of the full frame shows part of the screen. -/
def IsVisible (row : Nat) : Prop := Screen.top ≤ row ∧ row < Screen.top + Screen.height

instance (row : Nat) : Decidable (IsVisible row) := inferInstanceAs (Decidable (_ ∧ _))

/-- What one row of the full frame is composed from. -/
structure RowSource where
  ram : Ram
  palette : HostPalette
  border : UInt32
  /-- The first pixel of the row of the screen that is shown; `none` in the margin. -/
  firstPixel : Option Nat
  scrollX : Int

/-- The source of a row, as the console describes it at this moment. -/
def RowSource.of (c : Console) (row : Nat) : RowSource :=
  let palette := Raster.palette c
  { ram := c.ram
    palette := palette
    border := palette.color c.ram.borderColor.toNat
    firstPixel :=
      if IsVisible row then
        some (sourceIndex (row - Screen.top) c.ram.scrollY Screen.height * Screen.width)
      else
        none
    scrollX := c.ram.scrollX }

/-- The host pixel in a column of a row. -/
def RowSource.color (s : RowSource) (column : Nat) : UInt32 :=
  match s.firstPixel with
  | none => s.border
  | some first =>
    if Screen.left ≤ column ∧ column < Screen.left + Screen.width then
      let x := sourceIndex (column - Screen.left) s.scrollX Screen.width
      s.palette.color (s.ram.pixel (first + x)).toNat
    else
      s.border

def callHook {α : Type} (hook : Option (α → α)) (s : α) : α :=
  match hook with
  | some f => f s
  | none => s

/-- Draws one row: the border hook comes first, then the hook of the row of the screen. -/
def drawRow {σ : Type} (hooks : Hooks σ) (row : Nat) (s : (σ × Console) × Frame) :
    (σ × Console) × Frame :=
  let (s, frame) := s
  let s := callHook (hooks.border.map (· row)) s
  let s :=
    -- the hook of the first row of the screen was called before the frame
    if IsVisible row ∧ Screen.top < row then
      callHook (hooks.scanline.map (· (row - Screen.top : Nat))) s
    else
      s
  let source := RowSource.of s.2 row
  (s, frame.setRow row source.color)

/-- Prepares the overlay: its palette is put into memory and nothing is marked. -/
def prepareOverlay (c : Console) : Console :=
  let overlay := c.state.overlayPalette
  -- a palette of zeros stands for the palette of the screen
  let palette := if overlay.all (· == 0) then c.ram.region Layout.palette else overlay
  { c with ram := (c.ram.setRegion Layout.palette palette).clearDirty }

/-- Composes the marked pixels into the frame. -/
def composeDirty (c : Console) (frame : Frame) : Frame :=
  let palette := Raster.palette c
  c.ram.dirty.toList.foldl
    (fun frame p =>
      frame.setPixel (p % Screen.width + Screen.left) (p / Screen.width + Screen.top)
        (palette.color (c.ram.pixel p).toNat))
    frame

/-- Ends the overlay: its palette is kept for the next frame, and the screen and its palette are as
they were. -/
def finishOverlay (screen : Vector UInt8 Layout.screen.size)
    (palette : Vector UInt8 Layout.palette.size) (c : Console) : Console :=
  let overlay := c.ram.region Layout.palette
  let ram := c.ram.setRegion Layout.palette palette
  let ram := ram.setRegion Layout.screen screen
  { c with ram := ram.clearDirty, state.overlayPalette := overlay }

/-- Runs the overlay hook and composes what it drew into the frame. -/
def drawOverlay {σ : Type} (hook : σ × Console → σ × Console) (s : (σ × Console) × Frame) :
    (σ × Console) × Frame :=
  let ((guest, c), frame) := s
  let palette := c.ram.region Layout.palette
  let screen := c.ram.region Layout.screen
  let (guest, c) := hook (guest, prepareOverlay c)
  let frame := composeDirty c frame
  let c := c.log .raster .trace s!"overlay recomposited {c.ram.dirty.count} pixels"
  ((guest, finishOverlay screen palette c), frame)

/-- Draws a frame. A frame of another size is replaced first. -/
def draw {σ : Type} (hooks : Hooks σ) (guest : σ) (c : Console) (frame : Frame) :
    (σ × Console) × Frame :=
  let frame := frame.ensureSize Screen.fullWidth Screen.fullHeight
  let s := callHook (hooks.scanline.map (· 0)) (guest, c)
  let s := Screen.fullHeight.fold (fun row _ s => drawRow hooks row s) (s, frame)
  match hooks.overline with
  | some hook => drawOverlay hook s
  | none => s

end Raster

end FantasyConsole
