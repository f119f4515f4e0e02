import FantasyConsole.Proofs.Raster.Pixels
import FantasyConsole.Raster
import Mathlib.Logic.ExistsUnique

/-!
# The rows of a frame

A frame is drawn row by row, and between two rows the hooks may change everything that rows are
composed from. So a row shows the console as it is right after the hooks of that row.

## Main result

`Raster.draw_row_by_row`: the hooks are called in a fixed order, those that are not there left out; each
row of the frame is composed from the console that the hooks up to that row leave, scrolled within
the screen and surrounded by the border; and what was in the frame before does not matter. Without
hooks the console stays as it is and every pixel of the screen is shown once.

## Proof strategy

A row is one step on the console, the calls of its hooks, and one step on the frame. By induction on
the rows, the console has gone through the calls of all rows before, and each row that has been drawn
keeps the colours of its own moment.
-/

namespace FantasyConsole

namespace Raster

variable {σ : Type}

/-! ### The calls of hooks -/

/-- A call of a hook before a row is drawn. -/
inductive HookCall where
  | scanline (row : Int)
  | border (row : Int)
deriving DecidableEq, Repr

/-- The calls before row `row` of the full frame. -/
def rowCalls (row : Nat) : List HookCall :=
  .border row ::
    if Screen.top < row ∧ row < Screen.top + Screen.height then [.scanline (row - Screen.top : Nat)]
    else []

/-- The calls before the rows are drawn, and then before each of the first `rows` rows. -/
def callsBefore (rows : Nat) : List HookCall :=
  .scanline 0 :: (List.range rows).flatMap rowCalls

theorem callsBefore_succ (rows : Nat) : callsBefore (rows + 1) = callsBefore rows ++ rowCalls rows := by
  simp only [callsBefore, List.range_succ, List.flatMap_append, List.flatMap_singleton,
    List.cons_append]

namespace Hooks

/-- Whether the hook of a call is there. -/
def binds (hooks : Hooks σ) : HookCall → Bool
  | .scanline _ => hooks.scanline.isSome
  | .border _ => hooks.border.isSome

/-- Makes a call, if its hook is there. -/
def call (hooks : Hooks σ) : HookCall → σ × Console → σ × Console
  | .scanline row => callHook (hooks.scanline.map (· row))
  | .border row => callHook (hooks.border.map (· row))

/-- Makes calls one after another. -/
def callAll (hooks : Hooks σ) (calls : List HookCall) (s : σ × Console) : σ × Console :=
  calls.foldl (fun s call => hooks.call call s) s

/-- The hooks without the one that draws over the finished frame. -/
def ofRows (hooks : Hooks σ) : Hooks σ := { hooks with overline := none }

/-- The hooks that are called before rows, made to write down each call. -/
def traced (hooks : Hooks σ) : Hooks (σ × List HookCall) where
  scanline := hooks.scanline.map fun f row s =>
    (((f row (s.1.1, s.2)).1, s.1.2 ++ [.scanline row]), (f row (s.1.1, s.2)).2)
  border := hooks.border.map fun f row s =>
    (((f row (s.1.1, s.2)).1, s.1.2 ++ [.border row]), (f row (s.1.1, s.2)).2)

theorem callAll_append (hooks : Hooks σ) (first second : List HookCall) (s : σ × Console) :
    hooks.callAll (first ++ second) s = hooks.callAll second (hooks.callAll first s) :=
  List.foldl_append

theorem call_of_unbound {hooks : Hooks σ} {call : HookCall} (unbound : hooks.binds call = false)
    (s : σ × Console) : hooks.call call s = s := by
  cases call with
  | scanline row =>
    have absent : hooks.scanline = none := by simpa [binds] using unbound
    simp only [Hooks.call, absent, Option.map_none, callHook]
  | border row =>
    have absent : hooks.border = none := by simpa [binds] using unbound
    simp only [Hooks.call, absent, Option.map_none, callHook]

/-- Hooks that write down their calls do what they did, and write down the calls that are made. -/
theorem call_traced (hooks : Hooks σ) (call : HookCall) (guest : σ) (calls : List HookCall)
    (c : Console) :
    hooks.traced.call call ((guest, calls), c) =
      (((hooks.call call (guest, c)).1, calls ++ [call].filter hooks.binds),
        (hooks.call call (guest, c)).2) := by
  obtain ⟨scanline, border, overline⟩ := hooks
  cases call with
  | scanline row =>
    cases scanline with
    | none => simp [Hooks.call, traced, binds, callHook]
    | some f => rfl
  | border row =>
    cases border with
    | none => simp [Hooks.call, traced, binds, callHook]
    | some f => rfl

theorem callAll_traced (hooks : Hooks σ) (calls before : List HookCall) (guest : σ) (c : Console) :
    hooks.traced.callAll calls ((guest, before), c) =
      (((hooks.callAll calls (guest, c)).1, before ++ calls.filter hooks.binds),
        (hooks.callAll calls (guest, c)).2) := by
  induction calls generalizing before guest c with
  | nil => simp [callAll]
  | cons call rest ih =>
    have later := ih (before ++ [call].filter hooks.binds) (hooks.call call (guest, c)).1
      (hooks.call call (guest, c)).2
    rw [← call_traced, List.append_assoc, ← List.filter_append] at later
    exact later

theorem callAll_none (calls : List HookCall) (s : σ × Console) :
    ({} : Hooks σ).callAll calls s = s := by
  induction calls with
  | nil => rfl
  | cons call rest ih =>
    have skipped : ({} : Hooks σ).call call s = s :=
      call_of_unbound (by cases call <;> rfl) s
    exact (congrArg (callAll {} rest) skipped).trans ih

end Hooks

/-! ### The colour of a place -/

/-- The screen pixel that is shown in column `x` and row `y` of the screen. The screen is scrolled,
and goes on at its other edge. -/
def shownPixel (c : Console) (x y : Nat) : Nat :=
  ((y + c.ram.scrollY) % Screen.height).toNat * Screen.width +
    ((x + c.ram.scrollX) % Screen.width).toNat

/-- Whether a place of the full frame belongs to the screen. -/
def OnScreen (column row : Nat) : Prop :=
  (Screen.left ≤ column ∧ column < Screen.left + Screen.width) ∧
    Screen.top ≤ row ∧ row < Screen.top + Screen.height

instance (column row : Nat) : Decidable (OnScreen column row) :=
  inferInstanceAs (Decidable (_ ∧ _))

/-- The host pixel at a place of the full frame: a pixel of the screen, or the border around it. -/
def placeColor (c : Console) (column row : Nat) : UInt32 :=
  if OnScreen column row then
    (palette c).color (c.ram.pixel (shownPixel c (column - Screen.left) (row - Screen.top))).toNat
  else
    (palette c).color c.ram.borderColor.toNat

theorem color_rowSource (c : Console) (column row : Nat) :
    (RowSource.of c row).color column = placeColor c column row := by
  by_cases visible : IsVisible row
  · by_cases inside : Screen.left ≤ column ∧ column < Screen.left + Screen.width
    · have on : OnScreen column row := ⟨inside, visible⟩
      simp only [placeColor, if_pos on, RowSource.color, RowSource.of, if_pos visible,
        if_pos inside]
      rfl
    · have off : ¬ OnScreen column row := fun on => inside on.1
      simp only [placeColor, if_neg off, RowSource.color, RowSource.of, if_pos visible,
        if_neg inside]
  · have off : ¬ OnScreen column row := fun on => visible on.2
    simp only [placeColor, if_neg off, RowSource.color, RowSource.of, if_neg visible]

theorem sourceIndex_lt (pos : Nat) (offset : Int) {size : Nat} (nonempty : 0 < size) :
    sourceIndex pos offset size < size := by
  have positive : (0 : Int) < size := Int.natCast_pos.mpr nonempty
  have nonneg := Int.emod_nonneg (pos + offset) (Int.ne_of_gt positive)
  have below := Int.emod_lt_of_pos (pos + offset) positive
  unfold sourceIndex
  omega

theorem existsUnique_sourceIndex (offset : Int) {size : Nat} (target : Fin size) :
    ∃! pos : Fin size, sourceIndex pos offset size = target := by
  have nonempty : 0 < size := Nat.lt_of_le_of_lt (Nat.zero_le _) target.isLt
  have nonzero : (size : Int) ≠ 0 := Int.natCast_ne_zero.mpr (Nat.ne_of_gt nonempty)
  have value (pos : Nat) : (sourceIndex pos offset size : Int) = (pos + offset) % size :=
    Int.toNat_of_nonneg (Int.emod_nonneg _ nonzero)
  have small (pos : Fin size) : (pos : Int) % size = pos :=
    Int.emod_eq_of_lt (Int.natCast_nonneg _) (Int.ofNat_lt.mpr pos.isLt)
  refine ⟨⟨sourceIndex target (-offset) size, sourceIndex_lt _ _ nonempty⟩, ?_, ?_⟩
  -- scrolling back and then forth comes to the same place
  · refine Int.ofNat.inj ?_
    change ((sourceIndex (sourceIndex target (-offset) size) offset size : Nat) : Int) = target
    rw [value, sourceIndex, Int.toNat_of_nonneg (Int.emod_nonneg _ nonzero), Int.emod_add_emod,
      Int.neg_add_cancel_right, small]
  · intro pos shown
    have same : (pos + offset) % size = (target : Int) := by rw [← value, shown]
    refine Fin.ext (Int.ofNat.inj ?_)
    change (pos : Int) = ((sourceIndex target (-offset) size : Nat) : Int)
    rw [sourceIndex, Int.toNat_of_nonneg (Int.emod_nonneg _ nonzero), ← same, Int.emod_add_emod,
      Int.add_neg_cancel_right, small]

/-- Scrolling is a cyclic shift: every pixel of the screen is shown in exactly one place. -/
theorem existsUnique_shownPixel (c : Console) (p : Fin Screen.pixels) :
    ∃! place : Fin Screen.width × Fin Screen.height, shownPixel c place.1 place.2 = p := by
  have column : p % Screen.width < Screen.width := Nat.mod_lt p (by decide)
  have row : p / Screen.width < Screen.height := Nat.div_lt_of_lt_mul p.isLt
  have split : p / Screen.width * Screen.width + p % Screen.width = p := Nat.div_add_mod' p _
  obtain ⟨x, atColumn, onlyX⟩ := existsUnique_sourceIndex c.ram.scrollX ⟨_, column⟩
  obtain ⟨y, atRow, onlyY⟩ := existsUnique_sourceIndex c.ram.scrollY ⟨_, row⟩
  -- a pixel of the screen is known by its column and its row
  have shows (place : Fin Screen.width × Fin Screen.height) : shownPixel c place.1 place.2 = p ↔
      sourceIndex place.1 c.ram.scrollX Screen.width = p % Screen.width ∧
        sourceIndex place.2 c.ram.scrollY Screen.height = p / Screen.width := by
    have inside := sourceIndex_lt place.1 c.ram.scrollX (show 0 < Screen.width by decide)
    have same : shownPixel c place.1 place.2 = p / Screen.width * Screen.width + p % Screen.width ↔ _ :=
      Frame.index_inj inside column
    rw [split] at same
    exact same.trans (and_congr eq_comm eq_comm)
  refine ⟨(x, y), (shows (x, y)).mpr ⟨atColumn, atRow⟩, fun place shown => ?_⟩
  obtain ⟨first, second⟩ := (shows place).mp shown
  exact Prod.ext (onlyX place.1 first) (onlyY place.2 second)

/-! ### Drawing rows -/

theorem drawRow_eq (hooks : Hooks σ) (row : Nat) (s : σ × Console) (frame : Frame) :
    drawRow hooks row (s, frame) =
      (hooks.callAll (rowCalls row) s,
        frame.setRow row (placeColor (hooks.callAll (rowCalls row) s).2 · row)) := by
  have colors (c : Console) : (RowSource.of c row).color = (placeColor c · row) :=
    funext fun column => color_rowSource c column row
  simp only [drawRow, colors]
  -- the first row of the screen has had its hook before the rows
  have scanlineRow : IsVisible row ∧ Screen.top < row ↔
      Screen.top < row ∧ row < Screen.top + Screen.height := by
    unfold IsVisible
    omega
  simp only [scanlineRow, rowCalls]
  split <;> rfl

/-- The first rows of a frame, with the console and the state of the hooks after them. -/
def drawnRows (hooks : Hooks σ) (s : σ × Console) (frame : Frame) (rows : Nat) :
    (σ × Console) × Frame :=
  rows.fold (fun row _ s => drawRow hooks row s) (hooks.call (.scanline 0) s, frame)

/-- The console that a row shows: the one right after the hooks of that row. -/
def seenBy (hooks : Hooks σ) (s : σ × Console) (row : Nat) : Console :=
  (hooks.callAll (callsBefore (row + 1)) s).2

/-- What drawing rows comes to: the calls of all of them have been made, and each row shows the
console after its own. -/
structure ShowsRows (hooks : Hooks σ) (s : σ × Console) (frame : Frame) (rows : Nat)
    (drawn : (σ × Console) × Frame) : Prop where
  console : drawn.1 = hooks.callAll (callsBefore rows) s
  width : drawn.2.width = frame.width
  height : drawn.2.height = frame.height
  pixels : ∀ column row, drawn.2.pixel? column row =
    if row < rows then (frame.pixel? column row).map fun _ => placeColor (seenBy hooks s row) column row
    else frame.pixel? column row

theorem showsRows_drawnRows (hooks : Hooks σ) (s : σ × Console) (frame : Frame) (rows : Nat) :
    ShowsRows hooks s frame rows (drawnRows hooks s frame rows) := by
  induction rows with
  | zero => exact ⟨rfl, rfl, rfl, fun column row => by rw [if_neg (Nat.not_lt_zero row)]; rfl⟩
  | succ rows ih =>
    rw [drawnRows, Nat.fold_succ, ← drawnRows]
    generalize drawnRows hooks s frame rows = drawn at ih ⊢
    obtain ⟨s', frame'⟩ := drawn
    -- the hooks of the new row find what the calls of all rows before have left
    have moved : hooks.callAll (rowCalls rows) s' = hooks.callAll (callsBefore (rows + 1)) s := by
      rw [callsBefore_succ, hooks.callAll_append, ← ih.console]
    rw [drawRow_eq, moved]
    refine ⟨rfl, (frame'.width_setRow _ _).trans ih.width,
      (frame'.height_setRow _ _).trans ih.height, fun column row => ?_⟩
    have pixels : frame'.pixel? column row = _ := ih.pixels column row
    rw [Frame.pixel?_setRow]
    by_cases last : row = rows
    · subst last
      rw [if_pos rfl, if_pos (Nat.lt_succ_self row), pixels, if_neg (Nat.lt_irrefl row)]
      rfl
    · have earlier : row < rows + 1 ↔ row < rows := by omega
      rw [if_neg last, pixels]
      simp only [earlier]

/-! ### The whole frame -/

/-- A frame without the overlay, with the console and the state of the hooks. -/
def rowsOnly (hooks : Hooks σ) (s : σ × Console) (frame : Frame) : (σ × Console) × Frame :=
  drawnRows hooks s (frame.ensureSize Screen.fullWidth Screen.fullHeight) Screen.fullHeight

theorem draw_ofRows (hooks : Hooks σ) (guest : σ) (c : Console) (frame : Frame) :
    draw hooks.ofRows guest c frame = rowsOnly hooks (guest, c) frame :=
  rfl

theorem draw_traced (hooks : Hooks σ) (guest : σ) (calls : List HookCall) (c : Console)
    (frame : Frame) :
    draw hooks.traced (guest, calls) c frame = rowsOnly hooks.traced ((guest, calls), c) frame :=
  rfl

theorem showsRows_rowsOnly (hooks : Hooks σ) (s : σ × Console) (frame : Frame) :
    ShowsRows hooks s (frame.ensureSize Screen.fullWidth Screen.fullHeight) Screen.fullHeight
      (rowsOnly hooks s frame) :=
  showsRows_drawnRows hooks s _ _

theorem width_rowsOnly (hooks : Hooks σ) (s : σ × Console) (frame : Frame) :
    (rowsOnly hooks s frame).2.width = Screen.fullWidth :=
  (showsRows_rowsOnly hooks s frame).width.trans (frame.width_ensureSize _ _)

theorem height_rowsOnly (hooks : Hooks σ) (s : σ × Console) (frame : Frame) :
    (rowsOnly hooks s frame).2.height = Screen.fullHeight :=
  (showsRows_rowsOnly hooks s frame).height.trans (frame.height_ensureSize _ _)

theorem pixel?_rowsOnly (hooks : Hooks σ) (s : σ × Console) (frame : Frame) (column row : Nat) :
    (rowsOnly hooks s frame).2.pixel? column row =
      if column < Screen.fullWidth ∧ row < Screen.fullHeight then
        some (placeColor (seenBy hooks s row) column row)
      else
        none := by
  have exists_iff :=
    (frame.ensureSize Screen.fullWidth Screen.fullHeight).pixel?_isSome_iff column row
  rw [frame.width_ensureSize, frame.height_ensureSize] at exists_iff
  rw [(showsRows_rowsOnly hooks s frame).pixels]
  by_cases inside : column < Screen.fullWidth ∧ row < Screen.fullHeight
  · obtain ⟨before, present⟩ := Option.isSome_iff_exists.mp (exists_iff.mpr inside)
    rw [if_pos inside, if_pos inside.2, present]
    rfl
  · have absent := Option.not_isSome_iff_eq_none.mp (inside ∘ exists_iff.mp)
    rw [if_neg inside, absent]
    split <;> rfl

theorem frame_rowsOnly_congr {τ : Type} {hooks : Hooks σ} {others : Hooks τ} {s : σ × Console}
    {t : τ × Console} (same : ∀ row, seenBy others t row = seenBy hooks s row) (frame other : Frame) :
    (rowsOnly others t other).2 = (rowsOnly hooks s frame).2 := by
  refine Frame.ext_pixel? ?_ ?_ fun column row _ _ => ?_
  · rw [width_rowsOnly, width_rowsOnly]
  · rw [height_rowsOnly, height_rowsOnly]
  · rw [pixel?_rowsOnly, pixel?_rowsOnly, same]

/-- What was in the frame before does not matter, nor does its size. -/
theorem rowsOnly_congr (hooks : Hooks σ) (s : σ × Console) (frame other : Frame) :
    rowsOnly hooks s other = rowsOnly hooks s frame := by
  refine Prod.ext ?_ (frame_rowsOnly_congr (fun _ => rfl) frame other)
  rw [(showsRows_rowsOnly hooks s frame).console, (showsRows_rowsOnly hooks s other).console]

theorem rowsOnly_traced (hooks : Hooks σ) (guest : σ) (c : Console) (frame : Frame) :
    rowsOnly hooks.traced ((guest, []), c) frame =
      ((((rowsOnly hooks (guest, c) frame).1.1,
            (callsBefore Screen.fullHeight).filter hooks.binds),
          (rowsOnly hooks (guest, c) frame).1.2), (rowsOnly hooks (guest, c) frame).2) := by
  have same (row : Nat) : seenBy hooks.traced ((guest, []), c) row = seenBy hooks (guest, c) row :=
    congrArg Prod.snd (hooks.callAll_traced _ [] guest c)
  -- the rows are the same because each of them sees the same console
  have called : (rowsOnly hooks.traced ((guest, []), c) frame).1 = _ :=
    (showsRows_rowsOnly _ _ _).console.trans (hooks.callAll_traced _ [] guest c)
  rw [← (showsRows_rowsOnly hooks (guest, c) frame).console, List.nil_append] at called
  rw [← called, ← frame_rowsOnly_congr same frame frame]

theorem placeColor_of_screen (c : Console) (x : Fin Screen.width) (y : Fin Screen.height) :
    placeColor c (Screen.left + x) (Screen.top + y) =
      (palette c).color (c.ram.pixel (shownPixel c x y)).toNat := by
  have on : OnScreen (Screen.left + x) (Screen.top + y) := by
    simp only [OnScreen]
    omega
  rw [placeColor, if_pos on, Nat.add_sub_cancel_left, Nat.add_sub_cancel_left]

/-- The first row of the screen has no call of its own, the rows after it have one. -/
example : rowCalls 4 = [.border 4] ∧ rowCalls 5 = [.border 5, .scanline 1] ∧
    rowCalls 139 = [.border 139, .scanline 135] ∧ rowCalls 140 = [.border 140] := by
  decide

end Raster

end FantasyConsole
