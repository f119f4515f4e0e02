import FantasyConsole.Proofs.Guest.Moves
import FantasyConsole.Raster

/-!
# How drawing a frame moves the console

Drawing writes the frame and, for the overlay, memory and the overlay palette. Apart from that it
only calls hooks, so it makes the moves that the hooks make.
-/

namespace FantasyConsole

namespace Raster

variable {σ : Type}

/-! ### The overlay pass -/

/-- What the overlay pass does to the console that its hook left: `before` is the one before. -/
def restoreScreen (before c : Console) : Console :=
  finishOverlay (before.ram.region Layout.screen) (before.ram.region Layout.palette)
    (c.log .raster .trace s!"overlay recomposited {c.ram.dirty.count} pixels")

/-- A pass that ends with a new frame and a new console, both made from the one that a hook left. -/
def endPass (finish : Console → Console) (compose : Console → Frame) (s : σ × Console) :
    (σ × Console) × Frame :=
  ((s.1, finish s.2), compose s.2)

theorem drawOverlay_eq (hook : σ × Console → σ × Console) (s : σ × Console) (frame : Frame) :
    drawOverlay hook (s, frame) =
      endPass (restoreScreen s.2) (composeDirty · frame) (hook (s.1, prepareOverlay s.2)) := by
  simp only [drawOverlay, endPass, restoreScreen]

theorem moves_prepareOverlay (c : Console) : c.Moves (prepareOverlay c) := by
  unfold prepareOverlay
  exact (Console.Move.memory _).moves

theorem moves_restoreScreen (before c : Console) : c.Moves (restoreScreen before c) := by
  unfold restoreScreen finishOverlay
  exact (c.moves_log _ _ _).tail (.overlay _ _)

theorem moves_drawOverlay {hook : σ × Console → σ × Console}
    (moves : ∀ s : σ × Console, s.2.Moves (hook s).2) (s : (σ × Console) × Frame) :
    s.1.2.Moves (drawOverlay hook s).1.2 := by
  obtain ⟨s, frame⟩ := s
  have called := moves (s.1, prepareOverlay s.2)
  rw [drawOverlay_eq]
  exact ((moves_prepareOverlay s.2).trans called).trans (moves_restoreScreen s.2 _)

/-! ### A frame -/

/-- A hook that only moves the console. -/
def Moving (hook : Option (σ × Console → σ × Console)) : Prop :=
  ∀ f, hook = some f → ∀ s : σ × Console, s.2.Moves (f s).2

theorem Moving.callHook {hook : Option (σ × Console → σ × Console)} (moving : Moving hook)
    (s : σ × Console) : s.2.Moves (callHook hook s).2 := by
  cases hook with
  | none => exact .refl
  | some f => exact moving f rfl s

/-- Hooks that only move the console. -/
structure HooksMove (hooks : Hooks σ) : Prop where
  scanline : ∀ row, Moving (hooks.scanline.map (· row))
  border : ∀ row, Moving (hooks.border.map (· row))
  overline : Moving hooks.overline

variable {hooks : Hooks σ}

theorem moves_drawRow (moving : HooksMove hooks) (row : Nat) (s : (σ × Console) × Frame) :
    s.1.2.Moves (drawRow hooks row s).1.2 := by
  have border := (moving.border row).callHook s.1
  simp only [drawRow]
  split
  · exact border.trans ((moving.scanline (row - Screen.top : Nat)).callHook _)
  · exact border

theorem moves_drawRows (moving : HooksMove hooks) (rows : Nat) (s : (σ × Console) × Frame) :
    s.1.2.Moves (rows.fold (fun row _ s => drawRow hooks row s) s).1.2 := by
  induction rows with
  | zero => exact .refl
  | succ rows ih =>
    rw [Nat.fold_succ]
    exact ih.trans (moves_drawRow moving rows _)

theorem moves_draw (moving : HooksMove hooks) (guest : σ) (c : Console) (frame : Frame) :
    c.Moves (draw hooks guest c frame).1.2 := by
  have first := (moving.scanline 0).callHook (guest, c)
  have rows := first.trans
    (moves_drawRows moving Screen.fullHeight
      (callHook (hooks.scanline.map (· 0)) (guest, c),
        frame.ensureSize Screen.fullWidth Screen.fullHeight))
  simp only [draw]
  split
  -- the overlay hook runs after all rows, on the console that their hooks left
  case h_1 hook bound =>
    exact rows.trans (moves_drawOverlay (moving.overline hook bound) _)
  case h_2 => exact rows

end Raster

end FantasyConsole
