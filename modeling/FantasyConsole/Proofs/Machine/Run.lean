import FantasyConsole.Machine.Lifecycle
import FantasyConsole.Machine.Pause
import FantasyConsole.Machine.SaveState

/-!
# Runs of a machine

A run is a list of operations that a host applies to a machine one after another. A fault ends it.
-/

namespace FantasyConsole

namespace Machine

/-- What a host does with a machine. Between two operations the host's clocks may move. -/
inductive Op (σ : Type) where
  | register (interp : Interpreter σ)
  | loadCart (cart : Cart)
  | unload
  | setInput (input : DeviceInput)
  | beginFrame
  | tick
  | endFrame
  | render
  | draw
  | menu (index : Int)
  | eval (code : String)
  | reset
  | stepFrame
  | loadState (saved : Json)
  | pause
  | resume
  | setClock (clock : Clock)

variable {σ : Type}

/-- One operation. A frame that is refused for want of a cart and a saved state that cannot be read
leave the machine as it is. -/
def Op.step : Op σ → Machine σ → Except Fault (Machine σ)
  | register interp, m => .ok (m.register interp)
  | loadCart cart, m => .ok (m.loadCart cart)
  | unload, m => .ok m.unload
  | setInput input, m => .ok (m.setInput input)
  | beginFrame, m => m.beginFrame
  | tick, m => .ok m.tick
  | endFrame, m => .ok m.endFrame
  | render, m => .ok m.render
  | draw, m => .ok m.draw
  | menu index, m => .ok (m.menu index)
  | eval code, m => .ok (m.eval code)
  | reset, m => .ok m.reset
  | stepFrame, m =>
    match m.stepFrame with
    | .ok m => .ok m
    | .error .noCart => .ok m
    | .error (.fault cause) => .error cause
  | loadState saved, m => .ok ((m.loadState? saved).getD m)
  | pause, m => .ok m.pause
  | resume, m => .ok m.resume
  | setClock clock, m => .ok (m.mapConsole fun c => { c with clock := clock })

theorem step_stepFrame_of_unloaded {m : Machine σ} (unloaded : m.console.state.phase = .unloaded) :
    Op.stepFrame.step m = .ok m := by
  simp only [Op.step, stepFrame, if_pos unloaded]

theorem step_stepFrame_of_fault {m : Machine σ} {cause : Fault}
    (loaded : m.console.state.phase ≠ .unloaded) (fault : m.beginFrame = .error cause) :
    Op.stepFrame.step m = .error cause := by
  simp only [Op.step, stepFrame, if_neg loaded, fault]

theorem step_stepFrame_of_begun {m n : Machine σ} (loaded : m.console.state.phase ≠ .unloaded)
    (begun : m.beginFrame = .ok n) :
    Op.stepFrame.step m = .ok n.tick.endFrame.render.draw := by
  simp only [Op.step, stepFrame, if_neg loaded, begun]

/-- A frame is refused without a cart, faults where it begins, or is made. -/
theorem step_stepFrame_cases (m : Machine σ) :
    (m.console.state.phase = .unloaded ∧ Op.stepFrame.step m = .ok m) ∨
    (m.console.state.phase ≠ .unloaded ∧ ∃ cause, m.beginFrame = .error cause ∧
      Op.stepFrame.step m = .error cause) ∨
    (m.console.state.phase ≠ .unloaded ∧ ∃ n, m.beginFrame = .ok n ∧
      Op.stepFrame.step m = .ok n.tick.endFrame.render.draw) := by
  by_cases unloaded : m.console.state.phase = .unloaded
  · exact .inl ⟨unloaded, step_stepFrame_of_unloaded unloaded⟩
  · right
    cases begun : m.beginFrame with
    | error cause => exact .inl ⟨unloaded, cause, rfl, step_stepFrame_of_fault unloaded begun⟩
    | ok n => exact .inr ⟨unloaded, n, rfl, step_stepFrame_of_begun unloaded begun⟩

/-- A frame that does not fault is refused without a cart, or is made. -/
theorem step_stepFrame_inv {m n : Machine σ} (stepped : Op.stepFrame.step m = .ok n) :
    (m.console.state.phase = .unloaded ∧ n = m) ∨
    (m.console.state.phase ≠ .unloaded ∧ ∃ b, m.beginFrame = .ok b ∧
      n = b.tick.endFrame.render.draw) := by
  obtain ⟨unloaded, refused⟩ | ⟨_, cause, _, fault⟩ | ⟨loaded, b, begun, made⟩ :=
    m.step_stepFrame_cases
  · exact .inl ⟨unloaded, Except.ok.inj (stepped.symm.trans refused)⟩
  · cases stepped.symm.trans fault
  · exact .inr ⟨loaded, b, begun, Except.ok.inj (stepped.symm.trans made)⟩

/-- Applies operations in order. -/
def run (m : Machine σ) : List (Op σ) → Except Fault (Machine σ)
  | [] => .ok m
  | op :: ops =>
    match op.step m with
    | .ok m => m.run ops
    | .error cause => .error cause

theorem run_cons {op : Op σ} {m n : Machine σ} (stepped : op.step m = .ok n) (ops : List (Op σ)) :
    m.run (op :: ops) = n.run ops := by
  rw [run, stepped]

theorem run_cons_inv {op : Op σ} {ops : List (Op σ)} {m o : Machine σ}
    (ran : m.run (op :: ops) = .ok o) : ∃ n, op.step m = .ok n ∧ n.run ops = .ok o := by
  rw [run] at ran
  cases stepped : op.step m with
  | error cause => rw [stepped] at ran; cases ran
  | ok n => rw [stepped] at ran; exact ⟨n, rfl, ran⟩

theorem run_append {m n : Machine σ} {before : List (Op σ)} (first : m.run before = .ok n)
    (after : List (Op σ)) : m.run (before ++ after) = n.run after := by
  induction before generalizing m with
  | nil =>
    cases first
    rfl
  | cons op rest ih =>
    obtain ⟨next, stepped, later⟩ := run_cons_inv first
    exact (run_cons stepped _).trans (ih later)

/-- A run that succeeds passes through every machine before it. -/
theorem run_append_inv {m o : Machine σ} {before after : List (Op σ)}
    (ran : m.run (before ++ after) = .ok o) :
    ∃ n, m.run before = .ok n ∧ n.run after = .ok o := by
  induction before generalizing m with
  | nil => exact ⟨m, rfl, ran⟩
  | cons op rest ih =>
    obtain ⟨next, stepped, later⟩ := run_cons_inv ran
    obtain ⟨n, first, second⟩ := ih later
    exact ⟨n, (run_cons stepped _).trans first, second⟩

/-- What every operation of a run preserves, the run preserves. -/
theorem run_preserves {holds : Machine σ → Prop} {ops : List (Op σ)}
    (step : ∀ op ∈ ops, ∀ m n : Machine σ, holds m → op.step m = .ok n → holds n)
    {m n : Machine σ} (start : holds m) (ran : m.run ops = .ok n) : holds n := by
  induction ops generalizing m with
  | nil =>
    cases ran
    exact start
  | cons op rest ih =>
    obtain ⟨next, stepped, later⟩ := run_cons_inv ran
    exact ih (fun op member => step op (List.mem_cons_of_mem _ member))
      (step op List.mem_cons_self m next start stepped) later

end Machine

end FantasyConsole
