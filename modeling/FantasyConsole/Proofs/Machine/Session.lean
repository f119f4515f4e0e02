import FantasyConsole.Proofs.Machine.Coherence

/-!
# Sessions

In a session a host operates a machine, and between two operations it calls the functions of the
console itself, as a program does: it writes memory, copies sections, draws, or resets the console.

## Main result

`Machine.consistent_session`: in every machine that a session reaches, phase, rejection, interpreter
and hooks fit one another, and so do those that a pause keeps.
-/

namespace FantasyConsole

namespace Machine

/-- What a host does with a machine: it operates the machine, or it calls a function of the
console. -/
inductive HostAct (σ : Type) where
  | operate (op : Op σ)
  | call (name : String) (args : List Value)

variable {σ : Type}

def HostAct.step : HostAct σ → Machine σ → Except Fault (Machine σ)
  | operate op, m => op.step m
  | call name args, m => .ok (m.mapConsole fun c => (Api.call name args c).2)

/-- Does what a host does, in order. A fault ends it. -/
def perform (m : Machine σ) (acts : List (HostAct σ)) : Except Fault (Machine σ) :=
  acts.foldlM (fun m act => act.step m) m

theorem perform_cons_inv {act : HostAct σ} {acts : List (HostAct σ)} {m o : Machine σ}
    (performed : m.perform (act :: acts) = .ok o) :
    ∃ n, act.step m = .ok n ∧ n.perform acts = .ok o := by
  rw [perform, List.foldlM_cons] at performed
  cases stepped : act.step m with
  | error cause => rw [stepped] at performed; cases performed
  | ok n => rw [stepped] at performed; exact ⟨n, rfl, performed⟩

theorem perform_append_inv {m o : Machine σ} {before after : List (HostAct σ)}
    (performed : m.perform (before ++ after) = .ok o) :
    ∃ n, m.perform before = .ok n ∧ n.perform after = .ok o := by
  rw [perform, List.foldlM_append] at performed
  cases first : m.perform before with
  | error cause => rw [← perform, first] at performed; cases performed
  | ok n => rw [← perform, first] at performed; exact ⟨n, rfl, performed⟩

theorem perform_rest {m n o : Machine σ} {before after : List (HostAct σ)}
    (first : m.perform before = .ok n) (performed : m.perform (before ++ after) = .ok o) :
    n.perform after = .ok o := by
  obtain ⟨p, reached, later⟩ := perform_append_inv performed
  obtain rfl := Except.ok.inj (first.symm.trans reached)
  exact later

theorem perform_preserves {holds : Machine σ → Prop} {acts : List (HostAct σ)}
    (step : ∀ act ∈ acts, ∀ m n : Machine σ, holds m → act.step m = .ok n → holds n)
    {m n : Machine σ} (start : holds m) (performed : m.perform acts = .ok n) : holds n := by
  induction acts generalizing m with
  | nil =>
    cases performed
    exact start
  | cons act rest ih =>
    obtain ⟨next, stepped, later⟩ := perform_cons_inv performed
    exact ih (fun act member => step act (List.mem_cons_of_mem _ member))
      (step act List.mem_cons_self m next start stepped) later

theorem reaches_call {name : String} {args : List Value} {m n : Machine σ}
    (stepped : (HostAct.call name args).step m = .ok n) : m.Reaches n :=
  Except.ok.inj stepped ▸ reaches_mapConsole (Api.reaches_call name args m.console)

/-! ### Consistency -/

theorem coherent_perform {acts : List (HostAct σ)} {m n : Machine σ} (coherent : m.Coherent)
    (performed : m.perform acts = .ok n) : n.Coherent := by
  refine perform_preserves (fun act _ o p coherent stepped => ?_) coherent performed
  cases act with
  | operate op => exact coherent_step coherent stepped
  | call name args => exact (reaches_call stepped).coherent coherent

end Machine

/-- Whether any hook is bound. -/
def HookSet.AnyBound (hooks : HookSet) : Prop :=
  hooks.scanline = true ∨ hooks.border = true ∨ hooks.overline = true ∨ hooks.menu = true

/-- How phase, rejection, interpreter and hooks fit one another on a console with `size`
interpreters. -/
structure ConsoleState.Consistent (s : ConsoleState) (size : Nat) : Prop where
  running : s.phase = .running →
    (∃ index, s.interpreter = some index ∧ index < size) ∧ s.rejected = false
  rejected : s.rejected = true → s.phase = .initializing ∧ s.interpreter = none
  hooks : s.hooks.AnyBound → s.phase = .running
  unloaded : s.phase = .unloaded →
    s.interpreter = none ∧ s.rejected = false ∧ ¬ s.hooks.AnyBound

theorem HookSet.not_anyBound_none : ¬ HookSet.AnyBound {} := by
  rintro (bound | bound | bound | bound) <;> cases bound

theorem Lifecycle.Coherent.consistent {s : ConsoleState} {size : Nat} {code : String}
    (coherent : (Lifecycle.mk s.phase s.rejected s.interpreter s.hooks).Coherent size code) :
    s.Consistent size := by
  -- a rejected cart is one that is still initializing
  have accepted (decided : s.phase ≠ .initializing) : s.rejected = false :=
    Bool.eq_false_iff.mpr fun rejected => decided (coherent.rejected rejected).1
  have silent (idle : s.phase ≠ .running) : ¬ s.hooks.AnyBound := by
    have unbound : s.hooks = {} := coherent.hooks idle
    rw [unbound]
    exact HookSet.not_anyBound_none
  constructor
  case running =>
    intro running
    obtain ⟨index, bound⟩ := Option.ne_none_iff_exists'.mp (coherent.running running)
    exact ⟨⟨index, bound, coherent.bound index bound⟩, accepted (running ▸ Phase.noConfusion)⟩
  case rejected => exact coherent.rejected
  case hooks => exact fun bound => Classical.byContradiction fun idle => silent idle bound
  case unloaded =>
    intro unloaded
    exact ⟨coherent.unloaded unloaded, accepted (unloaded ▸ Phase.noConfusion),
      silent (unloaded ▸ Phase.noConfusion)⟩

namespace Machine

variable {σ : Type}

/-- In every machine that a session reaches, with pauses and with programs that do what they like,
phase, rejection, interpreter and hooks fit one another. Those that a pause keeps fit one another
too, on the interpreters that have been registered meanwhile. -/
theorem consistent_session (config : Config) (clock : Clock) (guest : σ)
    {acts : List (HostAct σ)} {m : Machine σ}
    (performed : (new config clock guest).perform acts = .ok m) :
    m.console.state.Consistent m.interpreters.size ∧
      ∀ s, m.paused = some s → s.state.Consistent m.interpreters.size := by
  have coherent := coherent_perform (coherent_new config clock guest) performed
  exact ⟨coherent.now.consistent, fun s kept => (coherent.kept s kept).consistent⟩

/-- An interpreter whose programs have all hooks and reset the console in every frame. -/
def restless : Interpreter Unit where
  names := []
  comment := "--"
  init _ s := .done (.ok ⟨true, true, true, true⟩, s)
  close := .done
  tick s := .call "reset" [] fun _ => .done s

/-- A program that resets the console in a pause, started again by one of two interpreters. -/
theorem consistent_session_restless :
    let cart : Cart := { Cart.blank with code := "x" }
    let loaded := ((new {} {} ()).register restless).loadCart cart
    let paused := (loaded.tick.pause.register restless).tick.mapConsole fun c =>
      (Api.call "reset" [] c).2
    paused.tick.resume.console.state.Consistent paused.tick.resume.interpreters.size := by
  intro cart loaded paused
  have performed : (new {} {} ()).perform [.operate (.register restless), .operate (.loadCart cart),
      .operate .tick, .operate .pause, .operate (.register restless), .operate .tick,
      .call "reset" [], .operate .tick, .operate .resume] = .ok paused.tick.resume := rfl
  exact (consistent_session {} {} () performed).1

end Machine

end FantasyConsole
