import FantasyConsole.Proofs.Machine.Reach

/-!
# Coherence of the lifecycle

Phase, rejection, bound interpreter and hooks are four fields, but only few combinations of them
occur. The invariant holds of the present state and of the state that a pause keeps, and every
operation preserves it, whatever the guest programs do.

## Main result

`Machine.coherent_run`: in every machine that a run reaches, the lifecycle is coherent.

## Proof strategy

A reset preserves coherence, so every operation under which the program goes on does. What remains
are the operations that end, start or reject a program, each of which leaves an explicit lifecycle.
-/

namespace FantasyConsole

namespace Lifecycle

/-- The lifecycles that occur on a machine with `size` interpreters, under a cart with a given
text. -/
structure Coherent (l : Lifecycle) (size : Nat) (code : String) : Prop where
  bound : ∀ index, l.interpreter = some index → index < size
  running : l.phase = .running → l.interpreter ≠ none
  rejected : l.rejected = true → l.phase = .initializing ∧ l.interpreter = none
  unloaded : l.phase = .unloaded → l.interpreter = none
  text : l.interpreter ≠ none → ¬ code.isEmpty = true
  hooks : l.phase ≠ .running → l.hooks = {}

theorem Coherent.reset {l : Lifecycle} {size : Nat} {code : String}
    (coherent : l.Coherent size code) : l.reset.Coherent size code where
  bound := coherent.bound
  running := by
    unfold Lifecycle.reset
    split <;> rintro ⟨⟩
  rejected := by
    intro rejected
    obtain ⟨initializing, idle⟩ := coherent.rejected rejected
    simp only [Lifecycle.reset, initializing, idle]
    decide
  unloaded := by
    unfold Lifecycle.reset
    split
    case isTrue unloaded => exact fun _ => coherent.unloaded unloaded
    case isFalse => rintro ⟨⟩
  text := coherent.text
  hooks := fun _ => rfl

theorem Coherent.mono {l : Lifecycle} {small large : Nat} {code : String}
    (coherent : l.Coherent small code) (le : small ≤ large) : l.Coherent large code :=
  { coherent with bound := fun index bound => Nat.lt_of_lt_of_le (coherent.bound index bound) le }

theorem coherent_fresh {phase : Phase} (idle : phase ≠ .running) (size : Nat) (code : String) :
    (fresh phase).Coherent size code where
  bound := by rintro index ⟨⟩
  running := fun running => absurd running idle
  rejected := by rintro ⟨⟩
  unloaded := fun _ => rfl
  text := fun bound => absurd rfl bound
  hooks := fun _ => rfl

end Lifecycle

namespace Machine

variable {σ : Type}

/-- The lifecycle is coherent, and so is the one that a pause keeps. -/
structure Coherent (m : Machine σ) : Prop where
  now : m.console.lifecycle.Coherent m.interpreters.size m.console.cart.code
  kept : ∀ s, m.paused = some s →
    (Lifecycle.mk s.state.phase s.state.rejected s.state.interpreter s.state.hooks).Coherent
      m.interpreters.size m.console.cart.code

theorem Continues.coherent {m n : Machine σ} (continues : m.Continues n) (coherent : m.Coherent) :
    n.Coherent where
  now := by
    rw [continues.interpreters, continues.console.code]
    rcases continues.console.lifecycle with same | same
    · exact same ▸ coherent.now
    · exact same ▸ coherent.now.reset
  kept := by
    rw [continues.interpreters, continues.console.code, continues.paused]
    exact coherent.kept

theorem Inserts.coherent {phase : Phase} {cart : Cart} {m n : Machine σ}
    (inserts : Inserts phase cart m n) (idle : phase ≠ .running) : n.Coherent where
  now := inserts.lifecycle ▸ Lifecycle.coherent_fresh idle _ _
  kept := by
    intro s kept
    rw [inserts.paused] at kept
    cases kept

/-- A machine whose program has not been started has nothing to end. -/
theorem Coherent.withoutProgram_continues {m : Machine σ} (coherent : m.Coherent)
    (initializing : m.console.state.phase = .initializing)
    (idle : m.console.state.interpreter = none) : m.withoutProgram.Continues m := by
  have hooks : m.console.state.hooks = {} := coherent.now.hooks (by
    intro running
    exact Phase.noConfusion (initializing.symm.trans running))
  refine ⟨.of_eq ?_ rfl rfl rfl, rfl, rfl⟩
  simp only [Console.lifecycle, withoutProgram, mapConsole, idle, hooks]

/-- A start that fails leaves a machine that has ended its program. -/
theorem Coherent.startProgram_fails {m n : Machine σ} {e : StartError} (coherent : m.Coherent)
    (initializing : m.console.state.phase = .initializing)
    (fails : m.startProgram = (some e, n)) : m.withoutProgram.Continues n := by
  have idle_of (absent : m.console.state.interpreter = none) :=
    coherent.withoutProgram_continues initializing absent
  obtain ⟨empty, ended⟩ | ⟨_, unserved, ended⟩ | ⟨_, cause, o, _, _, ended, continues⟩ |
    ⟨index, o, ended, starts⟩ := m.startProgram_outcome
  · rw [ended] at fails
    cases fails
    -- an interpreter is bound only under a cart with a text
    refine idle_of (Classical.byContradiction fun bound => coherent.now.text bound empty)
  · rw [ended] at fails
    cases fails
    refine idle_of ?_
    cases bound : m.console.state.interpreter with
    | none => rfl
    | some index =>
      -- where no interpreter is registered none can be bound
      have inside := coherent.now.bound index bound
      rw [Interpreter.select?_eq_none unserved] at inside
      exact absurd inside (Nat.not_lt_zero index)
  · rw [ended] at fails
    cases fails
    exact continues
  · rw [ended] at fails
    cases fails

/-- The lifecycle of a program that could not be started. -/
theorem Coherent.lifecycle_failed {m n : Machine σ} {e : StartError} (coherent : m.Coherent)
    (initializing : m.console.state.phase = .initializing)
    (accepted : m.console.state.rejected = false) (fails : m.startProgram = (some e, n)) :
    n.console.lifecycle = .fresh .initializing := by
  have forgotten : m.withoutProgram.console.lifecycle = .fresh .initializing := by
    simp only [Console.lifecycle, withoutProgram, mapConsole, initializing, accepted]
    rfl
  -- a reset within the start function changes nothing in a fresh lifecycle
  rcases (coherent.startProgram_fails initializing fails).console.lifecycle with same | same
  · exact same.trans forgotten
  · rw [same, forgotten]
    rfl

theorem lifecycle_reject (m : Machine σ) (e : StartError) :
    (m.reject e).console.lifecycle = { m.console.lifecycle with rejected := true } :=
  rfl

theorem errors_reject (m : Machine σ) (e : StartError) :
    (m.reject e).console.errors = m.console.errors ++ [e.message] := by
  have logged := m.console.reaches_log .script .error s!"cart rejected: {e.message}"
  refine (Console.errors_notify _ (.error e.message)).trans ?_
  rw [logged.errors]

theorem Starts.coherent {index : Nat} {m n : Machine σ} (starts : Starts index m n)
    (coherent : m.Coherent) (accepted : m.console.state.rejected = false) : n.Coherent where
  now := by
    obtain ⟨hooks, started⟩ := starts.lifecycle
    rw [started, starts.interpreters, starts.code, accepted]
    exact
      { bound := by
          rintro i ⟨⟩
          exact Interpreter.select?_lt starts.served
        running := fun _ => Option.some_ne_none index
        rejected := by rintro ⟨⟩
        unloaded := by rintro ⟨⟩
        text := fun _ => starts.text
        hooks := fun idle => absurd rfl idle }
  kept := by
    rw [starts.interpreters, starts.code, starts.paused]
    exact coherent.kept

theorem Coherent.reject {m n : Machine σ} {e : StartError} (coherent : m.Coherent)
    (initializing : m.console.state.phase = .initializing)
    (accepted : m.console.state.rejected = false) (fails : m.startProgram = (some e, n)) :
    (n.reject e).Coherent := by
  have failed := coherent.lifecycle_failed initializing accepted fails
  have ended := coherent.startProgram_fails initializing fails
  constructor
  · rw [lifecycle_reject, failed]
    exact
      { bound := by rintro i ⟨⟩
        running := by rintro ⟨⟩
        rejected := fun _ => ⟨rfl, rfl⟩
        unloaded := by rintro ⟨⟩
        text := fun bound => absurd rfl bound
        hooks := fun _ => rfl }
  · change ∀ s, n.paused = some s → Lifecycle.Coherent _ n.interpreters.size n.console.cart.code
    rw [ended.interpreters, ended.console.code, ended.paused]
    exact coherent.kept

theorem coherent_startProgram {m n : Machine σ} (coherent : m.Coherent)
    (accepted : m.console.state.rejected = false) (succeeds : m.startProgram = (none, n)) :
    ∃ index, Starts index m n ∧ n.Coherent := by
  obtain ⟨index, starts⟩ := starts_of_succeeds succeeds
  exact ⟨index, starts, starts.coherent coherent accepted⟩

theorem coherent_tick {m : Machine σ} (coherent : m.Coherent) : m.tick.Coherent := by
  obtain ⟨_, same⟩ | ⟨_, runs⟩ | ⟨initializing, ⟨_, same⟩ | ⟨accepted, fails | succeeds⟩⟩ :=
    m.tick_cases
  · rwa [same]
  · rw [runs]
    exact m.reaches_runProgram.coherent coherent
  · rwa [same]
  · obtain ⟨e, n, fails, same⟩ := fails
    rw [same]
    exact coherent.reject initializing accepted fails
  · obtain ⟨n, succeeds, runs⟩ := succeeds
    obtain ⟨index, _, started⟩ := coherent_startProgram coherent accepted succeeds
    rw [runs]
    exact n.reaches_runProgram.coherent started

/-! ### Operations and runs -/

theorem coherent_frame {m : Machine σ} (coherent : m.Coherent) :
    m.tick.endFrame.render.draw.Coherent :=
  m.tick.reaches_finishFrame.coherent (coherent_tick coherent)

theorem coherent_pause {m : Machine σ} (coherent : m.Coherent) : m.pause.Coherent := by
  unfold pause
  cases paused : m.paused with
  | some s => exact coherent
  | none =>
    constructor
    · exact coherent.now
    -- what the pause keeps is the state of this moment
    · rintro s ⟨⟩
      exact coherent.now

theorem coherent_resume {m : Machine σ} (coherent : m.Coherent) : m.resume.Coherent := by
  unfold resume
  cases paused : m.paused with
  | none => exact coherent
  | some s =>
    constructor
    · exact coherent.kept s paused
    · rintro t ⟨⟩

theorem coherent_register {m : Machine σ} (coherent : m.Coherent) (interp : Interpreter σ) :
    (m.register interp).Coherent := by
  have grows : m.interpreters.size ≤ (m.interpreters.push interp).size := by
    rw [Array.size_push]
    exact Nat.le_succ _
  exact ⟨coherent.now.mono grows, fun s kept => (coherent.kept s kept).mono grows⟩

/-- Every operation preserves coherence. -/
theorem coherent_step {op : Op σ} {m n : Machine σ} (coherent : m.Coherent)
    (stepped : op.step m = .ok n) : n.Coherent := by
  cases op with
  | register interp => exact Except.ok.inj stepped ▸ coherent_register coherent interp
  | loadCart cart =>
    exact Except.ok.inj stepped ▸ (m.inserts_loadCart cart).coherent Phase.noConfusion
  | unload => exact Except.ok.inj stepped ▸ m.inserts_unload.coherent Phase.noConfusion
  | tick => exact Except.ok.inj stepped ▸ coherent_tick coherent
  | stepFrame =>
    obtain ⟨_, rfl⟩ | ⟨_, b, begun, rfl⟩ := step_stepFrame_inv stepped
    · exact coherent
    · exact coherent_frame ((reaches_beginFrame begun).coherent coherent)
  | pause => exact Except.ok.inj stepped ▸ coherent_pause coherent
  | resume => exact Except.ok.inj stepped ▸ coherent_resume coherent
  | setClock clock =>
    rw [← Except.ok.inj stepped]
    exact ⟨coherent.now, coherent.kept⟩
  | _ => exact (reaches_step rfl stepped).coherent coherent

theorem coherent_new (config : Config) (clock : Clock) (guest : σ) :
    (new config clock guest).Coherent where
  now := Lifecycle.coherent_fresh (Phase.noConfusion : Phase.unloaded ≠ .running) _ _
  kept := by rintro s ⟨⟩

/-- In every machine that a run reaches, the lifecycle is coherent. -/
theorem coherent_run {config : Config} {clock : Clock} {guest : σ} {ops : List (Op σ)}
    {m : Machine σ} (ran : (new config clock guest).run ops = .ok m) : m.Coherent :=
  run_preserves (fun _ _ _ _ coherent stepped => coherent_step coherent stepped)
    (coherent_new config clock guest) ran

end Machine

end FantasyConsole
