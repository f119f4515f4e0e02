import FantasyConsole.Proofs.Machine.Coherence
import FantasyConsole.Proofs.Machine.Liveness

/-!
# Operations as conversations

The interpreter that a machine has bound is the one that is live. So the calls of each operation, but
for the end of a pause, lead from the interpreter that is bound before it to the one that is bound
after it.

## Main result

`Machine.converses_run`: the calls of a run are a conversation.

## Proof strategy

A coherent machine calls no interpreter but the one that it has bound. The cases of an operation are
those of its definition; a tick that starts a program is a close, a start and a frame in a row.
-/

namespace FantasyConsole

namespace Machine

variable {σ : Type}

/-- The interpreter that the machine has bound. -/
def bound (m : Machine σ) : Option Nat := m.console.state.interpreter

/-! ### Each operation is a conversation -/

theorem Coherent.live_eq {m : Machine σ} (coherent : m.Coherent) : m.live = m.bound := by
  unfold live bound
  cases interpreter : m.console.state.interpreter with
  | none => rfl
  | some index =>
    have inside : index < m.interpreters.size := coherent.now.bound index interpreter
    simp [inside]

theorem converses_callsTo {m : Machine σ} (coherent : m.Coherent) {callback : Callback}
    (serves : callback.Serves) : Conversation m.bound (m.callsTo callback) m.bound := by
  rw [callsTo, coherent.live_eq]
  cases m.bound with
  | none => exact .nil
  | some index => exact .serves [callback] fun other member => List.mem_singleton.mp member ▸ serves

theorem converses_close {m : Machine σ} (coherent : m.Coherent) :
    Conversation m.bound (m.callsTo .close) none := by
  rw [callsTo, coherent.live_eq]
  cases m.bound with
  | none => exact .nil
  | some index => exact .one rfl

theorem Continues.bound_eq {m n : Machine σ} (continues : m.Continues n) : n.bound = m.bound :=
  continues.console.interpreter

theorem Starts.bound_eq {index : Nat} {m n : Machine σ} (starts : Starts index m n) :
    n.bound = some index := by
  obtain ⟨hooks, lifecycle⟩ := starts.lifecycle
  exact congrArg Lifecycle.interpreter lifecycle

theorem bound_pause (m : Machine σ) : m.pause.bound = m.bound := by
  unfold pause
  split <;> rfl

theorem startCalls_of_served {m : Machine σ} {index : Nat}
    (code : ¬ m.console.cart.code.isEmpty = true)
    (served : Interpreter.select? m.interpreters m.console.cart.code = some index) :
    m.startCalls =
      m.callsTo .close ++ [⟨index, .init m.console.cart.code m.startProgram.1.isNone⟩] := by
  rw [startCalls, if_neg code, served]

/-- What a start that fails has called: nothing, or a start function that failed. -/
theorem startCalls_of_failed {m n : Machine σ} {e : StartError}
    (fails : m.startProgram = (some e, n)) :
    (n = m ∧ m.startCalls = []) ∨
      ∃ index code, m.startCalls = m.callsTo .close ++ [⟨index, .init code false⟩] := by
  obtain ⟨empty, ended⟩ | ⟨code, unserved, ended⟩ | ⟨index, cause, o, code, served, _, _⟩ |
    ⟨index, o, ended, _⟩ := m.startProgram_outcome
  · left
    rw [startCalls, if_pos empty]
    exact ⟨congrArg Prod.snd (fails.symm.trans ended), rfl⟩
  · left
    rw [startCalls, if_neg code, unserved]
    exact ⟨congrArg Prod.snd (fails.symm.trans ended), rfl⟩
  · right
    refine ⟨index, m.console.cart.code, ?_⟩
    rw [startCalls_of_served code served, fails]
    rfl
  · rw [ended] at fails
    cases fails

theorem startCalls_of_started {m n : Machine σ} {index : Nat} (starts : Starts index m n)
    (succeeds : m.startProgram = (none, n)) :
    m.startCalls = m.callsTo .close ++ [⟨index, .init m.console.cart.code true⟩] := by
  rw [startCalls_of_served starts.text starts.served, succeeds]
  rfl

/-- A tick does nothing, runs the program, fails to start it, or starts and runs it. -/
theorem tick_calls_cases (m : Machine σ) :
    (m.tick = m ∧ m.tickCalls = []) ∨
    (m.console.state.phase = .running ∧ m.tick = m.runProgram ∧ m.tickCalls = m.callsTo .tick) ∨
    (m.console.state.phase = .initializing ∧ m.console.state.rejected = false ∧
      ((∃ e n, m.startProgram = (some e, n) ∧ m.tick = n.reject e ∧ m.tickCalls = m.startCalls) ∨
      ∃ n, m.startProgram = (none, n) ∧ m.tick = n.runProgram ∧
        m.tickCalls = m.startCalls ++ n.callsTo .tick)) := by
  obtain ⟨unloaded, same⟩ | ⟨running, runs⟩ | ⟨initializing, ⟨rejected, same⟩ |
    ⟨accepted, ⟨e, n, fails, same⟩ | ⟨n, succeeds, runs⟩⟩⟩ := m.tick_cases
  · exact .inl ⟨same, by rw [tickCalls, unloaded]⟩
  · exact .inr (.inl ⟨running, runs, by rw [tickCalls, running]⟩)
  · exact .inl ⟨same, by simp [tickCalls, initializing, rejected]⟩
  · have calls : m.tickCalls = m.startCalls := by simp [tickCalls, initializing, accepted, fails]
    exact .inr (.inr ⟨initializing, accepted, .inl ⟨e, n, fails, same, calls⟩⟩)
  · have calls : m.tickCalls = m.startCalls ++ n.callsTo .tick := by
      simp [tickCalls, initializing, accepted, succeeds]
    exact .inr (.inr ⟨initializing, accepted, .inr ⟨n, succeeds, runs, calls⟩⟩)

theorem tickCalls_of_failed {m n : Machine σ} {e : StartError}
    (initializing : m.console.state.phase = .initializing)
    (accepted : m.console.state.rejected = false) (fails : m.startProgram = (some e, n)) :
    m.tickCalls = m.startCalls := by
  simp [tickCalls, initializing, accepted, fails]

theorem Coherent.bound_failed {m n : Machine σ} {e : StartError} (coherent : m.Coherent)
    (initializing : m.console.state.phase = .initializing) (fails : m.startProgram = (some e, n)) :
    n.bound = none :=
  (coherent.startProgram_fails initializing fails).bound_eq

theorem converses_tick {m : Machine σ} (coherent : m.Coherent) :
    Conversation m.bound m.tickCalls m.tick.bound := by
  obtain ⟨same, calls⟩ | ⟨_, runs, calls⟩ | ⟨initializing, accepted,
    ⟨e, n, fails, same, calls⟩ | ⟨n, succeeds, runs, calls⟩⟩ := m.tick_calls_cases
  · rw [same, calls]
    exact .nil
  · rw [runs, calls, m.reaches_runProgram.bound_eq]
    exact converses_callsTo coherent trivial
  · have idle : n.bound = none := coherent.bound_failed initializing fails
    have ended : m.tick.bound = none := same ▸ idle
    rw [calls, ended]
    obtain ⟨rfl, silent⟩ | ⟨index, code, closes⟩ := startCalls_of_failed fails
    · rw [silent, idle]
      exact .nil
    -- the old program is closed, and the failed start leaves nothing live
    · rw [closes]
      exact (converses_close coherent).trans (.one rfl)
  -- close, start, frame: the first two leave the started interpreter live, the third finds it so
  · obtain ⟨index, starts, started⟩ := coherent_startProgram coherent accepted succeeds
    have live : n.bound = some index := starts.bound_eq
    have opened : Conversation m.bound m.startCalls n.bound := by
      rw [startCalls_of_started starts succeeds, live]
      exact (converses_close coherent).trans (.one rfl)
    rw [runs, calls, n.reaches_runProgram.bound_eq]
    exact opened.trans (converses_callsTo started trivial)

theorem serves_of_mem {p : Prop} [Decidable p] {callback other : Callback}
    (member : callback ∈ if p then [other] else []) (serves : other.Serves) : callback.Serves := by
  split at member
  · exact List.mem_singleton.mp member ▸ serves
  · exact absurd member List.not_mem_nil

theorem serves_rowCallbacks (hooks : HookSet) (row : Nat) :
    ∀ callback ∈ Raster.rowCallbacks hooks row, callback.Serves := by
  intro callback member
  rcases List.mem_append.mp member with border | scanline
  · exact serves_of_mem border trivial
  · split at scanline
    · exact serves_of_mem scanline trivial
    · exact absurd scanline List.not_mem_nil

theorem serves_frameCallbacks (hooks : HookSet) :
    ∀ callback ∈ Raster.frameCallbacks hooks, callback.Serves := by
  intro callback member
  rcases List.mem_append.mp member with first | later
  · exact serves_of_mem first trivial
  · rcases List.mem_append.mp later with rows | last
    · obtain ⟨row, _, inRow⟩ := List.mem_flatMap.mp rows
      exact serves_rowCallbacks hooks row callback inRow
    · exact serves_of_mem last trivial

theorem converses_draw {m : Machine σ} (coherent : m.Coherent) :
    Conversation m.bound m.drawCalls m.draw.bound := by
  rw [m.reaches_draw.bound_eq, drawCalls, coherent.live_eq]
  split
  · cases m.bound with
    | none => exact .nil
    | some index =>
      rw [Option.toList_some, List.flatMap_singleton]
      exact .serves _ (serves_frameCallbacks _)
  · exact .nil

theorem converses_frame {m : Machine σ} (coherent : m.Coherent) :
    Conversation m.bound (m.tickCalls ++ m.tick.endFrame.render.drawCalls)
      m.tick.endFrame.render.draw.bound := by
  have ended := m.tick.reaches_endFrame.trans m.tick.endFrame.reaches_render
  have drawn := converses_draw (ended.coherent (coherent_tick coherent))
  rw [ended.bound_eq] at drawn
  exact (converses_tick coherent).trans drawn

/-- Every operation but the end of a pause leads from the interpreter that is bound before it to the
one that is bound after it. -/
theorem converses_step {op : Op σ} {m n : Machine σ} (coherent : m.Coherent) (steady : op ≠ .resume)
    (stepped : op.step m = .ok n) : Conversation m.bound (op.calls m) n.bound := by
  cases op with
  | loadCart cart =>
    have idle : (m.loadCart cart).bound = none :=
      congrArg Lifecycle.interpreter (m.inserts_loadCart cart).lifecycle
    rw [← Except.ok.inj stepped, idle]
    exact converses_close coherent
  | unload =>
    have idle : m.unload.bound = none := congrArg Lifecycle.interpreter m.inserts_unload.lifecycle
    rw [← Except.ok.inj stepped, idle]
    exact converses_close coherent
  | tick => exact Except.ok.inj stepped ▸ converses_tick coherent
  | draw => exact Except.ok.inj stepped ▸ converses_draw coherent
  | menu choice =>
    rw [(reaches_step rfl stepped).bound_eq, Op.calls]
    split
    · exact converses_callsTo coherent trivial
    · exact .nil
  | eval code =>
    rw [(reaches_step rfl stepped).bound_eq, Op.calls]
    split
    · exact converses_callsTo coherent trivial
    · exact .nil
  | stepFrame =>
    obtain ⟨unloaded, rfl⟩ | ⟨loaded, b, begun, rfl⟩ := step_stepFrame_inv stepped
    · rw [Op.calls, if_pos unloaded]
      exact .nil
    -- beginning a frame calls nothing and binds nothing
    · have begins := reaches_beginFrame begun
      rw [Op.calls, if_neg loaded, begun, ← begins.bound_eq]
      exact converses_frame (begins.coherent coherent)
  | resume => exact absurd rfl steady
  | register interp => exact Except.ok.inj stepped ▸ .nil
  | pause =>
    rw [← Except.ok.inj stepped, bound_pause]
    exact .nil
  | setClock clock => exact Except.ok.inj stepped ▸ .nil
  | _ =>
    rw [(reaches_step rfl stepped).bound_eq]
    exact .nil

theorem converses_run {ops : List (Op σ)} {m n : Machine σ} (coherent : m.Coherent)
    (steady : .resume ∉ ops) (ran : m.run ops = .ok n) :
    Conversation m.bound (m.runCalls ops) n.bound := by
  induction ops generalizing m with
  | nil =>
    cases ran
    exact .nil
  | cons op rest ih =>
    rw [List.mem_cons, not_or] at steady
    obtain ⟨next, stepped, later⟩ := run_cons_inv ran
    rw [runCalls_cons stepped]
    exact (converses_step coherent (Ne.symm steady.1) stepped).trans
      (ih (coherent_step coherent stepped) steady.2 later)

end Machine

end FantasyConsole
