import FantasyConsole.Proofs.Machine.Conversations

/-!
# Starts that fail

A program cannot be started if there is no text, if there is no interpreter, or if the start function
of the interpreter fails. This is reported, and then the machine waits until a cart is loaded.

## Main result

`Machine.FailedStart.run`: an operation in which a start fails reports one error, and until a cart is
loaded no interpreter is called and no error reported.

## Proof strategy

A coherent machine whose start has failed has bound no interpreter and has rejected its cart. In this
state no operation calls an interpreter, and a reset does not leave it.
-/

namespace FantasyConsole

/-- Whether nothing can be done for a program but to wait until a cart is loaded. -/
def Lifecycle.Waits (l : Lifecycle) : Prop :=
  l.interpreter = none ∧ (l.phase = .unloaded ∨ l.phase = .initializing ∧ l.rejected = true)

theorem Lifecycle.Waits.reset {l : Lifecycle} (waits : l.Waits) : l.reset.Waits := by
  refine ⟨waits.1, ?_⟩
  rcases waits.2 with unloaded | ⟨initializing, rejected⟩
  · left
    rw [Lifecycle.reset, if_pos unloaded]
  -- a reset keeps the rejection of the cart
  · right
    rw [Lifecycle.reset, initializing]
    exact ⟨rfl, rejected⟩

namespace Machine

variable {σ : Type}

/-! ### Waiting for a cart -/

/-- Whether a machine can do nothing for its program but wait until a cart is loaded. -/
def Waits (m : Machine σ) : Prop := m.console.lifecycle.Waits

theorem Waits.callsTo_eq {m : Machine σ} (waits : m.Waits) (callback : Callback) :
    m.callsTo callback = [] := by
  have idle : m.console.state.interpreter = none := waits.1
  rw [callsTo, live, idle]
  rfl

theorem Waits.not_running {m : Machine σ} (waits : m.Waits) :
    m.console.state.phase ≠ .running := by
  rcases waits.2 with unloaded | ⟨initializing, _⟩
  · exact fun running => Phase.noConfusion (unloaded.symm.trans running)
  · exact fun running => Phase.noConfusion (initializing.symm.trans running)

theorem Waits.drawCalls_eq {m : Machine σ} (waits : m.Waits) : m.drawCalls = [] :=
  if_neg waits.not_running

theorem Waits.of_continues {m n : Machine σ} (waits : m.Waits) (continues : m.Continues n) :
    n.Waits := by
  unfold Waits
  rcases continues.console.lifecycle with same | same
  · rw [same]
    exact waits
  · rw [same]
    exact Lifecycle.Waits.reset waits

theorem Waits.tick_eq {m : Machine σ} (waits : m.Waits) : m.tick = m ∧ m.tickCalls = [] := by
  rcases waits.2 with unloaded | ⟨initializing, rejected⟩
  · have phase : m.console.state.phase = .unloaded := unloaded
    simp [tick, tickCalls, phase]
  · have phase : m.console.state.phase = .initializing := initializing
    have refused : m.console.state.rejected = true := rejected
    simp [tick, tickCalls, phase, refused]

/-- What follows the frame function in a frame reaches no interpreter of a waiting machine. -/
theorem Waits.endFrame {m : Machine σ} (waits : m.Waits) :
    m.endFrame.render.drawCalls = [] ∧ m.Reaches m.endFrame.render.draw := by
  have ended := m.reaches_endFrame.trans m.endFrame.reaches_render
  exact ⟨(waits.of_continues ended.toContinues).drawCalls_eq, m.reaches_finishFrame⟩

/-- A waiting machine calls nothing, reports nothing and keeps waiting. -/
theorem Waits.step {op : Op σ} {m n : Machine σ} (waits : m.Waits) (steady : op ≠ .resume)
    (unchanged : ∀ cart, op ≠ .loadCart cart) (stepped : op.step m = .ok n) :
    op.calls m = [] ∧ n.Waits ∧ n.console.errors = m.console.errors := by
  have goesOn (reaches : m.Reaches n) : n.Waits ∧ n.console.errors = m.console.errors :=
    ⟨waits.of_continues reaches.toContinues, reaches.console.errors⟩
  cases op with
  | register interp => exact Except.ok.inj stepped ▸ ⟨rfl, waits, rfl⟩
  | loadCart cart => exact absurd rfl (unchanged cart)
  | unload =>
    have ended := m.inserts_unload
    rw [← Except.ok.inj stepped]
    exact ⟨waits.callsTo_eq _, ⟨congrArg Lifecycle.interpreter ended.lifecycle,
      .inl (congrArg Lifecycle.phase ended.lifecycle)⟩, ended.errors⟩
  | tick =>
    obtain ⟨same, silent⟩ := waits.tick_eq
    rw [← Except.ok.inj stepped, same]
    exact ⟨silent, waits, rfl⟩
  | draw => exact ⟨waits.drawCalls_eq, goesOn (reaches_step rfl stepped)⟩
  | menu choice =>
    refine ⟨?_, goesOn (reaches_step rfl stepped)⟩
    rw [Op.calls, waits.callsTo_eq, ite_self]
  | eval code =>
    refine ⟨?_, goesOn (reaches_step rfl stepped)⟩
    rw [Op.calls, waits.callsTo_eq, ite_self]
  | stepFrame =>
    obtain ⟨unloaded, rfl⟩ | ⟨loaded, b, begun, rfl⟩ := step_stepFrame_inv stepped
    · rw [Op.calls, if_pos unloaded]
      exact ⟨rfl, waits, rfl⟩
    · have begins := reaches_beginFrame begun
      obtain ⟨same, silent⟩ := (waits.of_continues begins.toContinues).tick_eq
      obtain ⟨undrawn, ended⟩ := (waits.of_continues begins.toContinues).endFrame
      have made : m.Reaches b.tick.endFrame.render.draw := by
        rw [same]
        exact begins.trans ended
      refine ⟨?_, goesOn made⟩
      rw [Op.calls, if_neg loaded, begun]
      simp only [same, silent, undrawn, List.append_nil]
  | pause =>
    rw [← Except.ok.inj stepped]
    unfold pause
    split
    · exact ⟨rfl, waits, rfl⟩
    · exact ⟨rfl, waits, (Console.reaches_log _ _ _ _).errors⟩
  | resume => exact absurd rfl steady
  | setClock clock => exact Except.ok.inj stepped ▸ ⟨rfl, waits, rfl⟩
  | _ => exact ⟨rfl, goesOn (reaches_step rfl stepped)⟩

theorem Waits.run {ops : List (Op σ)} {m n : Machine σ} (waits : m.Waits) (steady : .resume ∉ ops)
    (unchanged : ∀ cart, .loadCart cart ∉ ops) (ran : m.run ops = .ok n) :
    m.runCalls ops = [] ∧ n.console.errors = m.console.errors := by
  induction ops generalizing m with
  | nil =>
    cases ran
    exact ⟨rfl, rfl⟩
  | cons op rest ih =>
    rw [List.mem_cons, not_or] at steady
    have others (cart : Cart) := not_or.mp (fun member => unchanged cart (List.mem_cons.mpr member))
    obtain ⟨next, stepped, later⟩ := run_cons_inv ran
    obtain ⟨silent, waiting, kept⟩ := waits.step (Ne.symm steady.1)
      (fun cart same => (others cart).1 same.symm) stepped
    obtain ⟨quiet, last⟩ := ih waiting steady.2 (fun cart => (others cart).2) later
    refine ⟨?_, last.trans kept⟩
    rw [runCalls_cons stepped, silent, quiet, List.append_nil]

/-! ### A start that fails -/

/-- Whether the frame function of `m` starts a program in vain. -/
def FailsToStart (m : Machine σ) : Prop :=
  m.console.state.phase = .initializing ∧ m.console.state.rejected = false ∧
    ∃ e n, m.startProgram = (some e, n)

/-- A start that fails is reported once, and then the machine waits. -/
theorem FailsToStart.tick {m : Machine σ} (failing : m.FailsToStart) (coherent : m.Coherent) :
    m.tickCalls = m.startCalls ∧ m.tick.Waits ∧
      ∃ e : StartError, m.tick.console.errors = m.console.errors ++ [e.message] := by
  obtain ⟨initializing, accepted, e, n, fails⟩ := failing
  have ticked : m.tick = n.reject e := by
    simp only [Machine.tick, initializing, accepted, fails]
    rfl
  have forgotten := coherent.lifecycle_failed initializing accepted fails
  have kept : n.console.errors = m.console.errors :=
    (coherent.startProgram_fails initializing fails).console.errors
  refine ⟨tickCalls_of_failed initializing accepted fails, ?_, e, ?_⟩
  · unfold Waits
    rw [ticked, lifecycle_reject, forgotten]
    exact ⟨rfl, .inr ⟨rfl, rfl⟩⟩
  · rw [ticked, errors_reject, kept]

/-- Whether an operation on `m` calls the frame function of `b`. -/
def Op.Ticks (op : Op σ) (m b : Machine σ) : Prop :=
  op = .tick ∧ b = m ∨
    op = .stepFrame ∧ m.console.state.phase ≠ .unloaded ∧ m.beginFrame = .ok b

theorem Op.Ticks.continues {op : Op σ} {m b : Machine σ} (ticks : op.Ticks m b) : m.Continues b := by
  rcases ticks with ⟨_, rfl⟩ | ⟨_, _, begun⟩
  · exact .refl b
  · exact (reaches_beginFrame begun).toContinues

/-- An operation in which a start fails calls what the start calls, reports the failure once and leaves
a machine that waits. -/
theorem Op.Ticks.fails {op : Op σ} {m b n : Machine σ} (ticks : op.Ticks m b)
    (coherent : m.Coherent) (failing : b.FailsToStart) (stepped : op.step m = .ok n) :
    op.calls m = b.startCalls ∧ n.Waits ∧
      ∃ e : StartError, n.console.errors = m.console.errors ++ [e.message] := by
  obtain ⟨calls, waits, e, reported⟩ := failing.tick (ticks.continues.coherent coherent)
  rw [ticks.continues.console.errors] at reported
  rcases ticks with ⟨rfl, rfl⟩ | ⟨rfl, loaded, begun⟩
  · exact Except.ok.inj stepped ▸ ⟨calls, waits, e, reported⟩
  -- the rest of the frame finds a machine that waits
  · obtain ⟨undrawn, ended⟩ := waits.endFrame
    rw [step_stepFrame_of_begun loaded begun] at stepped
    rw [← Except.ok.inj stepped, Op.calls, if_neg loaded, begun]
    refine ⟨?_, waits.of_continues ended.toContinues, e, ended.console.errors.trans reported⟩
    simp only [calls, undrawn, List.append_nil]

/-! ### Where a start function fails -/

theorem callback_of_mem {m : Machine σ} {callback : Callback} {c : Call}
    (member : c ∈ m.callsTo callback) : c.callback = callback := by
  obtain ⟨_, _, rfl⟩ := List.mem_map.mp member
  rfl

theorem serves_of_mem_callsTo {m : Machine σ} {callback : Callback} {c : Call}
    (member : c ∈ m.callsTo callback) (serves : callback.Serves) : c.callback.Serves :=
  callback_of_mem member ▸ serves

theorem serves_of_mem_drawCalls {m : Machine σ} {c : Call} (member : c ∈ m.drawCalls) :
    c.callback.Serves := by
  unfold drawCalls at member
  split at member
  · obtain ⟨_, _, inFrame⟩ := List.mem_flatMap.mp member
    obtain ⟨callback, called, rfl⟩ := List.mem_map.mp inFrame
    exact serves_frameCallbacks _ callback called
  · exact absurd member List.not_mem_nil

/-- An operation under which the program goes on neither starts nor ends one. -/
theorem Op.serves_of_goesOn {op : Op σ} {m : Machine σ} (goesOn : op.goesOn = true) {c : Call}
    (member : c ∈ op.calls m) : c.callback.Serves := by
  cases op with
  | draw => exact serves_of_mem_drawCalls member
  | menu choice =>
    rw [Op.calls] at member
    split at member
    · exact serves_of_mem_callsTo member trivial
    · exact absurd member List.not_mem_nil
  | eval code =>
    rw [Op.calls] at member
    split at member
    · exact serves_of_mem_callsTo member trivial
    · exact absurd member List.not_mem_nil
  | setInput | beginFrame | endFrame | render | reset | loadState => exact absurd member List.not_mem_nil
  | register | loadCart | unload | tick | stepFrame | pause | resume | setClock => cases goesOn

variable {index : Nat} {code : String}

theorem failsToStart_of_mem {m : Machine σ}
    (failed : (⟨index, .init code false⟩ : Call) ∈ m.tickCalls) : m.FailsToStart := by
  obtain ⟨_, calls⟩ | ⟨_, _, calls⟩ | ⟨initializing, accepted,
    ⟨e, n, fails, _, _⟩ | ⟨n, succeeds, _, calls⟩⟩ := m.tick_calls_cases
  · rw [calls] at failed
    exact absurd failed List.not_mem_nil
  · rw [calls] at failed
    cases callback_of_mem failed
  · exact ⟨initializing, accepted, e, n, fails⟩
  · obtain ⟨i, starts⟩ := starts_of_succeeds succeeds
    -- the start function that is called here has succeeded
    rw [calls, startCalls_of_started starts succeeds, List.mem_append, List.mem_append,
      List.mem_singleton] at failed
    rcases failed with (closed | started) | ticked
    · cases callback_of_mem closed
    · cases started
    · cases callback_of_mem ticked

/-- A start function fails only where a program is started. -/
theorem Op.ticks_of_mem {op : Op σ} {m n : Machine σ} (stepped : op.step m = .ok n)
    (failed : (⟨index, .init code false⟩ : Call) ∈ op.calls m) :
    ∃ b, op.Ticks m b ∧ b.FailsToStart := by
  cases op with
  | loadCart | unload => cases callback_of_mem failed
  | tick => exact ⟨m, .inl ⟨rfl, rfl⟩, failsToStart_of_mem failed⟩
  | draw | menu | eval => exact (Op.serves_of_goesOn rfl failed).elim
  | stepFrame =>
    obtain ⟨unloaded, _⟩ | ⟨loaded, b, begun, _⟩ := step_stepFrame_inv stepped
    · rw [Op.calls, if_pos unloaded] at failed
      exact absurd failed List.not_mem_nil
    · rw [Op.calls, if_neg loaded, begun, List.mem_append] at failed
      rcases failed with ticked | drawn
      · exact ⟨b, .inr ⟨rfl, loaded, begun⟩, failsToStart_of_mem ticked⟩
      · exact (serves_of_mem_drawCalls drawn).elim
  | _ => exact absurd failed List.not_mem_nil

/-- Whether an operation comes to the point where a program is started. -/
def Op.Tries (op : Op σ) (m : Machine σ) : Prop :=
  (op = .tick ∨ op = .stepFrame) ∧ m.console.state.phase = .initializing ∧
    m.console.state.rejected = false

/-- The program cannot be started in an operation on `m` that makes the calls `calls`: there is no
text, there is no interpreter, or a start function fails. The last argument are the calls until
then. -/
inductive FailedStart (op : Op σ) (m : Machine σ) (calls : List Call) : List Call → Prop
  | emptyCode (tries : op.Tries m) (empty : m.console.cart.code.isEmpty = true) :
      FailedStart op m calls []
  | noInterpreter (tries : op.Tries m) (unserved : m.interpreters.isEmpty = true) :
      FailedStart op m calls []
  | init {before after : List Call} {index : Nat} {code : String}
      (failed : calls = before ++ ⟨index, .init code false⟩ :: after) :
      FailedStart op m calls (before ++ [⟨index, .init code false⟩])

/-- A machine that tries to start a program begins its frame as one that has not started it. -/
theorem Op.Tries.ticks {op : Op σ} {m n : Machine σ} (tries : op.Tries m)
    (stepped : op.step m = .ok n) :
    ∃ b, op.Ticks m b ∧ b.console.state.phase = .initializing ∧
      b.console.state.rejected = false := by
  obtain ⟨rfl | rfl, initializing, accepted⟩ := tries
  · exact ⟨m, .inl ⟨rfl, rfl⟩, initializing, accepted⟩
  · obtain ⟨unloaded, _⟩ | ⟨loaded, b, begun, _⟩ := step_stepFrame_inv stepped
    · exact Phase.noConfusion (unloaded.symm.trans initializing)
    · have begins := reaches_beginFrame begun
      refine ⟨b, .inr ⟨rfl, loaded, begun⟩, ?_, begins.console.rejected.trans accepted⟩
      rcases begins.console.lifecycle with same | reset
      · exact (congrArg Lifecycle.phase same).trans initializing
      · rw [Lifecycle.reset] at reset
        exact (congrArg Lifecycle.phase reset).trans (if_neg loaded)

/-- In a list, nothing follows an entry that stands only at its end. -/
theorem eq_concat_of_not_mem {α : Type} {before after front : List α} {x y : α}
    (same : before ++ y :: after = front ++ [x]) (fresh : y ∉ front) :
    before ++ [y] = front ++ [x] := by
  rcases List.eq_nil_or_concat after with rfl | ⟨rest, last, rfl⟩
  · exact same
  · rw [List.concat_eq_append, ← List.cons_append, ← List.append_assoc] at same
    obtain ⟨rfl, _⟩ := List.append_singleton_inj.mp same
    exact absurd (List.mem_append_right _ List.mem_cons_self) fresh

/-- An operation in which a start fails calls nothing after that, and leaves a machine that waits. -/
theorem FailedStart.step {op : Op σ} {m n : Machine σ} {upTo : List Call} (coherent : m.Coherent)
    (failed : FailedStart op m (op.calls m) upTo) (stepped : op.step m = .ok n) :
    op.calls m = upTo ∧ n.Waits ∧
      ∃ e : StartError, n.console.errors = m.console.errors ++ [e.message] := by
  cases failed with
  | emptyCode tries empty =>
    obtain ⟨b, ticks, initializing, accepted⟩ := tries.ticks stepped
    rw [← ticks.continues.console.code] at empty
    obtain ⟨calls, rest⟩ := ticks.fails coherent
      ⟨initializing, accepted, _, _, startProgram_of_emptyCode empty⟩ stepped
    refine ⟨?_, rest⟩
    rw [calls, startCalls, if_pos empty]
  | noInterpreter tries unserved =>
    obtain ⟨b, ticks, initializing, accepted⟩ := tries.ticks stepped
    rw [← ticks.continues.interpreters] at unserved
    have absent : Interpreter.select? b.interpreters b.console.cart.code = none := by
      rw [Interpreter.select?, if_pos unserved]
    -- a cart without text is refused before interpreters are looked for
    by_cases empty : b.console.cart.code.isEmpty = true
    · obtain ⟨calls, rest⟩ := ticks.fails coherent
        ⟨initializing, accepted, _, _, startProgram_of_emptyCode empty⟩ stepped
      refine ⟨?_, rest⟩
      rw [calls, startCalls, if_pos empty]
    · obtain ⟨calls, rest⟩ := ticks.fails coherent
        ⟨initializing, accepted, _, _, startProgram_of_unserved empty absent⟩ stepped
      refine ⟨?_, rest⟩
      rw [calls, startCalls, if_neg empty, absent]
  | @init before after index code called =>
    -- the failed start is the last call, and the calls before it are those of a close
    have member : (⟨index, .init code false⟩ : Call) ∈ op.calls m := by
      rw [called]
      exact List.mem_append_right _ List.mem_cons_self
    obtain ⟨b, ticks, failing⟩ := Op.ticks_of_mem stepped member
    obtain ⟨calls, rest⟩ := ticks.fails coherent failing stepped
    refine ⟨?_, rest⟩
    obtain ⟨_, _, e, o, fails⟩ := failing
    obtain ⟨_, silent⟩ | ⟨i, text, closes⟩ := startCalls_of_failed fails
    · rw [calls, silent] at member
      exact absurd member List.not_mem_nil
    · have fresh : (⟨index, .init code false⟩ : Call) ∉ b.callsTo .close := by
        intro closed
        cases callback_of_mem closed
      have whole := called.symm.trans (calls.trans closes)
      exact (calls.trans closes).trans (eq_concat_of_not_mem whole fresh).symm

/-- After a start that has failed, nothing is called and nothing is reported as long as no cart is
loaded. -/
theorem FailedStart.run {op : Op σ} {after : List (Op σ)} {m n o : Machine σ} {upTo : List Call}
    (coherent : m.Coherent) (failed : FailedStart op m (op.calls m) upTo)
    (stepped : op.step m = .ok n) (steady : .resume ∉ after)
    (unchanged : ∀ cart, .loadCart cart ∉ after) (ran : n.run after = .ok o) :
    m.runCalls (op :: after) = upTo ∧
      (∃ e : StartError, n.console.errors = m.console.errors ++ [e.message]) ∧
      o.console.errors = n.console.errors := by
  obtain ⟨calls, waits, reported⟩ := failed.step coherent stepped
  obtain ⟨silent, kept⟩ := waits.run steady unchanged ran
  refine ⟨?_, reported, kept⟩
  rw [runCalls_cons stepped, calls, silent, List.append_nil]

end Machine

end FantasyConsole
