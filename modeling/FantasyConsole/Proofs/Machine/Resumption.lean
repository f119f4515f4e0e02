import FantasyConsole.Proofs.Machine.TimeBase

/-!
# Programs across pauses

The end of a pause brings back phase, rejection and interpreter as they were when it began. It does
not bring back the interpreters: one that was closed in the pause stays closed. So a pause is
harmless only if it leaves the interpreters as it found them.

## Main result

`Machine.sound_across_pauses`: if no start fails in a pause, and none is made with another
interpreter, then calls go only to interpreters whose program is started, and a cart is reported at
most once.

`Machine.revived_of_failed` and `Machine.blank_reported_twice` show what happens otherwise.

## Proof strategy

An operation lets the program go on, starts it, or fails to start it. The interpreter that is bound
and the one that a pause keeps are serving; this is carried from call to call by the conversation of
the operation. A machine that has reported an error waits, and so does what a pause keeps of it.
-/

namespace FantasyConsole

/-! ### Turns -/

instance : DecidablePred Callback.Serves
  | .init _ _ | .close => inferInstanceAs (Decidable False)
  | .tick | .scanline _ | .border _ | .overline | .menu _ | .eval _ =>
    inferInstanceAs (Decidable True)

/-- The calls of one interpreter that start or end a program, oldest first. -/
def turns (h : List Call) (index : Nat) : List Callback :=
  (h.filter fun c => c.interpreter = index ∧ ¬ c.callback.Serves).map (·.callback)

/-- Whether the last turn of an interpreter was a start that succeeded. -/
def Serving (h : List Call) (index : Nat) : Prop :=
  ∃ code, (turns h index).getLast? = some (.init code true)

theorem turns_append (h k : List Call) (index : Nat) :
    turns (h ++ k) index = turns h index ++ turns k index := by
  simp [turns]

theorem turns_of_serves {k : List Call} (serve : ∀ c ∈ k, c.callback.Serves) (index : Nat) :
    turns k index = [] := by
  simp only [turns, List.map_eq_nil_iff, List.filter_eq_nil_iff]
  intro c member
  simp [serve c member]

theorem Serving.append {h k : List Call} {index : Nat} (serving : Serving h index)
    (serve : ∀ c ∈ k, c.callback.Serves) : Serving (h ++ k) index := by
  unfold Serving
  rw [turns_append, turns_of_serves serve, List.append_nil]
  exact serving

theorem serving_concat_init (h : List Call) (index : Nat) (code : String) :
    Serving (h ++ [⟨index, .init code true⟩]) index := by
  refine ⟨code, ?_⟩
  rw [turns_append]
  simp [turns, Callback.Serves]

/-- If the live interpreter serves before a conversation, every call in it that serves a program goes
to an interpreter that is serving, and so is the one that is live after it. -/
theorem Conversation.serving {first last : Option Nat} {h k : List Call}
    (conversation : Conversation first k last) (before : ∀ i, first = some i → Serving h i) :
    (∀ i, last = some i → Serving (h ++ k) i) ∧
      ∀ earlier c, earlier ++ [c] <+: k → c.callback.Serves →
        Serving (h ++ earlier) c.interpreter := by
  induction conversation with
  | nil =>
    rw [List.append_nil]
    refine ⟨before, fun earlier c inside => ?_⟩
    exact absurd (List.prefix_nil.mp inside) (by simp)
  | @concat k live c _ fits ih =>
    obtain ⟨now, delivered⟩ := ih
    constructor
    · intro i next
      rw [← List.append_assoc]
      obtain ⟨index, callback⟩ := c
      cases callback with
      | init code started =>
        -- nothing was live, so only a start that succeeds makes something live
        have idle : live = none := fits
        subst idle
        cases started with
        | true =>
          obtain rfl : index = i := Option.some.inj next
          exact serving_concat_init _ index code
        | false => cases next
      | close => cases next
      | _ => exact (now i next).append fun other member => List.mem_singleton.mp member ▸ trivial
    · intro earlier d inside serves
      rcases List.prefix_concat_iff.mp inside with same | sooner
      · obtain ⟨rfl, rfl⟩ := List.append_singleton_inj.mp same
        obtain ⟨index, callback⟩ := d
        cases callback with
        | init | close => exact serves.elim
        | _ => exact now index fits
      · exact delivered earlier d sooner serves

def Snapshot.lifecycle (s : Snapshot) : Lifecycle :=
  ⟨s.state.phase, s.state.rejected, s.state.interpreter, s.state.hooks⟩

namespace Machine

variable {σ : Type}

/-! ### What an operation does to the program -/

/-- Calls that lead from machine `m` to machine `n` let the program go on, start it, or fail to start
it, which is reported. -/
inductive Outcome (m : Machine σ) (calls : List Call) (n : Machine σ) : Prop
  | goesOn (serve : ∀ c ∈ calls, c.callback.Serves) (errors : n.console.errors = m.console.errors)
  | starts {index : Nat} {code : String} (started : ⟨index, .init code true⟩ ∈ calls)
      (bound : n.bound = some index) (errors : n.console.errors = m.console.errors)
  | fails (waits : n.Waits) (e : StartError)
      (reported : n.console.errors = m.console.errors ++ [e.message])

theorem Outcome.of_silent {m n : Machine σ} (errors : n.console.errors = m.console.errors) :
    Outcome m [] n :=
  .goesOn (fun _ member => absurd member List.not_mem_nil) errors

theorem Outcome.of_reaches {m b n : Machine σ} {calls : List Call} (reaches : m.Reaches b)
    (outcome : Outcome b calls n) : Outcome m calls n := by
  have same := reaches.console.errors
  cases outcome with
  | goesOn serve errors => exact .goesOn serve (errors.trans same)
  | starts started bound errors => exact .starts started bound (errors.trans same)
  | fails waits e reported => exact .fails waits e (same ▸ reported)

theorem Outcome.reaches {m n o : Machine σ} {calls more : List Call} (outcome : Outcome m calls n)
    (reaches : n.Reaches o) (serve : ∀ c ∈ more, c.callback.Serves) :
    Outcome m (calls ++ more) o := by
  have same := reaches.console.errors
  cases outcome with
  | goesOn first errors =>
    refine .goesOn (fun c member => ?_) (same.trans errors)
    exact (List.mem_append.mp member).elim (first c) (serve c)
  | starts started bound errors =>
    exact .starts (List.mem_append_left _ started) (reaches.bound_eq.trans bound)
      (same.trans errors)
  | fails waits e reported =>
    exact .fails (waits.of_continues reaches.toContinues) e (same.trans reported)

theorem outcome_tick {m : Machine σ} (coherent : m.Coherent) : Outcome m m.tickCalls m.tick := by
  obtain ⟨same, calls⟩ | ⟨_, runs, calls⟩ | ⟨initializing, accepted,
    ⟨e, n, fails, _, _⟩ | ⟨n, succeeds, runs, calls⟩⟩ := m.tick_calls_cases
  · rw [same, calls]
    exact .of_silent rfl
  · rw [runs, calls]
    exact .goesOn (fun _ member => serves_of_mem_callsTo member trivial) m.reaches_runProgram.console.errors
  · have failing : m.FailsToStart := ⟨initializing, accepted, e, n, fails⟩
    obtain ⟨_, waits, e, reported⟩ := failing.tick coherent
    exact .fails waits e reported
  -- the program is started and then runs its first frame
  · obtain ⟨index, starts⟩ := starts_of_succeeds succeeds
    have opened : Outcome m m.startCalls n := by
      rw [startCalls_of_started starts succeeds]
      exact .starts (List.mem_append_right _ List.mem_cons_self) starts.bound_eq starts.errors
    rw [runs, calls]
    exact opened.reaches n.reaches_runProgram fun _ member =>
      serves_of_mem_callsTo member trivial

theorem errors_pause (m : Machine σ) : m.pause.console.errors = m.console.errors := by
  unfold pause
  split
  · rfl
  · exact (Console.reaches_log _ _ _ _).errors

theorem errors_resume (m : Machine σ) : m.resume.console.errors = m.console.errors := by
  unfold resume
  split
  · rfl
  · exact (Console.reaches_log _ _ _ _).errors

theorem outcome_step {op : Op σ} {m n : Machine σ} (coherent : m.Coherent)
    (kept : ¬ (HostAct.operate op).InsertsCart) (stepped : op.step m = .ok n) :
    Outcome m (op.calls m) n := by
  cases op with
  | loadCart | unload => exact absurd trivial kept
  | register interp => exact Except.ok.inj stepped ▸ .of_silent rfl
  | setClock clock => exact Except.ok.inj stepped ▸ .of_silent rfl
  | pause => exact Except.ok.inj stepped ▸ .of_silent m.errors_pause
  | resume => exact Except.ok.inj stepped ▸ .of_silent m.errors_resume
  | tick => exact Except.ok.inj stepped ▸ outcome_tick coherent
  | stepFrame =>
    obtain ⟨unloaded, rfl⟩ | ⟨loaded, b, begun, rfl⟩ := step_stepFrame_inv stepped
    · rw [Op.calls, if_pos unloaded]
      exact .of_silent rfl
    · have begins := reaches_beginFrame begun
      rw [Op.calls, if_neg loaded, begun]
      exact .of_reaches begins ((outcome_tick (begins.coherent coherent)).reaches
        b.tick.reaches_finishFrame fun _ member => serves_of_mem_drawCalls member)
  | _ =>
    exact .goesOn (fun c member => Op.serves_of_goesOn rfl member)
      (reaches_step rfl stepped).console.errors

/-! ### The interpreters that a machine relies on -/

/-- Whether an operation that leads from machine `m` to machine `n` spares the program that a pause
keeps: no start fails, and none is made with another interpreter. -/
def Op.SparesPause (op : Op σ) (m n : Machine σ) : Prop :=
  ∀ s, m.paused = some s → n.console.errors = m.console.errors ∧
    ∀ index code, ⟨index, .init code true⟩ ∈ op.calls m →
      ∀ kept, s.state.interpreter = some kept → index = kept

/-- Whether the operations of a run spare the programs that pauses keep. -/
def SparesPauses (m : Machine σ) : List (Op σ) → Prop
  | [] => True
  | op :: ops =>
    match op.step m with
    | .ok n => op.SparesPause m n ∧ n.SparesPauses ops
    | .error _ => True

structure Served (m : Machine σ) (h : List Call) : Prop where
  now : ∀ i, m.bound = some i → Serving h i
  kept : ∀ s, m.paused = some s → ∀ i, s.state.interpreter = some i → Serving h i

theorem Served.resume {m : Machine σ} {h : List Call} (served : m.Served h) :
    m.resume.Served h := by
  unfold Machine.resume
  split
  case h_1 => exact served
  case h_2 s paused =>
    constructor
    · exact served.kept s paused
    · rintro t ⟨⟩

theorem Served.kept_step {op : Op σ} {m n : Machine σ} {h : List Call} (coherent : m.Coherent)
    (served : m.Served h) (spares : op.SparesPause m n) (stepped : op.step m = .ok n)
    (now : ∀ i, n.bound = some i → Serving (h ++ op.calls m) i) :
    ∀ s, n.paused = some s → ∀ i, s.state.interpreter = some i → Serving (h ++ op.calls m) i := by
  intro s paused i bound
  have passes : Passes m (.operate op) n := passes_step stepped
  cases passes with
  | clock clock =>
    rw [Op.calls, List.append_nil]
    exact served.kept s paused i bound
  | pause active =>
    -- what the pause keeps is what is bound when it begins
    rw [Machine.pause, active] at paused
    cases paused
    rw [Op.calls, List.append_nil]
    exact served.now i bound
  | @resume t before =>
    rw [Machine.resume, before] at paused
    cases paused
  | inserts _ _ _ _ ended =>
    rw [ended] at paused
    cases paused
  | elapses kept _ elapses =>
    rw [elapses.paused] at paused
    obtain ⟨silent, same⟩ := spares s paused
    cases outcome_step coherent kept stepped with
    | goesOn serve => exact (served.kept s paused i bound).append serve
    | @starts index code started live =>
      -- what is started in the pause is the interpreter that the pause keeps
      obtain rfl := same index code started i bound
      exact now index live
    | fails _ e reported =>
      rw [silent] at reported
      exact absurd (List.self_eq_append_right.mp reported) (List.cons_ne_nil _ _)

theorem Served.step {op : Op σ} {m n : Machine σ} {h : List Call} (coherent : m.Coherent)
    (served : m.Served h) (spares : op.SparesPause m n) (stepped : op.step m = .ok n) :
    n.Served (h ++ op.calls m) ∧
      ∀ earlier c, earlier ++ [c] <+: op.calls m → c.callback.Serves →
        Serving (h ++ earlier) c.interpreter := by
  by_cases ends : op = .resume
  · subst ends
    rw [← Except.ok.inj stepped, Op.calls, List.append_nil]
    refine ⟨served.resume, fun earlier c inside => ?_⟩
    exact absurd (List.prefix_nil.mp inside) (by simp)
  -- any other operation is a conversation that begins with the interpreter that is bound
  · obtain ⟨now, delivered⟩ := (converses_step coherent ends stepped).serving served.now
    exact ⟨⟨now, served.kept_step coherent spares stepped now⟩, delivered⟩

theorem prefix_append_cases {α : Type} {front k l : List α} {x : α}
    (inside : front ++ [x] <+: k ++ l) :
    front ++ [x] <+: k ∨ ∃ rest, front = k ++ rest ∧ rest ++ [x] <+: l := by
  obtain ⟨tail, same⟩ := inside
  rcases List.append_eq_append_iff.mp same with ⟨more, first, _⟩ | ⟨more, first, second⟩
  · exact .inl ⟨more, first.symm⟩
  · rcases List.eq_nil_or_concat more with rfl | ⟨rest, last, rfl⟩
    · exact .inl ⟨[], by rw [List.append_nil, first, List.append_nil]⟩
    · rw [List.concat_eq_append, ← List.append_assoc] at first
      obtain ⟨rfl, rfl⟩ := List.append_singleton_inj.mp first
      exact .inr ⟨rest, rfl, tail, by rw [second, List.concat_eq_append]⟩

theorem Served.run {ops : List (Op σ)} {m n : Machine σ} {h : List Call} (coherent : m.Coherent)
    (served : m.Served h) (spares : m.SparesPauses ops) (ran : m.run ops = .ok n) :
    n.Served (h ++ m.runCalls ops) ∧
      ∀ earlier c, earlier ++ [c] <+: m.runCalls ops → c.callback.Serves →
        Serving (h ++ earlier) c.interpreter := by
  induction ops generalizing m h with
  | nil =>
    cases ran
    rw [runCalls, List.append_nil]
    refine ⟨served, fun earlier c inside => ?_⟩
    exact absurd (List.prefix_nil.mp inside) (by simp)
  | cons op rest ih =>
    obtain ⟨next, stepped, later⟩ := run_cons_inv ran
    rw [SparesPauses, stepped] at spares
    obtain ⟨first, delivered⟩ := served.step coherent spares.1 stepped
    obtain ⟨last, onward⟩ := ih (coherent_step coherent stepped) first spares.2 later
    rw [runCalls_cons stepped]
    refine ⟨List.append_assoc h _ _ ▸ last, fun earlier c inside serves => ?_⟩
    rcases prefix_append_cases inside with sooner | ⟨tail, rfl, after⟩
    · exact delivered earlier c sooner serves
    · rw [← List.append_assoc]
      exact onward tail c after serves

/-! ### The errors of a cart -/

/-- Since the errors `earlier` nothing has been reported, or one error. In the second case the machine
waits for a cart, and it waits where a pause ends. -/
inductive Reported (earlier : List String) (m : Machine σ) : Prop
  | nothing (same : m.console.errors = earlier)
  | once (e : StartError) (reported : m.console.errors = earlier ++ [e.message]) (waits : m.Waits)
      (kept : ∀ s, m.paused = some s → s.lifecycle.Waits)

theorem Passes.kept_waits {act : HostAct σ} {m n : Machine σ} (passes : Passes m act n)
    (waits : n.Waits) (before : ∀ s, m.paused = some s → s.lifecycle.Waits) :
    ∀ s, n.paused = some s → s.lifecycle.Waits := by
  intro s paused
  cases passes with
  | clock clock => exact before s paused
  | pause active =>
    -- the machine keeps what it is itself
    rw [Machine.pause, active] at paused waits
    cases paused
    exact waits
  | @resume t kept =>
    rw [Machine.resume, kept] at paused
    cases paused
  | inserts _ _ _ _ ended =>
    rw [ended] at paused
    cases paused
  | elapses _ _ elapses =>
    rw [elapses.paused] at paused
    exact before s paused

theorem Waits.resume {m : Machine σ} (waits : m.Waits)
    (kept : ∀ s, m.paused = some s → s.lifecycle.Waits) : m.resume.Waits := by
  unfold Machine.resume
  split
  case h_1 => exact waits
  case h_2 s paused => exact kept s paused

theorem Reported.step {op : Op σ} {m n : Machine σ} {earlier : List String} (coherent : m.Coherent)
    (reported : Reported earlier m) (unchanged : ∀ cart, op ≠ .loadCart cart)
    (spares : op.SparesPause m n) (stepped : op.step m = .ok n) : Reported earlier n := by
  have passes : Passes m (.operate op) n := passes_step stepped
  cases reported with
  | nothing same =>
    by_cases inserts : (HostAct.operate op).InsertsCart
    · -- a cart is taken out here, since none is loaded
      cases op with
      | loadCart cart => exact absurd rfl (unchanged cart)
      | unload => exact Except.ok.inj stepped ▸ .nothing (m.inserts_unload.errors.trans same)
      | _ => exact inserts.elim
    · cases outcome_step coherent inserts stepped with
      | goesOn _ errors => exact .nothing (errors.trans same)
      | starts _ _ errors => exact .nothing (errors.trans same)
      | fails waits e failed =>
        -- no start fails in a pause, so there is none that could bring the machine back
        refine .once e (same ▸ failed) waits (passes.kept_waits waits fun s paused => ?_)
        rw [(spares s paused).1] at failed
        exact absurd (List.self_eq_append_right.mp failed) (List.cons_ne_nil _ _)
  | once e reported waits kept =>
    by_cases ends : op = .resume
    · subst ends
      have waiting := waits.resume kept
      rw [← Except.ok.inj stepped] at passes ⊢
      exact .once e (m.errors_resume.trans reported) waiting (passes.kept_waits waiting kept)
    · obtain ⟨_, waiting, silent⟩ := waits.step ends unchanged stepped
      exact .once e (silent.trans reported) waiting (passes.kept_waits waiting kept)

theorem Reported.run {ops : List (Op σ)} {m n : Machine σ} {earlier : List String}
    (coherent : m.Coherent) (reported : Reported earlier m)
    (unchanged : ∀ cart, .loadCart cart ∉ ops) (spares : m.SparesPauses ops)
    (ran : m.run ops = .ok n) : Reported earlier n := by
  induction ops generalizing m with
  | nil =>
    cases ran
    exact reported
  | cons op rest ih =>
    obtain ⟨next, stepped, later⟩ := run_cons_inv ran
    rw [SparesPauses, stepped] at spares
    have others (cart : Cart) := not_or.mp (fun member => unchanged cart (List.mem_cons.mpr member))
    exact ih (coherent_step coherent stepped)
      (reported.step coherent (fun cart same => (others cart).1 same.symm) spares.1 stepped)
      (fun cart => (others cart).2) spares.2 later

theorem sparesPauses_append {before after : List (Op σ)} {m n : Machine σ}
    (spares : m.SparesPauses (before ++ after)) (ran : m.run before = .ok n) :
    n.SparesPauses after := by
  induction before generalizing m with
  | nil =>
    cases ran
    exact spares
  | cons op rest ih =>
    obtain ⟨next, stepped, later⟩ := run_cons_inv ran
    rw [List.cons_append, SparesPauses, stepped] at spares
    exact ih spares.2 later

/-! ### Runs with pauses -/

/-- A run whose operations spare the programs that pauses keep. Whenever the machine is running, the
last turn of its interpreter was a start that succeeded; every call that serves a program goes to an
interpreter of which this is so; and since a cart was loaded, at most one error has been reported. -/
theorem sound_across_pauses (config : Config) (clock : Clock) (guest : σ) {ops : List (Op σ)}
    (spares : (new config clock guest).SparesPauses ops) {m : Machine σ}
    (ran : (new config clock guest).run ops = .ok m) :
    (m.console.state.phase = .running → ∃ index, m.console.state.interpreter = some index ∧
      Serving ((new config clock guest).history ops) index) ∧
    (∀ before c, before ++ [c] <+: (new config clock guest).history ops → c.callback.Serves →
      Serving before c.interpreter) ∧
    ∀ before cart after, ops = before ++ .loadCart cart :: after →
      (∀ other, .loadCart other ∉ after) →
      ∀ loaded, (new config clock guest).run (before ++ [.loadCart cart]) = .ok loaded →
        m.console.errors = loaded.console.errors ∨
          ∃ e : StartError, m.console.errors = loaded.console.errors ++ [e.message] := by
  have coherent := coherent_new config clock guest
  have fresh : (new config clock guest).Served [] := by
    constructor
    · rintro i ⟨⟩
    · rintro s ⟨⟩
  obtain ⟨served, delivered⟩ := fresh.run coherent spares ran
  rw [history_eq ran]
  refine ⟨fun running => ?_, delivered, ?_⟩
  · have bound := (coherent_run ran).now.running running
    obtain ⟨index, bound⟩ := Option.ne_none_iff_exists'.mp bound
    exact ⟨index, bound, served.now index bound⟩
  · intro before cart after parts unchanged loaded first
    rw [List.append_cons] at parts
    subst parts
    obtain ⟨n, reached, later⟩ := run_append_inv ran
    obtain rfl : loaded = n := Except.ok.inj (first.symm.trans reached)
    -- what was reported before the cart was loaded is the beginning of the list
    cases Reported.run (coherent_run first) (.nothing rfl) unchanged
      (sparesPauses_append spares first) later with
    | nothing same => exact .inl same
    | once e reported => exact .inr ⟨e, reported⟩

theorem Op.sparesPause_of_active {op : Op σ} {m n : Machine σ} (active : m.paused = none) :
    op.SparesPause m n := by
  intro s paused
  cases active.symm.trans paused

/-- A cart without text that is tried before the pause is reported once. -/
theorem sound_across_pauses_blank :
    let start : Machine Unit := new {} {} ()
    let loaded := start.loadCart Cart.blank
    loaded.tick.pause.resume.tick.console.errors = loaded.console.errors ∨
      ∃ e : StartError, loaded.tick.pause.resume.tick.console.errors =
        loaded.console.errors ++ [e.message] := by
  intro start loaded
  have active : loaded.tick.paused = none := loaded.elapses_tick.paused
  have ends : (Op.resume : Op Unit).SparesPause loaded.tick.pause loaded.tick.pause.resume :=
    fun s _ => ⟨errors_resume _, fun _ _ called => absurd called List.not_mem_nil⟩
  have spares : start.SparesPauses [.loadCart Cart.blank, .tick, .pause, .resume, .tick] :=
    ⟨Op.sparesPause_of_active rfl, Op.sparesPause_of_active rfl, Op.sparesPause_of_active active,
      ends, Op.sparesPause_of_active (paused_resume _), trivial⟩
  exact (sound_across_pauses {} {} () spares rfl).2.2 [] Cart.blank [.tick, .pause, .resume, .tick]
    rfl (by simp) loaded rfl

/-! ### Pauses that are not spared -/

theorem state_resume {m n : Machine σ} (active : m.paused = none)
    (kept : n.paused = m.pause.paused) : n.resume.console.state = m.console.state := by
  rw [pause, active] at kept
  rw [resume, kept]
  rfl

theorem code_resume (m : Machine σ) : m.resume.console.cart.code = m.console.cart.code := by
  unfold resume
  split <;> rfl

theorem not_serving_of_closed (h : List Call) (index other : Nat) (code : String) :
    ¬ Serving (h ++ [⟨index, .close⟩, ⟨other, .init code false⟩]) index := by
  rintro ⟨text, last⟩
  rw [turns_append] at last
  by_cases same : other = index
  · simp [turns, Callback.Serves, same] at last
  · simp [turns, Callback.Serves, same] at last

/-- A running program that is reset in a pause and cannot be started again comes back to life where
the pause ends: it goes on with an interpreter that has been closed. -/
theorem revived_of_failed {m n : Machine σ} {index : Nat} {e : StartError} (coherent : m.Coherent)
    (active : m.paused = none) (running : m.console.state.phase = .running)
    (bound : m.bound = some index) (fails : m.pause.reset.startProgram = (some e, n))
    (h : List Call) :
    ∃ r, m.run [.pause, .reset, .tick, .resume] = .ok r ∧
      r.console.state = m.console.state ∧ r.tickCalls = [⟨index, .tick⟩] ∧
      ¬ Serving (h ++ m.runCalls [.pause, .reset, .tick, .resume]) index := by
  have reset := m.pause.reaches_reset
  have ready : m.pause.reset.Coherent := reset.coherent (coherent_pause coherent)
  have live : m.pause.reset.bound = some index := by
    rw [reset.bound_eq, bound_pause, bound]
  have lifecycle : m.pause.reset.console.lifecycle = m.console.lifecycle.reset := by
    refine (Console.lifecycle_reset _).trans (congrArg Lifecycle.reset ?_)
    rw [pause, active]
    rfl
  have initializing : m.pause.reset.console.state.phase = .initializing := by
    refine (congrArg Lifecycle.phase lifecycle).trans (if_neg ?_)
    exact fun unloaded => Phase.noConfusion (running.symm.trans unloaded)
  have accepted : m.pause.reset.console.state.rejected = false :=
    (congrArg Lifecycle.rejected lifecycle).trans (coherent.now.consistent.running running).2
  -- the start closes the interpreter before it fails
  have calls : ∃ other code, m.pause.reset.tickCalls =
      [⟨index, .close⟩, ⟨other, .init code false⟩] := by
    rw [tickCalls_of_failed initializing accepted fails]
    obtain ⟨rfl, _⟩ | ⟨other, code, calls⟩ := startCalls_of_failed fails
    · cases live.symm.trans (ready.bound_failed initializing fails)
    · refine ⟨other, code, ?_⟩
      rw [calls, callsTo_some (ready.live_eq.trans live)]
      rfl
  have state : m.pause.reset.tick.resume.console.state = m.console.state :=
    state_resume active ((elapses_tick _).paused.trans reset.paused)
  have back : m.pause.reset.tick.resume.Coherent := coherent_resume (coherent_tick ready)
  have again : m.pause.reset.tick.resume.live = some index := by
    rw [back.live_eq, Machine.bound, state]
    exact bound
  refine ⟨_, rfl, state, ?_, ?_⟩
  · rw [tickCalls, state, running]
    exact callsTo_some again _
  · obtain ⟨other, code, calls⟩ := calls
    have whole : m.runCalls [.pause, .reset, .tick, .resume] = m.pause.reset.tickCalls := by
      simp [runCalls, Op.calls, Op.step]
    rw [whole, calls]
    exact not_serving_of_closed h index other code

theorem tick_of_emptyCode {m : Machine σ} (initializing : m.console.state.phase = .initializing)
    (accepted : m.console.state.rejected = false) (empty : m.console.cart.code.isEmpty = true) :
    m.tick = m.reject .emptyCode := by
  simp [tick, initializing, accepted, startProgram_of_emptyCode empty]

/-- A cart without text that is tried in a pause is reported there, and again after the pause. -/
theorem reported_again_of_emptyCode {m : Machine σ} (active : m.paused = none)
    (initializing : m.console.state.phase = .initializing)
    (accepted : m.console.state.rejected = false) (empty : m.console.cart.code.isEmpty = true) :
    m.pause.tick.resume.tick.console.errors = m.console.errors ++
      [StartError.emptyCode.message, StartError.emptyCode.message] := by
  have begun : m.pause.console.lifecycle = m.console.lifecycle ∧
      m.pause.console.cart.code = m.console.cart.code := by
    rw [pause, active]
    exact ⟨rfl, rfl⟩
  have first : m.pause.tick = m.pause.reject .emptyCode :=
    tick_of_emptyCode ((congrArg Lifecycle.phase begun.1).trans initializing)
      ((congrArg Lifecycle.rejected begun.1).trans accepted) (begun.2 ▸ empty)
  -- the rejection is lost with the rest of the state
  have state : m.pause.tick.resume.console.state = m.console.state :=
    state_resume active m.pause.elapses_tick.paused
  have text : m.pause.tick.resume.console.cart.code = m.console.cart.code := by
    rw [code_resume, first]
    exact begun.2
  have second : m.pause.tick.resume.tick = m.pause.tick.resume.reject .emptyCode :=
    tick_of_emptyCode (state ▸ initializing) (state ▸ accepted) (text ▸ empty)
  rw [second, errors_reject, errors_resume, first, errors_reject, errors_pause, List.append_assoc]
  rfl

/-- One cart is loaded, and two errors are reported. -/
theorem blank_reported_twice :
    let ops : List (Op Unit) := [.loadCart Cart.blank, .pause, .tick, .resume, .tick]
    ∃ m, (new {} {} ()).run ops = .ok m ∧
      m.console.errors = [StartError.emptyCode.message, StartError.emptyCode.message] := by
  intro ops
  have inserted := (new {} {} ()).inserts_loadCart Cart.blank
  have twice := reported_again_of_emptyCode inserted.paused
    (congrArg Lifecycle.phase inserted.lifecycle) (congrArg Lifecycle.rejected inserted.lifecycle)
    (inserted.code ▸ rfl)
  refine ⟨_, rfl, twice.trans ?_⟩
  rw [inserted.errors]
  rfl

end Machine

end FantasyConsole
