import FantasyConsole.Proofs.Machine.TimeBase

/-!
# The id of a saved state

A saved state carries the id under which the host keeps it. The id is read from the text of a cart
where the cart is loaded, and stands beside the cart from then on; it is no part of what a pause
puts back.

## Main result

`Machine.saveId_of_session`: with all interpreters registered before, a saved state has the id of
the cart that was loaded last, which is the cart in place unless that one has been removed.

## Proof strategy

Acts other than loading and removing a cart keep the text, the id, the interpreters and whether
there is a cart. A pause keeps a state with a cart exactly if there is one, so its end keeps them
too.
-/

namespace FantasyConsole

theorem Lifecycle.phase_reset_eq_unloaded (l : Lifecycle) :
    l.reset.phase = .unloaded ↔ l.phase = .unloaded := by
  unfold reset
  split
  case isTrue unloaded => exact iff_of_true rfl unloaded
  case isFalse loaded => exact iff_of_false Phase.noConfusion loaded

theorem Console.Continues.unloaded_iff {c d : Console} (continues : Continues c d) :
    d.state.phase = .unloaded ↔ c.state.phase = .unloaded := by
  rcases continues.lifecycle with same | same
  · rw [show d.state.phase = c.state.phase from congrArg Lifecycle.phase same]
  · rw [show d.state.phase = c.lifecycle.reset.phase from congrArg Lifecycle.phase same]
    exact c.lifecycle.phase_reset_eq_unloaded

namespace Machine

variable {σ : Type}

/-! ### Acts that keep the cart -/

/-- Machine `n` has the cart of machine `m`, if any, with the same id and interpreters. -/
structure KeepsCart (m n : Machine σ) : Prop where
  code : n.console.cart.code = m.console.cart.code
  saveId : n.console.saveId = m.console.saveId
  interpreters : n.interpreters = m.interpreters
  unloaded : n.console.state.phase = .unloaded ↔ m.console.state.phase = .unloaded

theorem KeepsCart.refl (m : Machine σ) : KeepsCart m m := ⟨rfl, rfl, rfl, .rfl⟩

theorem KeepsCart.trans {m n o : Machine σ} (first : KeepsCart m n) (second : KeepsCart n o) :
    KeepsCart m o where
  code := second.code.trans first.code
  saveId := second.saveId.trans first.saveId
  interpreters := second.interpreters.trans first.interpreters
  unloaded := second.unloaded.trans first.unloaded

theorem Continues.keepsCart {m n : Machine σ} (continues : m.Continues n) : KeepsCart m n where
  code := continues.console.code
  saveId := continues.console.saveId
  interpreters := continues.interpreters
  unloaded := continues.console.unloaded_iff

theorem saveId_finishStart (index : Nat) (r : Except ScriptError HookSet × Machine σ) :
    (finishStart index r).2.console.saveId = r.2.console.saveId := by
  obtain ⟨result, m⟩ := r
  cases result <;> rfl

theorem saveId_startProgram (m : Machine σ) :
    m.startProgram.2.console.saveId = m.console.saveId := by
  obtain ⟨_, ended⟩ | ⟨_, _, ended⟩ | ⟨index, interp, _, _, _, ended⟩ := m.startProgram_cases
  · rw [ended]
  · rw [ended]
  · -- a program that resets the console as it starts keeps the id too
    have called := (m.continues_preparedFor interp).trans
      ((m.preparedFor interp).reaches_callInit interp m.console.cart.code).toContinues
    rw [ended, saveId_finishStart]
    exact called.console.saveId

theorem keepsCart_startProgram {m : Machine σ} (loaded : m.console.state.phase ≠ .unloaded) :
    KeepsCart m m.startProgram.2 := by
  have saveId := m.saveId_startProgram
  obtain ⟨_, ended⟩ | ⟨_, _, ended⟩ | ⟨_, _, n, _, _, ended, continues⟩ |
    ⟨index, n, ended, starts⟩ := m.startProgram_outcome
  · rw [ended]
    exact .refl m
  · rw [ended]
    exact .refl m
  · rw [ended]
    exact ⟨continues.console.code, continues.console.saveId, continues.interpreters,
      continues.console.unloaded_iff⟩
  · rw [ended] at saveId ⊢
    obtain ⟨hooks, started⟩ := starts.lifecycle
    have running : n.console.state.phase = .running := congrArg Lifecycle.phase started
    refine ⟨starts.code, saveId, starts.interpreters, iff_of_false ?_ loaded⟩
    exact fun unloaded => Phase.noConfusion (running.symm.trans unloaded)

theorem keepsCart_tick (m : Machine σ) : KeepsCart m m.tick := by
  obtain ⟨_, same⟩ | ⟨_, runs⟩ | ⟨initializing, ⟨_, same⟩ | ⟨_, tried⟩⟩ := m.tick_cases
  · rw [same]
    exact .refl m
  · rw [runs]
    exact m.reaches_runProgram.keepsCart
  · rw [same]
    exact .refl m
  · have loaded : m.console.state.phase ≠ .unloaded :=
      fun unloaded => Phase.noConfusion (initializing.symm.trans unloaded)
    have started := keepsCart_startProgram loaded
    obtain ⟨e, n, fails, same⟩ | ⟨n, succeeds, runs⟩ := tried
    · rw [fails] at started
      rw [same]
      exact started.trans ⟨rfl, rfl, rfl, .rfl⟩
    · rw [succeeds] at started
      rw [runs]
      exact started.trans n.reaches_runProgram.keepsCart

/-- Whether the state that a pause keeps has a cart exactly if there is one now. -/
def PauseKeepsCart (m : Machine σ) : Prop :=
  ∀ s, m.paused = some s → (s.state.phase = .unloaded ↔ m.console.state.phase = .unloaded)

theorem PauseKeepsCart.of_keepsCart {m n : Machine σ} (kept : m.PauseKeepsCart)
    (keeps : KeepsCart m n) (paused : n.paused = m.paused) : n.PauseKeepsCart :=
  fun s held => (kept s (paused ▸ held)).trans keeps.unloaded.symm

theorem keepsCart_pause (m : Machine σ) : KeepsCart m m.pause := by
  unfold pause
  split <;> exact ⟨rfl, rfl, rfl, .rfl⟩

theorem pauseKeepsCart_pause {m : Machine σ} (kept : m.PauseKeepsCart) :
    m.pause.PauseKeepsCart := by
  unfold pause
  cases paused : m.paused with
  | some s => exact kept
  | none =>
    -- the pause keeps the state of this moment
    rintro s ⟨⟩
    exact .rfl

theorem keepsCart_resume {m : Machine σ} (kept : m.PauseKeepsCart) : KeepsCart m m.resume := by
  unfold resume
  cases paused : m.paused with
  | none => exact .refl m
  | some s => exact ⟨rfl, rfl, rfl, kept s paused⟩

theorem pauseKeepsCart_of_none {m : Machine σ} (active : m.paused = none) : m.PauseKeepsCart := by
  intro s held
  rw [active] at held
  cases held

/-- Whether an act registers an interpreter, loads a cart or removes one. -/
def HostAct.Installs : HostAct σ → Prop
  | operate (.register _) | operate (.loadCart _) | operate .unload => True
  | _ => False

theorem keepsCart_step {act : HostAct σ} {m n : Machine σ} (kept : m.PauseKeepsCart)
    (other : ¬ act.Installs) (stepped : act.step m = .ok n) :
    KeepsCart m n ∧ n.PauseKeepsCart := by
  -- most acts make the machine go on; the pause is touched by none of these
  have goesOn (reaches : m.Reaches n) : KeepsCart m n ∧ n.PauseKeepsCart :=
    ⟨reaches.keepsCart, kept.of_keepsCart reaches.keepsCart reaches.paused⟩
  cases act with
  | call name args => exact goesOn (reaches_call stepped)
  | operate op =>
    have done : op.step m = .ok n := stepped
    cases op with
    | register | loadCart | unload => exact absurd trivial other
    | tick =>
      rw [← Except.ok.inj done]
      exact ⟨m.keepsCart_tick, kept.of_keepsCart m.keepsCart_tick m.elapses_tick.paused⟩
    | stepFrame =>
      obtain ⟨_, rfl⟩ | ⟨_, b, begun, rfl⟩ := step_stepFrame_inv done
      · exact ⟨.refl n, kept⟩
      · have begins := reaches_beginFrame begun
        have keeps := (begins.keepsCart.trans b.keepsCart_tick).trans
          b.tick.reaches_finishFrame.keepsCart
        exact ⟨keeps, kept.of_keepsCart keeps (b.elapses_frame.paused.trans begins.paused)⟩
    | pause =>
      rw [← Except.ok.inj done]
      exact ⟨m.keepsCart_pause, pauseKeepsCart_pause kept⟩
    | resume =>
      rw [← Except.ok.inj done]
      exact ⟨keepsCart_resume kept, pauseKeepsCart_of_none m.paused_resume⟩
    | setClock clock =>
      rw [← Except.ok.inj done]
      exact ⟨⟨rfl, rfl, rfl, .rfl⟩, kept⟩
    | _ => exact goesOn (reaches_step rfl done)

/-! ### The id of the cart -/

/-- The cart that an act loads. -/
def HostAct.loaded? : HostAct σ → Option Cart
  | operate (.loadCart cart) => some cart
  | _ => none

/-- The cart that is loaded last. -/
def lastLoaded? (acts : List (HostAct σ)) : Option Cart :=
  acts.reverse.findSome? HostAct.loaded?

theorem lastLoaded?_cons (act : HostAct σ) (acts : List (HostAct σ)) :
    lastLoaded? (act :: acts) = (lastLoaded? acts).or act.loaded? := by
  rw [lastLoaded?, List.reverse_cons, List.findSome?_append, List.findSome?_singleton]
  rfl

/-- The id of a cart, read with the comment mark of the interpreter that runs it; empty without a
cart. -/
def idOf (m : Machine σ) (cart : Option Cart) : String :=
  (cart.map fun cart => Metadata.saveId cart.code (m.commentFor cart.code)).getD ""

theorem idOf_congr {m n : Machine σ} (same : n.interpreters = m.interpreters)
    (cart : Option Cart) : n.idOf cart = m.idOf cart := by
  simp only [idOf, commentFor, same]

/-- A machine on which cart `last` was loaded last. Unless a cart has been removed from it, it has
that cart. -/
structure Holds (last : Option Cart) (removed : Prop) (m : Machine σ) : Prop where
  saveId : m.console.saveId = m.idOf last
  text : m.console.state.phase ≠ .unloaded →
    ∃ cart, last = some cart ∧ m.console.cart.code = cart.code
  missing : m.console.state.phase = .unloaded → last = none ∨ removed
  pause : m.PauseKeepsCart

theorem KeepsCart.holds {last : Option Cart} {removed : Prop} {m n : Machine σ}
    (keeps : KeepsCart m n) (holds : m.Holds last removed) (pause : n.PauseKeepsCart) :
    n.Holds last removed where
  saveId := by rw [keeps.saveId, holds.saveId, idOf_congr keeps.interpreters]
  text := by
    intro loaded
    rw [keeps.code]
    exact holds.text fun unloaded => loaded (keeps.unloaded.mpr unloaded)
  missing := fun unloaded => holds.missing (keeps.unloaded.mp unloaded)
  pause := pause

theorem commentFor_insertCart (m : Machine σ) (cart : Cart) (phase : Phase) (code : String) :
    (m.closeProgram.insertCart cart phase).commentFor code = m.commentFor code := by
  have kept : (m.closeProgram.insertCart cart phase).interpreters = m.interpreters :=
    m.interpreters_closeProgram
  rw [commentFor, commentFor, kept]

theorem saveId_loadCart (m : Machine σ) (cart : Cart) :
    (m.loadCart cart).console.saveId = m.idOf (some cart) := by
  unfold loadCart
  refine (Console.reaches_log _ _ _ _).saveId.trans ((Console.reaches_reset _).saveId.trans ?_)
  exact congrArg (Metadata.saveId cart.code) (m.commentFor_insertCart cart _ _)

theorem saveId_unload (m : Machine σ) : m.unload.console.saveId = m.console.saveId := by
  have reset := (m.closeProgram.insertCart .blank .unloaded).console.reaches_reset
  exact reset.saveId.trans m.reaches_closeProgram.console.saveId

theorem holds_loadCart (m : Machine σ) (cart : Cart) (removed : Prop) :
    (m.loadCart cart).Holds (some cart) removed where
  saveId := by
    rw [m.saveId_loadCart, idOf_congr (m.inserts_loadCart cart).interpreters]
  text := fun _ => ⟨cart, rfl, (m.inserts_loadCart cart).code⟩
  missing := by
    intro unloaded
    have phase := congrArg Lifecycle.phase (m.inserts_loadCart cart).lifecycle
    exact Phase.noConfusion (phase.symm.trans unloaded)
  pause := pauseKeepsCart_of_none (m.inserts_loadCart cart).paused

/-- Where a cart is removed its id stays. -/
theorem Holds.unload {last : Option Cart} {removed : Prop} {m : Machine σ}
    (holds : m.Holds last removed) : m.unload.Holds last True where
  saveId := by rw [m.saveId_unload, holds.saveId, idOf_congr m.inserts_unload.interpreters]
  text := fun loaded => absurd (congrArg Lifecycle.phase m.inserts_unload.lifecycle) loaded
  missing := fun _ => .inr trivial
  pause := pauseKeepsCart_of_none m.inserts_unload.paused

theorem Holds.step {last : Option Cart} {removed : Prop} {act : HostAct σ} {m n : Machine σ}
    (holds : m.Holds last removed) (settled : ∀ interp, act ≠ .operate (.register interp))
    (stepped : act.step m = .ok n) :
    n.Holds (act.loaded?.or last) (removed ∨ act = .operate .unload) := by
  by_cases installs : act.Installs
  · obtain ⟨op, rfl⟩ : ∃ op, act = .operate op := by
      cases act with
      | operate op => exact ⟨op, rfl⟩
      | call => exact installs.elim
    have done : op.step m = .ok n := stepped
    cases op with
    | register interp => exact absurd rfl (settled interp)
    | loadCart cart => exact Except.ok.inj done ▸ m.holds_loadCart cart _
    | unload =>
      have gone := Except.ok.inj done ▸ holds.unload
      exact ⟨gone.saveId, gone.text, fun _ => .inr (.inr rfl), gone.pause⟩
    | _ => exact installs.elim
  · obtain ⟨keeps, pause⟩ := keepsCart_step holds.pause installs stepped
    have loads : act.loaded? = none := by
      cases act with
      | call => rfl
      | operate op =>
        cases op with
        | loadCart => exact absurd trivial installs
        | _ => rfl
    have kept := keeps.holds holds pause
    rw [loads, Option.none_or]
    exact ⟨kept.saveId, kept.text, fun unloaded => (kept.missing unloaded).imp_right .inl, pause⟩

theorem Holds.perform {last : Option Cart} {removed : Prop} {acts : List (HostAct σ)}
    {m n : Machine σ} (holds : m.Holds last removed)
    (settled : ∀ interp, .operate (.register interp) ∉ acts) (performed : m.perform acts = .ok n) :
    n.Holds ((lastLoaded? acts).or last) (removed ∨ .operate .unload ∈ acts) := by
  induction acts generalizing m last removed with
  | nil =>
    cases performed
    exact ⟨holds.saveId, holds.text, fun unloaded => (holds.missing unloaded).imp_right .inl,
      holds.pause⟩
  | cons act rest ih =>
    obtain ⟨next, stepped, later⟩ := perform_cons_inv performed
    have first := holds.step (fun interp same => settled interp (same ▸ List.mem_cons_self)) stepped
    have all := ih first (fun interp member => settled interp (List.mem_cons_of_mem _ member)) later
    rw [← Option.or_assoc, ← lastLoaded?_cons, or_assoc, eq_comm, ← List.mem_cons] at all
    exact all

theorem holds_new (config : Config) (clock : Clock) (guest : σ) :
    (new config clock guest).Holds none False where
  saveId := rfl
  text := fun loaded => absurd rfl loaded
  missing := fun _ => .inl rfl
  pause := pauseKeepsCart_of_none rfl

theorem holds_registered {removed : Prop} (interps : List (Interpreter σ)) {m : Machine σ}
    (holds : m.Holds none removed) : (interps.foldl register m).Holds none removed := by
  induction interps generalizing m with
  | nil => exact holds
  | cons interp rest ih =>
    have unnamed : (m.register interp).console.saveId = "" := holds.saveId
    exact ih ⟨unnamed, holds.text, holds.missing, holds.pause⟩

/-- The id that belongs to the cart in place, empty where there is no cart. -/
def ownId (m : Machine σ) : String :=
  if m.console.state.phase = .unloaded then ""
  else Metadata.saveId m.console.cart.code (m.commentFor m.console.cart.code)

theorem saveId_of_unnamed {code comment : String}
    (unnamed : Metadata.tag? code "saveid" comment = none) : Metadata.saveId code comment = "" := by
  rw [Metadata.saveId, unnamed]
  rfl

/-- After any session on a machine whose interpreters have all been registered before, a saved state
has the id of the cart that was loaded last, and none if none was loaded. As long as that cart is in
place, it is the cart's own id. Where no cart has been removed, a machine without a cart has no id,
so a saved state always has the id of the cart in place. A cart that names no id has none. -/
theorem saveId_of_session (config : Config) (clock : Clock) (guest : σ)
    (interps : List (Interpreter σ)) {acts : List (HostAct σ)}
    (settled : ∀ interp, .operate (.register interp) ∉ acts) {m : Machine σ}
    (performed : (interps.foldl register (new config clock guest)).perform acts = .ok m) :
    m.saveState.member? "saveid" = some (.text (m.idOf (lastLoaded? acts))) ∧
    (m.console.state.phase ≠ .unloaded →
      m.saveState.member? "saveid" = some (.text m.ownId) ∧
      ∃ cart, lastLoaded? acts = some cart ∧ m.console.cart.code = cart.code) ∧
    (.operate .unload ∉ acts → m.saveState.member? "saveid" = some (.text m.ownId)) ∧
    (Metadata.tag? m.console.cart.code "saveid" (m.commentFor m.console.cart.code) = none →
      m.ownId = "") := by
  have holds := (holds_registered interps (holds_new config clock guest)).perform settled performed
  rw [Option.or_none, false_or] at holds
  have saved : m.saveState.member? "saveid" = some (.text m.console.saveId) := rfl
  have own (loaded : m.console.state.phase ≠ .unloaded) : m.console.saveId = m.ownId := by
    obtain ⟨cart, last, text⟩ := holds.text loaded
    rw [holds.saveId, last, ownId, if_neg loaded, text]
    rfl
  refine ⟨?_, ?_, ?_, ?_⟩
  · rw [saved, holds.saveId]
  · intro loaded
    rw [saved, own loaded]
    exact ⟨rfl, holds.text loaded⟩
  · intro present
    by_cases unloaded : m.console.state.phase = .unloaded
    · have never := (holds.missing unloaded).resolve_right present
      rw [saved, holds.saveId, never, ownId, if_pos unloaded]
      rfl
    · rw [saved, own unloaded]
  · intro unnamed
    rw [ownId, saveId_of_unnamed unnamed, ite_self]

theorem idOf_restless {m : Machine Unit} (single : m.interpreters = #[restless]) (cart : Cart) :
    m.idOf (some cart) = Metadata.saveId cart.code "--" := by
  have mark : m.commentFor cart.code = "--" := by
    rw [commentFor, single]
    cases served : Interpreter.select? #[restless] cart.code with
    | none => cases Interpreter.select?_eq_none served
    | some index =>
      obtain rfl := Nat.lt_one_iff.mp (Interpreter.select?_lt served)
      rfl
  rw [← mark]
  rfl

/-- A cart that is loaded after another one has its own id, also after a reset. -/
theorem saveId_of_session_second :
    let first : Cart := { Cart.blank with code := "-- saveid: one\n" }
    let second : Cart := { Cart.blank with code := "x = 1\n-- saveid:  two \n" }
    let started := (((new {} {} ()).register restless).loadCart first).tick
    let loaded := (started.loadCart second).tick
    let reset := loaded.mapConsole fun c => (Api.call "reset" [] c).2
    reset.tick.saveState.member? "saveid" = some (.text "two") := by
  intro first second started loaded reset
  let acts : List (HostAct Unit) :=
    [.operate (.loadCart first), .operate .tick, .operate (.loadCart second), .operate .tick,
      .call "reset" [], .operate .tick]
  have settled (interp : Interpreter Unit) : .operate (.register interp) ∉ acts := by simp [acts]
  have performed : ([restless].foldl register (new {} {} ())).perform acts = .ok reset.tick := rfl
  have last : lastLoaded? acts = some second := rfl
  have one : started.interpreters = #[restless] :=
    (keepsCart_tick _).interpreters.trans (inserts_loadCart _ first).interpreters
  have two : loaded.interpreters = #[restless] :=
    ((keepsCart_tick _).interpreters.trans (started.inserts_loadCart second).interpreters).trans one
  have called : loaded.Reaches reset :=
    reaches_mapConsole (Api.reaches_call "reset" [] loaded.console)
  have single := reset.keepsCart_tick.interpreters.trans (called.interpreters.trans two)
  have named : Metadata.saveId second.code "--" = "two" := by decide
  have saved := (saveId_of_session {} {} () [restless] settled performed).1
  rw [saved, last, idOf_restless single, named]

/-- The id of a cart that has been removed is still the id of a saved state. -/
theorem saveId_outlives_cart :
    let cart : Cart := { Cart.blank with code := "-- saveid: game\n" }
    ∃ m, ([restless].foldl register (new {} {} ())).perform
        [.operate (.loadCart cart), .operate .unload] = .ok m ∧
      m.console.state.phase = .unloaded ∧ m.ownId = "" ∧
      m.saveState.member? "saveid" = some (.text "game") := by
  intro cart
  have removed := (((new {} {} ()).register restless).loadCart cart).inserts_unload
  have unloaded : _ = Phase.unloaded := congrArg Lifecycle.phase removed.lifecycle
  refine ⟨_, rfl, unloaded, if_pos unloaded, ?_⟩
  have saved : Metadata.saveId cart.code "--" = "game" := by decide
  rw [← saved, ← idOf_restless (m := (new {} {} ()).register restless) rfl cart,
    ← saveId_loadCart, ← saveId_unload]
  rfl

end Machine

end FantasyConsole
