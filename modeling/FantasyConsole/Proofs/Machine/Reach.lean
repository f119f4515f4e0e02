import FantasyConsole.Proofs.Guest.Reach
import FantasyConsole.Proofs.Machine.Cases
import FantasyConsole.Proofs.Machine.Run
import FantasyConsole.Proofs.Raster.Moves

/-!
# What the operations of a machine cannot reach

Most operations leave the lifecycle of the program alone, except where a callback resets the console.
The others end or start a program: what they make of the lifecycle is said here case by case.
-/

namespace FantasyConsole

namespace Machine

variable {σ : Type}

/-- The same program goes on from machine `m` to machine `n`, unless it has been reset. -/
structure Continues (m n : Machine σ) : Prop where
  console : m.console.Continues n.console
  interpreters : n.interpreters = m.interpreters
  paused : n.paused = m.paused

theorem Continues.refl (m : Machine σ) : Continues m m := ⟨.refl m.console, rfl, rfl⟩

theorem Continues.trans {m n o : Machine σ} (first : Continues m n) (second : Continues n o) :
    Continues m o where
  console := first.console.trans second.console
  interpreters := second.interpreters.trans first.interpreters
  paused := second.paused.trans first.paused

/-- The same program goes on from machine `m` to machine `n`, and at the same time. -/
structure Reaches (m n : Machine σ) : Prop extends Continues m n where
  clock : n.console.clock = m.console.clock
  start : n.console.start = m.console.start

theorem Reaches.refl (m : Machine σ) : Reaches m m := ⟨.refl m, rfl, rfl⟩

theorem Reaches.trans {m n o : Machine σ} (first : Reaches m n) (second : Reaches n o) :
    Reaches m o where
  toContinues := first.toContinues.trans second.toContinues
  clock := second.clock.trans first.clock
  start := second.start.trans first.start

/-! ### Operations under which the program goes on -/

theorem reaches_mapConsole {m : Machine σ} {f : Console → Console}
    (reaches : m.console.Reaches (f m.console)) : m.Reaches (m.mapConsole f) :=
  ⟨⟨reaches.toContinues, rfl, rfl⟩, reaches.clock, reaches.start⟩

theorem reaches_runGuest (m : Machine σ) (program : σ → Guest σ) :
    m.Reaches (m.runGuest program) := by
  have ran := (program m.guest).reaches_run m.console
  exact ⟨⟨ran.toContinues, rfl, rfl⟩, ran.clock, ran.start⟩

theorem reaches_setInput (m : Machine σ) (input : DeviceInput) :
    m.Reaches (m.setInput input) :=
  reaches_mapConsole (m.console.reaches_setRam _)

theorem reaches_begun (m : Machine σ) (r : Sound × Ram) : m.Reaches (m.begun r) :=
  reaches_mapConsole (m.console.reaches_update _ _ rfl rfl)

theorem reaches_beginFrame {m n : Machine σ} (begins : m.beginFrame = .ok n) :
    m.Reaches n := by
  rw [beginFrame_eq] at begins
  cases sound : m.console.state.sound.beginFrame m.console.ram with
  | error cause => rw [sound] at begins; cases begins
  | ok r =>
    rw [sound] at begins
    cases begins
    exact m.reaches_begun r

theorem reaches_endFrame (m : Machine σ) : m.Reaches m.endFrame :=
  reaches_mapConsole (m.console.reaches_update _ _ rfl rfl)

theorem reaches_render (m : Machine σ) : m.Reaches m.render :=
  ⟨⟨.of_eq rfl rfl rfl rfl, rfl, rfl⟩, rfl, rfl⟩

theorem reaches_reset (m : Machine σ) : m.Reaches m.reset :=
  reaches_mapConsole m.console.reaches_reset

theorem reaches_restoreWords (m : Machine σ) (words : List UInt32) :
    m.Reaches (m.restoreWords words) :=
  reaches_mapConsole (m.console.reaches_setRam _)

theorem reaches_loadState (m : Machine σ) (saved : Json) :
    m.Reaches ((m.loadState? saved).getD m) := by
  obtain same | ⟨words, restored⟩ := m.loadState_cases saved
  · rw [same]
    exact .refl m
  · rw [restored]
    exact m.reaches_restoreWords words

theorem reaches_menu (m : Machine σ) (choice : Int) : m.Reaches (m.menu choice) := by
  obtain same | ⟨_, called⟩ := m.menu_cases choice
  · rw [same]
    exact .refl m
  · rw [called]
    exact m.reaches_runGuest _

theorem reaches_eval (m : Machine σ) (code : String) : m.Reaches (m.eval code) := by
  obtain same | ⟨_, called⟩ := m.eval_cases code
  · rw [same]
    exact .refl m
  · rw [called]
    exact m.reaches_runGuest _

theorem reaches_runProgram (m : Machine σ) : m.Reaches m.runProgram := by
  have hidden : m.Reaches
      (m.mapConsole fun c => { c with ram := c.state.devices.hide c.ram }) :=
    reaches_mapConsole (m.console.reaches_setRam _)
  cases bound : m.console.state.interpreter with
  | none =>
    rw [runProgram_of_absent bound]
    exact .refl m
  | some index =>
    cases present : m.interpreters[index]? with
    | none =>
      rw [runProgram_of_missing bound present]
      exact hidden
    | some interp =>
      rw [runProgram_of_present bound present]
      exact hidden.trans (reaches_runGuest _ _)

theorem hooksMove_hooks (interp : Interpreter σ) (bound : HookSet) :
    Raster.HooksMove (interp.hooks bound) := by
  obtain ⟨scanline, border, overline, menu⟩ := bound
  constructor
  · rintro row f bound ⟨guest, c⟩
    cases scanline with
    | false => cases bound
    | true => cases bound; exact (interp.scanline row guest).moves_run c
  · rintro row f bound ⟨guest, c⟩
    cases border with
    | false => cases bound
    | true => cases bound; exact (interp.border row guest).moves_run c
  · rintro f bound ⟨guest, c⟩
    cases overline with
    | false => cases bound
    | true => cases bound; exact (interp.overline guest).moves_run c

theorem hooksMove_none : Raster.HooksMove ({} : Raster.Hooks σ) := by
  constructor
  · rintro row f ⟨⟩
  · rintro row f ⟨⟩
  · rintro f ⟨⟩

theorem hooksMove_rasterHooks (m : Machine σ) : Raster.HooksMove m.rasterHooks := by
  by_cases running : m.console.state.phase = .running
  · cases target : m.interpreter? with
    | none =>
      rw [rasterHooks_of_absent target]
      exact hooksMove_none
    | some interp =>
      rw [rasterHooks_of_running running target]
      exact hooksMove_hooks interp _
  · rw [rasterHooks_of_not_running running]
    exact hooksMove_none

theorem moves_draw (m : Machine σ) : m.console.Moves m.draw.console :=
  Raster.moves_draw m.hooksMove_rasterHooks m.guest m.console m.frame

theorem reaches_draw (m : Machine σ) : m.Reaches m.draw := by
  have drawn := m.moves_draw.reaches
  exact ⟨⟨drawn.toContinues, rfl, rfl⟩, drawn.clock, drawn.start⟩

/-- What follows the frame function in a frame. -/
theorem reaches_finishFrame (m : Machine σ) : m.Reaches m.endFrame.render.draw :=
  (m.reaches_endFrame.trans m.endFrame.reaches_render).trans (reaches_draw _)

/-- Whether the program goes on under an operation. -/
def Op.goesOn : Op σ → Bool
  | setInput _ | beginFrame | endFrame | render | draw | menu _ | eval _ | reset | loadState _ => true
  | register _ | loadCart _ | unload | tick | stepFrame | pause | resume | setClock _ => false

theorem reaches_step {op : Op σ} {m n : Machine σ} (goesOn : op.goesOn = true)
    (stepped : op.step m = .ok n) : m.Reaches n := by
  cases op with
  | setInput input => exact Except.ok.inj stepped ▸ m.reaches_setInput input
  | beginFrame => exact reaches_beginFrame stepped
  | endFrame => exact Except.ok.inj stepped ▸ m.reaches_endFrame
  | render => exact Except.ok.inj stepped ▸ m.reaches_render
  | draw => exact Except.ok.inj stepped ▸ m.reaches_draw
  | menu choice => exact Except.ok.inj stepped ▸ m.reaches_menu choice
  | eval code => exact Except.ok.inj stepped ▸ m.reaches_eval code
  | reset => exact Except.ok.inj stepped ▸ m.reaches_reset
  | loadState saved => exact Except.ok.inj stepped ▸ m.reaches_loadState saved
  | register | loadCart | unload | tick | stepFrame | pause | resume | setClock => cases goesOn

/-! ### Ending a program -/

/-- A machine that has forgotten its program. -/
def withoutProgram (m : Machine σ) : Machine σ :=
  m.mapConsole fun c => { c with state.interpreter := none, state.hooks := {} }

theorem continues_forgetHooks {c d : Console} (continues : c.Continues d) :
    Console.Continues { c with state.hooks := {} } { d with state.hooks := {} } where
  lifecycle := by
    -- a reset forgets the hooks anyway, so it commutes with forgetting them
    rcases continues.lifecycle with same | same
    · left
      exact congrArg (fun l : Lifecycle => { l with hooks := {} }) same
    · right
      exact congrArg (fun l : Lifecycle => { l with hooks := {} }) same
  code := continues.code
  saveId := continues.saveId
  errors := continues.errors

theorem reaches_closeProgram (m : Machine σ) : m.withoutProgram.Reaches m.closeProgram := by
  cases target : m.interpreter? with
  | none =>
    rw [closeProgram_of_absent target]
    exact .refl m.withoutProgram
  | some interp =>
    rw [closeProgram_of_present target]
    have closed := m.unbound.reaches_runGuest interp.close
    exact ⟨⟨continues_forgetHooks closed.console, closed.interpreters, closed.paused⟩,
      closed.clock, closed.start⟩

/-! ### Inserting a cart -/

/-- Machine `n` is machine `m` with another cart, of which nothing has been run. -/
structure Inserts (phase : Phase) (cart : Cart) (m n : Machine σ) : Prop where
  lifecycle : n.console.lifecycle = .fresh phase
  code : n.console.cart.code = cart.code
  clock : n.console.clock = m.console.clock
  start : n.console.start = m.console.start
  errors : n.console.errors = m.console.errors
  interpreters : n.interpreters = m.interpreters
  paused : n.paused = none

theorem inserts_insertCart (m : Machine σ) (cart : Cart) {phase : Phase} (saveId : String)
    (idle : phase ≠ .running) :
    Inserts phase cart m ((m.closeProgram.insertCart cart phase).mapConsole fun c =>
      Console.reset { c with saveId := saveId }) := by
  have closed := m.reaches_closeProgram
  have restarted := Console.reaches_reset
    { (m.closeProgram.insertCart cart phase).console with saveId := saveId }
  constructor
  -- the close function may have reset the console, but what it left is overwritten
  · have inserted : Console.lifecycle
        { (m.closeProgram.insertCart cart phase).console with saveId := saveId } =
          ⟨phase, false, none, m.closeProgram.console.state.hooks⟩ :=
      congrArg (fun i => Lifecycle.mk phase false i m.closeProgram.console.state.hooks)
        closed.console.interpreter
    refine (Console.lifecycle_reset _).trans ?_
    rw [inserted]
    cases phase with
    | unloaded | initializing => rfl
    | running => exact absurd rfl idle
  · exact restarted.code
  · exact restarted.clock.trans closed.clock
  · exact restarted.start.trans closed.start
  · exact restarted.errors.trans closed.console.errors
  · exact closed.interpreters
  · rfl

theorem Inserts.log {phase : Phase} {cart : Cart} {m n : Machine σ}
    (inserts : Inserts phase cart m n) (category : Log.Category) (level : Log.Level)
    (text : String) : Inserts phase cart m (n.mapConsole (·.log category level text)) where
  lifecycle := inserts.lifecycle
  code := inserts.code
  clock := inserts.clock
  start := inserts.start
  errors := (n.console.reaches_log category level text).errors.trans inserts.errors
  interpreters := inserts.interpreters
  paused := inserts.paused

theorem inserts_loadCart (m : Machine σ) (cart : Cart) :
    Inserts .initializing cart m (m.loadCart cart) := by
  unfold loadCart
  exact (m.inserts_insertCart cart _ Phase.noConfusion).log _ _ _

theorem inserts_unload (m : Machine σ) : Inserts .unloaded .blank m m.unload :=
  m.inserts_insertCart .blank m.closeProgram.console.saveId
    (Phase.noConfusion : Phase.unloaded ≠ .running)

/-! ### Starting a program -/

theorem reaches_loadStartupSections (c : Console) :
    c.Reaches (loadStartupSections c) := by
  unfold loadStartupSections
  have copied := (c.reaches_setSynced .empty).trans
    (Console.reaches_sync _ c.cart.startupSections Cart.startBank .toMemory)
  exact copied.trans (Console.reaches_setSynced _ .empty)

theorem continues_selectDevices (c : Console) (code comment : String) (start : UInt64) :
    c.Continues { selectDevices code comment c with start := start } := by
  unfold selectDevices
  exact (c.reaches_log _ _ _).toContinues.trans (.of_eq rfl rfl rfl rfl)

theorem continues_preparedFor (m : Machine σ) (interp : Interpreter σ) :
    m.withoutProgram.Continues (m.preparedFor interp) := by
  have closed := m.reaches_closeProgram
  refine ⟨(closed.console.trans ?_).trans (continues_selectDevices _ _ _ _), closed.interpreters,
    closed.paused⟩
  exact (reaches_loadStartupSections _).toContinues

theorem reaches_callInit (m : Machine σ) (interp : Interpreter σ) (code : String) :
    m.Reaches (m.callInit interp code).2 := by
  have ran := (interp.init code m.guest).reaches_run m.console
  exact ⟨⟨ran.toContinues, rfl, rfl⟩, ran.clock, ran.start⟩

/-- Machine `n` is machine `m` with its program started by interpreter `index`. -/
structure Starts (index : Nat) (m n : Machine σ) : Prop where
  served : Interpreter.select? m.interpreters m.console.cart.code = some index
  text : ¬ m.console.cart.code.isEmpty = true
  lifecycle : ∃ hooks,
    n.console.lifecycle = ⟨.running, m.console.state.rejected, some index, hooks⟩
  code : n.console.cart.code = m.console.cart.code
  errors : n.console.errors = m.console.errors
  interpreters : n.interpreters = m.interpreters
  paused : n.paused = m.paused

/-- A start either leaves the machine, or ends the program and goes no further, or succeeds. -/
theorem startProgram_outcome (m : Machine σ) :
    (m.console.cart.code.isEmpty = true ∧ m.startProgram = (some .emptyCode, m)) ∨
    (¬ m.console.cart.code.isEmpty = true ∧
      Interpreter.select? m.interpreters m.console.cart.code = none ∧
      m.startProgram = (some .noInterpreter, m)) ∨
    (∃ index cause n, ¬ m.console.cart.code.isEmpty = true ∧
      Interpreter.select? m.interpreters m.console.cart.code = some index ∧
      m.startProgram = (some (.script cause), n) ∧ m.withoutProgram.Continues n) ∨
    ∃ index n, m.startProgram = (none, n) ∧ Starts index m n := by
  obtain ⟨empty, ended⟩ | ⟨code, unserved, ended⟩ | ⟨index, interp, code, served, present, ended⟩ :=
    m.startProgram_cases
  · exact .inl ⟨empty, ended⟩
  · exact .inr (.inl ⟨code, unserved, ended⟩)
  · right; right
    have called := (m.continues_preparedFor interp).trans
      ((m.preparedFor interp).reaches_callInit interp m.console.cart.code).toContinues
    rw [ended]
    -- what the start function did is in `called`; only its answer matters from here on
    generalize (m.preparedFor interp).callInit interp m.console.cart.code = r at called
    obtain ⟨result, n⟩ := r
    cases result with
    | error cause => exact .inl ⟨index, cause, n, code, served, rfl, called⟩
    | ok hooks =>
      refine .inr ⟨index, _, rfl, served, code, ⟨hooks, ?_⟩, ?_, ?_, ?_, ?_⟩
      · exact congrArg (fun rejected => Lifecycle.mk .running rejected (some index) hooks)
          called.console.rejected
      · exact called.console.code
      · exact (Console.reaches_log _ _ _ _).errors.trans called.console.errors
      · exact called.interpreters
      · exact called.paused

theorem starts_of_succeeds {m n : Machine σ} (succeeds : m.startProgram = (none, n)) :
    ∃ index, Starts index m n := by
  obtain ⟨_, ended⟩ | ⟨_, _, ended⟩ | ⟨_, _, _, _, _, ended, _⟩ | ⟨index, o, ended, starts⟩ :=
    m.startProgram_outcome
  · cases succeeds.symm.trans ended
  · cases succeeds.symm.trans ended
  · cases succeeds.symm.trans ended
  · cases succeeds.symm.trans ended
    exact ⟨index, starts⟩

/-! ### Registered interpreters -/

theorem interpreters_startProgram (m : Machine σ) :
    m.startProgram.2.interpreters = m.interpreters := by
  obtain ⟨_, ended⟩ | ⟨_, _, ended⟩ | ⟨_, cause, n, _, _, ended, continues⟩ |
    ⟨index, n, ended, starts⟩ := m.startProgram_outcome
  · rw [ended]
  · rw [ended]
  · rw [ended]
    exact continues.interpreters
  · rw [ended]
    exact starts.interpreters

theorem interpreters_tick (m : Machine σ) : m.tick.interpreters = m.interpreters := by
  have kept := m.interpreters_startProgram
  obtain ⟨_, same⟩ | ⟨_, runs⟩ | ⟨_, ⟨_, same⟩ | ⟨_, ⟨e, n, fails, same⟩ | ⟨n, succeeds, runs⟩⟩⟩ :=
    m.tick_cases
  · rw [same]
  · rw [runs]
    exact m.reaches_runProgram.interpreters
  · rw [same]
  · rw [fails] at kept
    rw [same]
    exact kept
  · rw [succeeds] at kept
    rw [runs]
    exact n.reaches_runProgram.interpreters.trans kept

/-- How many interpreters an operation registers. -/
def Op.registered : Op σ → Nat
  | register _ => 1
  | _ => 0

theorem size_step {op : Op σ} {m n : Machine σ} (stepped : op.step m = .ok n) :
    n.interpreters.size = m.interpreters.size + op.registered := by
  cases op with
  | register interp =>
    rw [← Except.ok.inj stepped]
    exact Array.size_push interp
  | loadCart cart =>
    exact Except.ok.inj stepped ▸ congrArg Array.size (m.inserts_loadCart cart).interpreters
  | unload => exact Except.ok.inj stepped ▸ congrArg Array.size m.inserts_unload.interpreters
  | tick => exact Except.ok.inj stepped ▸ congrArg Array.size m.interpreters_tick
  | stepFrame =>
    obtain ⟨_, rfl⟩ | ⟨_, b, begun, rfl⟩ := step_stepFrame_inv stepped
    · rfl
    · rw [b.tick.reaches_finishFrame.interpreters, interpreters_tick,
        (reaches_beginFrame begun).interpreters]
      rfl
  | pause =>
    rw [← Except.ok.inj stepped]
    unfold pause
    split <;> rfl
  | resume =>
    rw [← Except.ok.inj stepped]
    unfold resume
    split <;> rfl
  | setClock clock => rw [← Except.ok.inj stepped]; rfl
  | _ => exact congrArg Array.size (reaches_step rfl stepped).interpreters

end Machine

end FantasyConsole
