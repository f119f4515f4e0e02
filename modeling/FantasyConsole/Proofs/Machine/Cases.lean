import FantasyConsole.Machine.Lifecycle
import FantasyConsole.Machine.SaveState

/-!
# What the operations of a machine come down to

The operations that start, end and draw a program choose between few cases. Each choice is made here
once, so that what is proved about an operation follows the cases and not its definition.
-/

namespace FantasyConsole

variable {σ : Type}

/-- The hooks of an interpreter, those that are bound. -/
def Interpreter.hooks (interp : Interpreter σ) (bound : HookSet) : Raster.Hooks σ where
  scanline := if bound.scanline then some fun row (s, c) => (interp.scanline row s).run c else none
  border := if bound.border then some fun row (s, c) => (interp.border row s).run c else none
  overline := if bound.overline then some fun (s, c) => (interp.overline s).run c else none

theorem Interpreter.select?_eq_none {interpreters : Array (Interpreter σ)} {code : String}
    (unserved : select? interpreters code = none) : interpreters = #[] := by
  unfold select? at unserved
  split at unserved
  case isTrue empty => exact Array.isEmpty_iff.mp empty
  case isFalse => cases unserved

namespace Machine

/-! ### Beginning a frame -/

/-- A machine at the beginning of a frame, with the sound and the memory that it begins with. -/
def begun (m : Machine σ) (r : Sound × Ram) : Machine σ :=
  m.mapConsole fun c =>
    { c with
      ram := r.2
      state.sound := r.1
      state.input := m.console.state.input.countHolds (.load r.2)
      state.synced := .empty }

theorem beginFrame_eq (m : Machine σ) :
    m.beginFrame = (m.console.state.sound.beginFrame m.console.ram).map m.begun := by
  unfold beginFrame
  generalize m.console.state.sound.beginFrame m.console.ram = r
  cases r <;> rfl

/-! ### Drawing -/

theorem rasterHooks_of_running {m : Machine σ} {interp : Interpreter σ}
    (running : m.console.state.phase = .running) (present : m.interpreter? = some interp) :
    m.rasterHooks = interp.hooks m.console.state.hooks := by
  simp only [rasterHooks, running, present]
  rfl

theorem rasterHooks_of_not_running {m : Machine σ} (idle : m.console.state.phase ≠ .running) :
    m.rasterHooks = {} := by
  unfold rasterHooks
  split
  case h_1 running _ => exact absurd running idle
  case h_2 => rfl

theorem rasterHooks_of_absent {m : Machine σ} (absent : m.interpreter? = none) :
    m.rasterHooks = {} := by
  unfold rasterHooks
  rw [absent]
  cases m.console.state.phase <;> rfl

/-! ### Ending a program -/

/-- The machine on which the close function of an interpreter is called. -/
def unbound (m : Machine σ) : Machine σ :=
  m.mapConsole fun c => { c with state.interpreter := none }

theorem closeProgram_of_absent {m : Machine σ} (absent : m.interpreter? = none) :
    m.closeProgram = m.unbound.mapConsole fun c => { c with state.hooks := {} } := by
  simp only [closeProgram, absent]
  rfl

theorem closeProgram_of_present {m : Machine σ} {interp : Interpreter σ}
    (present : m.interpreter? = some interp) :
    m.closeProgram =
      (m.unbound.runGuest interp.close).mapConsole fun c => { c with state.hooks := {} } := by
  simp only [closeProgram, present]
  rfl

theorem interpreters_closeProgram (m : Machine σ) :
    m.closeProgram.interpreters = m.interpreters := by
  cases target : m.interpreter? with
  | none => rw [closeProgram_of_absent target]; rfl
  | some interp => rw [closeProgram_of_present target]; rfl

/-! ### Starting a program -/

/-- The machine on which the start function of an interpreter is called. -/
def preparedFor (m : Machine σ) (interp : Interpreter σ) : Machine σ :=
  (m.closeProgram.mapConsole loadStartupSections).mapConsole fun c =>
    { selectDevices m.console.cart.code interp.comment c with start := c.clock.counter }

/-- Calls the start function of an interpreter. -/
def callInit (m : Machine σ) (interp : Interpreter σ) (code : String) :
    Except ScriptError HookSet × Machine σ :=
  let r := (interp.init code m.guest).run m.console
  (r.1.1, { m with guest := r.1.2, console := r.2 })

/-- What becomes of a start when the start function has returned. -/
def finishStart (index : Nat) : Except ScriptError HookSet × Machine σ →
    Option StartError × Machine σ
  | (.error e, m) => (some (.script e), m)
  | (.ok hooks, m) =>
    let m := m.mapConsole fun c =>
      { c with state.interpreter := some index, state.hooks := hooks, state.phase := .running }
    (none, m.mapConsole fun c => c.log .script .info
      s!"program started with runtime {index}: {hooks.describe}")

theorem startProgram_of_emptyCode {m : Machine σ} (empty : m.console.cart.code.isEmpty = true) :
    m.startProgram = (some .emptyCode, m) := by
  simp only [startProgram, if_pos empty]

theorem startProgram_of_unserved {m : Machine σ} (code : ¬ m.console.cart.code.isEmpty = true)
    (unserved : Interpreter.select? m.interpreters m.console.cart.code = none) :
    m.startProgram = (some .noInterpreter, m) := by
  simp only [startProgram, if_neg code, unserved]

theorem startProgram_of_served {m : Machine σ} {index : Nat} {interp : Interpreter σ}
    (code : ¬ m.console.cart.code.isEmpty = true)
    (served : Interpreter.select? m.interpreters m.console.cart.code = some index)
    (present : m.interpreters[index]? = some interp) :
    m.startProgram =
      finishStart index ((m.preparedFor interp).callInit interp m.console.cart.code) := by
  -- closing the old program may run it, but registers no interpreter
  have found : (m.closeProgram.mapConsole loadStartupSections).interpreters[index]? =
      some interp :=
    (congrArg (·[index]?) m.interpreters_closeProgram).trans present
  simp only [startProgram, if_neg code, served, found, preparedFor, callInit]
  split
  case h_1 result => simp only [result, finishStart]
  case h_2 result => simp only [result, finishStart]

/-- A program has no text, or there is no interpreter, or the start function of one is called. -/
theorem startProgram_cases (m : Machine σ) :
    (m.console.cart.code.isEmpty = true ∧ m.startProgram = (some .emptyCode, m)) ∨
    (¬ m.console.cart.code.isEmpty = true ∧
      Interpreter.select? m.interpreters m.console.cart.code = none ∧
      m.startProgram = (some .noInterpreter, m)) ∨
    ∃ index interp, ¬ m.console.cart.code.isEmpty = true ∧
      Interpreter.select? m.interpreters m.console.cart.code = some index ∧
      m.interpreters[index]? = some interp ∧
      m.startProgram =
        finishStart index ((m.preparedFor interp).callInit interp m.console.cart.code) := by
  by_cases code : m.console.cart.code.isEmpty = true
  · exact .inl ⟨code, startProgram_of_emptyCode code⟩
  · cases served : Interpreter.select? m.interpreters m.console.cart.code with
    | none => exact .inr (.inl ⟨code, rfl, startProgram_of_unserved code served⟩)
    | some index =>
      have present := Array.getElem?_eq_getElem (Interpreter.select?_lt served)
      exact .inr (.inr ⟨index, _, code, rfl, present, startProgram_of_served code served present⟩)

/-! ### Running a program -/

theorem runProgram_of_absent {m : Machine σ} (absent : m.console.state.interpreter = none) :
    m.runProgram = m := by
  simp only [runProgram, absent]

theorem runProgram_of_missing {m : Machine σ} {index : Nat}
    (bound : m.console.state.interpreter = some index) (missing : m.interpreters[index]? = none) :
    m.runProgram = m.mapConsole fun c => { c with ram := c.state.devices.hide c.ram } := by
  have absent : (m.mapConsole fun c =>
      { c with ram := c.state.devices.hide c.ram }).interpreters[index]? = none := missing
  simp only [runProgram, bound, absent]

theorem runProgram_of_present {m : Machine σ} {index : Nat} {interp : Interpreter σ}
    (bound : m.console.state.interpreter = some index)
    (present : m.interpreters[index]? = some interp) :
    m.runProgram =
      (m.mapConsole fun c => { c with ram := c.state.devices.hide c.ram }).runGuest
        interp.tick := by
  have found : (m.mapConsole fun c =>
      { c with ram := c.state.devices.hide c.ram }).interpreters[index]? = some interp := present
  simp only [runProgram, bound, found]

/-- How the frame function of a program is called depends on how far the program has come. -/
theorem tick_cases (m : Machine σ) :
    (m.console.state.phase = .unloaded ∧ m.tick = m) ∨
    (m.console.state.phase = .running ∧ m.tick = m.runProgram) ∨
    (m.console.state.phase = .initializing ∧
      ((m.console.state.rejected = true ∧ m.tick = m) ∨
      (m.console.state.rejected = false ∧
        ((∃ e n, m.startProgram = (some e, n) ∧ m.tick = n.reject e) ∨
        ∃ n, m.startProgram = (none, n) ∧ m.tick = n.runProgram)))) := by
  unfold tick
  cases m.console.state.phase with
  | unloaded => exact .inl ⟨rfl, rfl⟩
  | running => exact .inr (.inl ⟨rfl, rfl⟩)
  | initializing =>
    refine .inr (.inr ⟨rfl, ?_⟩)
    cases m.console.state.rejected with
    | true => exact .inl ⟨rfl, rfl⟩
    | false =>
      refine .inr ⟨rfl, ?_⟩
      obtain ⟨refused, n⟩ := m.startProgram
      cases refused with
      | some e => exact .inl ⟨e, n, rfl, rfl⟩
      | none => exact .inr ⟨n, rfl, rfl⟩

/-! ### Loading a saved state -/

theorem loadState_cases (m : Machine σ) (saved : Json) :
    (m.loadState? saved).getD m = m ∨
      ∃ words, (m.loadState? saved).getD m = m.restoreWords words := by
  unfold loadState?
  cases saved.member? "persistent" with
  | none => exact .inl rfl
  | some persistent =>
    dsimp only
    cases persistent.words? with
    | none => exact .inl rfl
    | some words => exact .inr ⟨words, rfl⟩

/-! ### Calling the program -/

theorem menu_cases (m : Machine σ) (choice : Int) :
    m.menu choice = m ∨
      ∃ interp : Interpreter σ, m.menu choice = m.runGuest (interp.menu choice) := by
  unfold menu
  split
  · split
    · exact .inr ⟨_, rfl⟩
    · exact .inl rfl
  · exact .inl rfl

theorem eval_cases (m : Machine σ) (code : String) :
    m.eval code = m ∨ ∃ interp : Interpreter σ, m.eval code = m.runGuest (interp.eval code) := by
  unfold eval
  split
  · split
    · exact .inr ⟨_, rfl⟩
    · exact .inl rfl
  · exact .inl rfl

end Machine

end FantasyConsole
