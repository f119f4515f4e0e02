import FantasyConsole.Machine.Basic
import FantasyConsole.Text.Quoted

/-!
# The life of a program

A machine begins without a cart. Loading one makes it initialize: in the next frame an interpreter
is chosen and starts the program, which then runs. A program that cannot be started is reported
once, and its cart stays rejected until another one is loaded.
-/

namespace FantasyConsole

namespace Machine

variable {σ : Type}

/-- Ends the program, if one has been started, and forgets its hooks. -/
def closeProgram (m : Machine σ) : Machine σ :=
  let interpreter := m.interpreter?
  let m := m.mapConsole fun c => { c with state.interpreter := none }
  let m := match interpreter with
    | some interp => m.runGuest interp.close
    | none => m
  m.mapConsole fun c => { c with state.hooks := {} }

/-- The comment mark of the interpreter that runs a program, empty without an interpreter. -/
def commentFor (m : Machine σ) (code : String) : String :=
  (((Interpreter.select? m.interpreters code).bind (m.interpreters[·]?)).map (·.comment)).getD ""

/-- Puts a cart in place of the present one, in a given phase, and resets the console. -/
def insertCart (m : Machine σ) (cart : Cart) (phase : Phase) : Machine σ :=
  let m := { m with paused := none }
  m.mapConsole fun c =>
    { c with cart := cart, state.phase := phase, state.rejected := false }

/-- Loads a cart. The program before it is ended, and the new one is started in the next frame. -/
def loadCart (m : Machine σ) (cart : Cart) : Machine σ :=
  let m := m.closeProgram.insertCart cart .initializing
  let saveId := Metadata.saveId cart.code (m.commentFor cart.code)
  let m := m.mapConsole fun c => Console.reset { c with saveId := saveId }
  m.mapConsole fun c => c.log .script .info
    s!"cart loaded: {cart.code.utf8ByteSize} bytes of code, saveid '{saveId}'"

/-- Ends the program and removes the cart. -/
def unload (m : Machine σ) : Machine σ :=
  (m.closeProgram.insertCart .blank .unloaded).mapConsole Console.reset

/-- Copies what a program starts with into memory. -/
def loadStartupSections (c : Console) : Console :=
  let sections := c.cart.startupSections
  let (_, c) := { c with state.synced := .empty }.sync sections Cart.startBank .toMemory
  { c with state.synced := .empty }

/-- Shows the program only the devices that it asks for. -/
def selectDevices (code comment : String) (c : Console) : Console :=
  let tag := Metadata.tag? code "input" comment
  let devices := Devices.ofTag tag
  let c := c.log .input .debug s!"input tag {Text.quotedOption tag}: {devices.describe}"
  { c with state.devices := devices }

/-- Starts the program of the cart, and says why when it cannot be started. -/
def startProgram (m : Machine σ) : Option StartError × Machine σ :=
  let code := m.console.cart.code
  if code.isEmpty then
    (some .emptyCode, m)
  else
    match Interpreter.select? m.interpreters code with
    | none => (some .noInterpreter, m)
    | some index =>
      -- after a reset the program that ran before is still bound
      let m := m.closeProgram.mapConsole loadStartupSections
      match m.interpreters[index]? with
      | none => (some .noInterpreter, m)
      | some interp =>
        let m := m.mapConsole fun c =>
          { selectDevices code interp.comment c with start := c.clock.counter }
        let ((result, guest), console) := (interp.init code m.guest).run m.console
        let m := { m with guest := guest, console := console }
        match result with
        | .error e => (some (.script e), m)
        | .ok hooks =>
          let m := m.mapConsole fun c =>
            { c with
              state.interpreter := some index
              state.hooks := hooks
              state.phase := .running }
          (none, m.mapConsole fun c => c.log .script .info
            s!"program started with runtime {index}: {hooks.describe}")

/-- Reports a program that cannot be started. -/
def reject (m : Machine σ) (e : StartError) : Machine σ :=
  m.mapConsole fun c =>
    let c := c.log .script .error s!"cart rejected: {e.message}"
    let c := c.notify (.error e.message)
    { c with state.rejected := true }

/-- Runs one frame of a program that has been started. -/
def runProgram (m : Machine σ) : Machine σ :=
  match m.console.state.interpreter with
  | none => m
  | some index =>
    -- what the program did not ask for, it does not see
    let m := m.mapConsole fun c => { c with ram := c.state.devices.hide c.ram }
    match m.interpreters[index]? with
    | none => m
    | some interp => m.runGuest interp.tick

/-- Runs one frame of the program, and starts it first if it has not been started. -/
def tick (m : Machine σ) : Machine σ :=
  match m.console.state.phase with
  | .unloaded => m
  | .running => m.runProgram
  | .initializing =>
    if m.console.state.rejected then
      m
    else
      match m.startProgram with
      | (some e, m) => m.reject e
      | (none, m) => m.runProgram

/-- Calls the menu function of the running program, if it has one. -/
def menu (m : Machine σ) (index : Int) : Machine σ :=
  if m.console.state.phase = .running ∧ m.console.state.hooks.menu then
    match m.interpreter? with
    | some interp => m.runGuest (interp.menu index)
    | none => m
  else
    m

/-- Evaluates a piece of code in the running program. -/
def eval (m : Machine σ) (code : String) : Machine σ :=
  if m.console.state.phase = .running then
    match m.interpreter? with
    | some interp => m.runGuest (interp.eval code)
    | none => m
  else
    m

/-- Resets the console; the program is started again in the next frame. -/
def reset (m : Machine σ) : Machine σ := m.mapConsole Console.reset

/-- Why a frame was not made. -/
inductive FrameError where
  | noCart
  | fault (cause : Fault)
deriving DecidableEq, Repr

/-- What a refusal to make a frame says, if anything. -/
def FrameError.message? : FrameError → Option String
  | noCart => some "No cart loaded"
  | fault cause => cause.message?

/-- Makes one whole frame, picture and sound. -/
def stepFrame (m : Machine σ) : Except FrameError (Machine σ) :=
  if m.console.state.phase = .unloaded then
    .error .noCart
  else
    match m.beginFrame with
    | .error cause => .error (.fault cause)
    | .ok m => .ok m.tick.endFrame.render.draw

end Machine

end FantasyConsole
