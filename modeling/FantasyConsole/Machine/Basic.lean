import FantasyConsole.Raster
import FantasyConsole.Script.Interpreter
import FantasyConsole.Sound.Synth

/-!
# The machine

A machine is the console together with the interpreters that run its programs, the last frame and
the synthesiser. The interpreters share a state `σ`. The host drives a machine frame by frame: it
writes input, begins the frame, runs the program, ends the frame, and takes sound and picture.
-/

namespace FantasyConsole

/-- What is put back when a pause ends. -/
structure Snapshot where
  state : ConsoleState
  ram : Ram
  start : UInt64
  pausedAt : UInt64

structure Machine (σ : Type) where
  console : Console
  /-- The state that the interpreters share. -/
  guest : σ
  interpreters : Array (Interpreter σ)
  /-- The last frame that was drawn. -/
  frame : Frame
  synth : Synth
  paused : Option Snapshot

namespace Machine

variable {σ : Type}

/-- A machine without interpreters and without a cart. -/
def new (config : Config) (clock : Clock) (guest : σ) : Machine σ where
  console := .new config clock
  guest := guest
  interpreters := #[]
  frame := .blank Screen.fullWidth Screen.fullHeight
  synth := .ofRate config.sampleRate.toNat
  paused := none

/-- Adds an interpreter. The first one also runs the programs that ask for none. -/
def register (m : Machine σ) (interp : Interpreter σ) : Machine σ :=
  { m with interpreters := m.interpreters.push interp }

/-- Changes the console. -/
def mapConsole (m : Machine σ) (f : Console → Console) : Machine σ :=
  { m with console := f m.console }

/-- Gives control to an interpreter. -/
def runGuest (m : Machine σ) (program : σ → Guest σ) : Machine σ :=
  let (guest, console) := (program m.guest).run m.console
  { m with guest := guest, console := console }

/-- The interpreter of the program. -/
def interpreter? (m : Machine σ) : Option (Interpreter σ) :=
  m.console.state.interpreter.bind (m.interpreters[·]?)

/-- Writes a frame of input into memory. -/
def setInput (m : Machine σ) (input : DeviceInput) : Machine σ :=
  m.mapConsole fun c => { c with ram := input.store c.ram }

/-- Begins a frame: moves on sound and hold counters, and forgets which sections were copied. -/
def beginFrame (m : Machine σ) : Except Fault (Machine σ) := do
  let (sound, ram) ← m.console.state.sound.beginFrame m.console.ram
  let holds := m.console.state.input.countHolds (.load ram)
  return m.mapConsole fun c =>
    { c with ram := ram, state.sound := sound, state.input := holds, state.synced := .empty }

/-- Ends a frame: remembers its input and queues its sound registers. -/
def endFrame (m : Machine σ) : Machine σ :=
  m.mapConsole fun c =>
    { c with
      state.input := c.state.input.remember c.input
      state.sound := c.state.sound.endFrame c.ram }

/-- Renders one frame of sound. -/
def render (m : Machine σ) : Machine σ :=
  let (synth, ring) := m.synth.render m.console.state.sound.ring
  { m with synth := synth, console.state.sound.ring := ring }

/-- The hooks with which frames are drawn: those of the running program. -/
def rasterHooks (m : Machine σ) : Raster.Hooks σ :=
  let bound := m.console.state.hooks
  match m.console.state.phase, m.interpreter? with
  | .running, some interp =>
    { scanline :=
        if bound.scanline then some fun row (s, c) => (interp.scanline row s).run c else none
      border := if bound.border then some fun row (s, c) => (interp.border row s).run c else none
      overline := if bound.overline then some fun (s, c) => (interp.overline s).run c else none }
  | _, _ => {}

/-- Draws a frame. -/
def draw (m : Machine σ) : Machine σ :=
  let ((guest, console), frame) := Raster.draw m.rasterHooks m.guest m.console m.frame
  { m with guest := guest, console := console, frame := frame }

end Machine

end FantasyConsole
