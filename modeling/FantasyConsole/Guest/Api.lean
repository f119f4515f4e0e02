import FantasyConsole.Console.Basic
import FantasyConsole.Guest.Value

/-!
# The calls of a guest program

Every function that a guest program can call takes a list of loosely typed arguments and returns a
value. A missing or unsuitable argument is replaced by a default; only the number of arguments is
checked. The table lists the functions in the order in which they are offered to a program.
-/

namespace FantasyConsole

namespace Api

/-! ### Arguments -/

/-- Argument `i` as an integer. -/
def intArg (args : List Value) (i : Nat) (default : Int) : Int :=
  (args[i]?.bind Value.toInt?).getD default

/-- Argument `i` as the nearest 32-bit integer. -/
def int32Arg (args : List Value) (i : Nat) (default : Int) : Int :=
  saturate32 (intArg args i default)

/-- Argument `i` as a colour, of which the low four bits count. -/
def colorArg (args : List Value) (i : Nat) (default : Int) : UInt8 :=
  byteOfInt (intArg args i default % 16)

/-- Whether argument `i` is there and true. -/
def flagArg (args : List Value) (i : Nat) : Bool := args[i]?.any Value.isTruthy

/-! ### Functions -/

/-- What a function does to the console, and what it returns. -/
abbrev Action : Type := List Value → Console → Value × Console

/-- A function that only acts. -/
def effect (f : List Value → Console → Console) : Action := fun args c => (.nil, f args c)

/-- A function that only asks. -/
def query (f : List Value → Console → Value) : Action := fun args c => (f args c, c)

def peekAt (w : Width) : Action := fun args c =>
  let (v, c) := c.peek (intArg args 0 0) w
  (.int v.toNat, c)

def pokeAt (w : Width) : Action :=
  effect fun args c => c.poke (intArg args 0 0) (byteOfInt (intArg args 1 0)) w

def peek : Action := fun args c =>
  match Width.ofBits? (intArg args 1 8) with
  | some w => peekAt w args c
  | none => (.int 0, c)

def poke : Action := fun args c =>
  match Width.ofBits? (intArg args 2 8) with
  | some w => pokeAt w args c
  | none => (.nil, c)

def copy : Action :=
  effect fun args c => (c.copy (intArg args 0 0) (intArg args 1 0) (intArg args 2 0)).2

def fill : Action :=
  effect fun args c => (c.fill (intArg args 0 0) (byteOfInt (intArg args 1 0)) (intArg args 2 0)).2

def persist : Action := fun args c =>
  let (old, c) := c.persist (intArg args 0 0) ((args[1]?.bind Value.toInt?).map wordOfInt)
  (.int old.toNat, c)

def sync : Action := fun args c =>
  let bank := intArg args 1 0
  match Cart.bank? bank with
  | none => (.bool false, c.log .sync .warn s!"sync: invalid bank {bank}")
  | some i =>
    let mask : SectionSet := ⟨byteOfInt (intArg args 0 0)⟩
    (.nil, (c.sync mask i (if flagArg args 2 then .toCart else .toMemory)).2)

def selectVideoBank : Action := fun args c =>
  let (previous, c) := c.selectVideoBank (intArg args 0 (-1))
  (.int previous.val, c)

/-- One button as a boolean, or all of them as a number. -/
def buttonsValue (id : Int) (buttons : UInt32) : Value :=
  if id < 0 then .int buttons.toNat else .bool (buttons != 0)

def buttons : Action := query fun args c =>
  let id := int32Arg args 0 (-1)
  buttonsValue id (c.buttons id)

def pressedButtons : Action := query fun args c =>
  let id := int32Arg args 0 (-1)
  buttonsValue id (c.pressedButtons id (int32Arg args 1 (-1)) (int32Arg args 2 (-1)))

def key : Action := query fun args c => .bool (c.key (int32Arg args 0 (-1)))

def keyPressed : Action := query fun args c =>
  .bool (c.keyPressed (int32Arg args 0 (-1)) (int32Arg args 1 (-1)) (int32Arg args 2 (-1)))

/-- The position in screen coordinates, or a movement in relative mode; the buttons; the scroll. -/
def mouse : Action := query fun _ c =>
  let m := c.mouse
  let x : Int := if m.relative then signedByte m.x else m.x.toNat - Screen.left
  let y : Int := if m.relative then signedByte m.y else m.y.toNat - Screen.top
  .list [.int x, .int y, .bool m.left, .bool m.middle, .bool m.right, .int m.scrollX,
    .int m.scrollY]

def time : Action := query fun _ c => .num c.time

def timestamp : Action := query fun _ c => .int c.clock.seconds.toNat

def trace : Action := effect fun args c =>
  c.trace ((args[0]?.map Value.text).getD "") (colorArg args 1 15)

def exit : Action := effect fun _ c => c.exit

def reset : Action := effect fun _ c => c.reset

def clear : Action := effect fun args c => c.draw (·.clear (colorArg args 0 0))

/-- Reads a pixel, or writes it when there is a colour. -/
def pixel : Action := fun args c =>
  let x := int32Arg args 0 0
  let y := int32Arg args 1 0
  match args[2]?.bind Value.toInt? with
  | some color => (.nil, c.draw (·.setPixel x y (byteOfInt (color % 16))))
  | none => (.int (c.canvas.getPixel x y).toNat, c)

/-- A function of four coordinates. -/
def withCoordinates (f : Int → Int → Int → Int → List Value → Console → Console) : Action :=
  effect fun args c =>
    f (int32Arg args 0 0) (int32Arg args 1 0) (int32Arg args 2 0) (int32Arg args 3 0) args c

def rect : Action := withCoordinates fun x y width height args c =>
  c.draw (·.rect x y width height (colorArg args 4 0))

def outline : Action := withCoordinates fun x y width height args c =>
  c.draw (·.outline x y width height (colorArg args 4 0))

def line : Action := withCoordinates fun x0 y0 x1 y1 args c =>
  c.draw (·.line ⟨⟨x0, y0⟩, ⟨x1, y1⟩⟩ (colorArg args 4 0))

/-- Sets the clip, or resets it when there are fewer than four arguments. -/
def clip : Action := withCoordinates fun x y width height args c =>
  if args.length < 4 then c.resetClip else c.setClip x y width height

/-- The note to play: a negative one stands for the note of the sample. -/
def effectNote (r : Ram) (index note : Int) : Int :=
  if 0 ≤ note then note
  else
    match Sound.sampleOf index with
    | some i =>
      let sample := Sample.load r i
      sample.note + sample.octave * 12
    | none => 0

def playEffect : Action := effect fun args c =>
  let index := int32Arg args 0 (-1)
  let note := effectNote c.ram index (int32Arg args 1 (-1))
  let volume := UInt8.ofNat (clampInt 0 15 (intArg args 4 15)).toNat
  (c.playEffect index (note % 12) (note / 12) (int32Arg args 2 (-1)) (int32Arg args 3 0) volume
    volume (int32Arg args 5 0)).2

def playMusic : Action := effect fun args c =>
  let looped := (args[3]?.map Value.isTruthy).getD true
  c.playMusic (int32Arg args 0 (-1)) (int32Arg args 1 (-1)) (int32Arg args 2 (-1)) looped
    (flagArg args 4) (int32Arg args 5 (-1)) (int32Arg args 6 (-1))

/-! ### The table -/

structure Function where
  name : String
  minArgs : Nat
  maxArgs : Nat
  run : Action

/-- The function as it appears in messages. -/
def Function.describe (f : Function) : String :=
  "ApiFunction \x7b name: \"" ++ f.name ++ "\", min_args: " ++ toString f.minArgs
    ++ ", max_args: " ++ toString f.maxArgs ++ " \x7d"

def table : List Function := [
  ⟨"peek", 1, 2, peek⟩,
  ⟨"poke", 2, 3, poke⟩,
  ⟨"peek1", 1, 1, peekAt .one⟩,
  ⟨"poke1", 2, 2, pokeAt .one⟩,
  ⟨"peek2", 1, 1, peekAt .two⟩,
  ⟨"poke2", 2, 2, pokeAt .two⟩,
  ⟨"peek4", 1, 1, peekAt .four⟩,
  ⟨"poke4", 2, 2, pokeAt .four⟩,
  ⟨"memcpy", 3, 3, copy⟩,
  ⟨"memset", 3, 3, fill⟩,
  ⟨"pmem", 1, 2, persist⟩,
  ⟨"sync", 0, 3, sync⟩,
  ⟨"vbank", 0, 1, selectVideoBank⟩,
  ⟨"btn", 0, 1, buttons⟩,
  ⟨"btnp", 0, 3, pressedButtons⟩,
  ⟨"key", 0, 1, key⟩,
  ⟨"keyp", 0, 3, keyPressed⟩,
  ⟨"mouse", 0, 0, mouse⟩,
  ⟨"time", 0, 0, time⟩,
  ⟨"tstamp", 0, 0, timestamp⟩,
  ⟨"trace", 1, 2, trace⟩,
  ⟨"exit", 0, 0, exit⟩,
  ⟨"reset", 0, 0, reset⟩,
  ⟨"cls", 0, 1, clear⟩,
  ⟨"pix", 2, 3, pixel⟩,
  ⟨"rect", 5, 5, rect⟩,
  ⟨"rectb", 5, 5, outline⟩,
  ⟨"line", 5, 5, line⟩,
  ⟨"clip", 0, 4, clip⟩,
  ⟨"sfx", 1, 6, playEffect⟩,
  ⟨"music", 0, 7, playMusic⟩]

def lookup? (name : String) : Option Function := table.find? (·.name == name)

/-- Why a call was refused. -/
inductive CallError where
  | unknown (name : String)
  | arity (name : String) (min max got : Nat)
deriving DecidableEq, Repr

def CallError.message : CallError → String
  | unknown name => s!"unknown function '{name}'"
  | arity name min max got => s!"'{name}' takes {min}..={max} arguments, got {got}"

/-- Calls a function by its name. A call that is refused leaves the console as it is. -/
def call (name : String) (args : List Value) (c : Console) : Except CallError Value × Console :=
  match lookup? name with
  | none => (.error (.unknown name), c)
  | some f =>
    if args.length < f.minArgs ∨ f.maxArgs < args.length then
      (.error (.arity f.name f.minArgs f.maxArgs args.length), c)
    else
      let (value, c) := f.run args c
      (.ok value, c)

end Api

end FantasyConsole
