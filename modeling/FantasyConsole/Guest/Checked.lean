import FantasyConsole.Guest.Api

/-!
# Calls with checked arithmetic

The console computes with 32-bit integers. Built for speed it lets sums and products wrap, and so do
the calls of a program; built with checks it stops at the first result that leaves the range. This
module has the calls as they are with the checks. A sum that saturates needs none, so only the calls
that clear the screen, draw an outline and start music have a form of their own.
-/

namespace FantasyConsole

/-- A result that left the range of 32 bits. -/
structure Overflow where
  result : Int
deriving DecidableEq, Repr

/-- A result of 32-bit arithmetic. -/
def fit32 (n : Int) : Except Overflow Int := if IsInt32 n then .ok n else .error ⟨n⟩

namespace Canvas

/-- Fills the clip area. -/
def clear32 (c : Canvas) (color : UInt8) : Except Overflow Canvas :=
  if c.clip = .full then
    return c.clear color
  else do
    let width ← fit32 (c.clip.right - c.clip.left)
    let height ← fit32 (c.clip.bottom - c.clip.top)
    return c.fill c.clip.left c.clip.top width height (c.ram.mapColor color)

/-- The last place of a side. -/
def lastPlace32 (start length : Int) : Except Overflow Int := do
  let stop ← fit32 (start + length)
  fit32 (stop - 1)

/-- Draws the outline of a rectangle, one pixel wide; nothing if the rectangle is empty. -/
def outline32 (c : Canvas) (x y width height : Int) (color : UInt8) : Except Overflow Canvas :=
  if width ≤ 0 ∨ height ≤ 0 then
    return c
  else do
    let color := c.ram.mapColor color
    let c := c.fill x y width 1 color
    let bottom ← lastPlace32 y height
    let c := c.fill x bottom width 1 color
    let c := c.fill x y 1 height color
    let right ← lastPlace32 x width
    return c.fill right y 1 height color

end Canvas

namespace Sequencer

/-- The tempo in force. -/
def tempo32 (s : Sequencer) (t : Track) : Except Overflow Int :=
  match s.tempo with
  | some tempo => return tempo
  | none => fit32 (t.tempo + defaultTempo)

/-- The speed in force. -/
def speed32 (s : Sequencer) (t : Track) : Except Overflow Int :=
  match s.speed with
  | some speed => return speed
  | none => fit32 (t.speed + defaultSpeed)

/-- The tick at which a row is played. -/
def tickOfRow32 (s : Sequencer) (t : Track) (row : Int) : Except Overflow Int := do
  let tempo ← s.tempo32 t
  if tempo = 0 then
    return 0
  else
    let speed ← s.speed32 t
    let ticks ← fit32 (row * speed)
    let ticks ← fit32 (ticks * rowsPerMinute)
    return (ticks.tdiv tempo).tdiv defaultSpeed

/-- Starts a track at a frame and row. -/
def start32 (s : Sequencer) (r : Ram) (track : Fin trackCount) (frame row : Int)
    (looped sustain : Bool) (tempo speed : Option Nat) : Except Overflow (Sequencer × Ram) :=
  -- only the tick of the row is computed
  let (begun, r) := s.start r track frame (-1) looped sustain tempo speed
  if 0 ≤ row then do
    let ticks ← begun.tickOfRow32 (Track.load r track) row
    return ({ begun with ticks := ticks }, r)
  else
    return (begun, r)

end Sequencer

namespace Console

/-- Draws on the screen with the clip in force. -/
def draw32 (c : Console) (f : Canvas → Except Overflow Canvas) : Except Overflow Console := do
  let canvas ← f c.canvas
  return { c with ram := canvas.ram }

/-- Starts or stops the music. -/
def playMusic32 (c : Console) (track frame row : Int) (looped sustain : Bool) (tempo speed : Int) :
    Except Overflow Console :=
  match Track.index? track with
  | some index => do
    let (music, ram) ←
      c.state.sound.music.start32 c.ram index frame row looped sustain tempo.toNat? speed.toNat?
    return { c with ram := ram, state.sound.music := music }
  | none => return c.playMusic track frame row looped sustain tempo speed

end Console

namespace Api

/-- What a function does to the console, and what it returns. -/
def Function.run32 (f : Function) (args : List Value) (c : Console) :
    Except Overflow (Value × Console) :=
  let coordinate := int32Arg args
  match f.name with
  | "cls" => return (.nil, ← c.draw32 (·.clear32 (colorArg args 0 0)))
  | "rectb" =>
    return (.nil, ← c.draw32 (·.outline32 (coordinate 0 0) (coordinate 1 0) (coordinate 2 0)
      (coordinate 3 0) (colorArg args 4 0)))
  | "music" =>
    let looped := (args[3]?.map Value.isTruthy).getD true
    return (.nil, ← c.playMusic32 (coordinate 0 (-1)) (coordinate 1 (-1)) (coordinate 2 (-1)) looped
      (flagArg args 4) (coordinate 5 (-1)) (coordinate 6 (-1)))
  | _ => return f.run args c

/-- Calls a function by its name. A call that is refused leaves the console as it is. -/
def call32 (name : String) (args : List Value) (c : Console) :
    Except Overflow (Except CallError Value × Console) :=
  match lookup? name with
  | none => return (.error (.unknown name), c)
  | some f =>
    if args.length < f.minArgs ∨ f.maxArgs < args.length then
      return (.error (.arity f.name f.minArgs f.maxArgs args.length), c)
    else do
      let (value, c) ← f.run32 args c
      return (.ok value, c)

end Api

end FantasyConsole
