import FantasyConsole.Cart.Sync
import FantasyConsole.Config
import FantasyConsole.Console.State
import FantasyConsole.Draw.Canvas
import FantasyConsole.Fault
import FantasyConsole.Host

/-!
# The console as a program sees it

The console holds memory, the cart and everything that a program can reach through its calls: the
screen, the devices, the sound, the banks of video memory and the time.
-/

namespace FantasyConsole

/-- Everything that a program can reach through its calls. -/
structure Console where
  ram : Ram
  cart : Cart
  state : ConsoleState
  clock : Clock
  /-- What the host has not taken out yet. -/
  outbox : Array Notice
  config : Config
  /-- The counter value from which the program's time is counted. -/
  start : UInt64
  /-- The id under which the program's persistent memory is kept. -/
  saveId : String

namespace Console

/-! ### Notices -/

/-- Says something to the host. -/
def notify (c : Console) (n : Notice) : Console := { c with outbox := c.outbox.push n }

def log (c : Console) (category : Log.Category) (level : Log.Level) (text : String) : Console :=
  c.notify (.log ⟨category, level, text⟩)

/-- Shows output of the program. -/
def trace (c : Console) (message : String) (color : UInt8) : Console :=
  c.notify (.trace message color)

/-- Asks the host to leave. -/
def exit (c : Console) : Console := c.notify .exit

/-! ### Memory -/

/-- The line that reports an access outside memory. -/
def outOfRangeText (addr : Int) (w : Width) : String :=
  s!"access out of range: addr={addr} bits={w.bits}"

/-- Reports an access outside memory. -/
def reportAccess (c : Console) (addr : Int) (w : Width) : Console :=
  if Ram.Addressable w addr then c else c.log .memory .trace (outOfRangeText addr w)

/-- Reads a packed value. -/
def peek (c : Console) (addr : Int) (w : Width) : UInt8 × Console :=
  (c.ram.peek addr w, c.reportAccess addr w)

/-- Writes a packed value. -/
def poke (c : Console) (addr : Int) (v : UInt8) (w : Width) : Console :=
  let c := c.reportAccess addr w
  { c with ram := c.ram.poke addr v w }

/-- Copies bytes within memory; says whether it was possible. -/
def copy (c : Console) (dst src n : Int) : Bool × Console :=
  match c.ram.copy? dst src n with
  | some ram => (true, { c with ram := ram })
  | none => (false, c.log .memory .trace s!"memcpy rejected: dst={dst} src={src} size={n}")

/-- Fills bytes of memory; says whether it was possible. -/
def fill (c : Console) (dst : Int) (v : UInt8) (n : Int) : Bool × Console :=
  match c.ram.fill? dst v n with
  | some ram => (true, { c with ram := ram })
  | none => (false, c.log .memory .trace s!"memset rejected: dst={dst} size={n}")

/-- Reads a persistent slot and then, if there is a value, replaces it. -/
def persist (c : Console) (slot : Int) (value : Option UInt32) : UInt32 × Console :=
  let old := c.ram.slot slot
  match value with
  | none => (old, c)
  | some v => (old, { c with ram := c.ram.setSlot slot v })

/-! ### The cart -/

/-- Two hexadecimal digits after `0x`. -/
def hexByte (b : UInt8) : String :=
  "0x" ++ String.ofList [Nat.digitChar (b.toNat / 16), Nat.digitChar (b.toNat % 16)]

/-- The line that reports a synchronisation. -/
def syncText (bank : Fin Cart.bankCount) (d : Direction) (pending skipped : SectionSet) : String :=
  let direction := match d with
    | .toCart => "ram->cart"
    | .toMemory => "cart->ram"
  s!"sync bank {bank.val} {direction} mask={hexByte pending.bits} skipped={hexByte skipped.bits}"

/-- Copies the requested sections that were not copied since the frame began; returns them. -/
def sync (c : Console) (mask : SectionSet) (bank : Fin Cart.bankCount) (d : Direction) :
    SectionSet × Console :=
  let requested := mask.requested
  let pending := requested.without c.state.synced
  let skipped := requested.inter c.state.synced
  let stores := SyncStores.transferAll ⟨c.ram, c.cart, c.state.overlayPalette⟩ bank d pending
  let c :=
    { c with
      ram := stores.ram
      cart := stores.cart
      state.overlayPalette := stores.overlayPalette
      state.synced := c.state.synced.union pending }
  (pending, c.log .sync .debug (syncText bank d pending skipped))

/-- Copies sections to or from a bank that may not exist. -/
def syncBank (c : Console) (mask : SectionSet) (bank : Nat) (d : Direction) :
    Except Fault (SectionSet × Console) :=
  if h : bank < Cart.bankCount then .ok (c.sync mask ⟨bank, h⟩ d)
  else .error (.bankOutOfRange bank)

/-! ### Video memory -/

/-- Brings a bank of video memory into memory; returns the one that was there. -/
def selectVideoBank (c : Console) (id : Int) : Fin 2 × Console :=
  let current := c.state.videoBank.current
  match VideoBank.ofNumber? id with
  | some next =>
    if next = current then
      -- it is there already, and the stash holds the other one
      (current, c)
    else
      let shown := c.ram.region Layout.video
      let ram := c.ram.setRegion Layout.video c.state.videoBank.stash
      (current, { c with ram := ram, state.videoBank := ⟨next, shown⟩ })
  | none => (current, c)

/-! ### Drawing -/

/-- Draws on the screen with the clip in force. -/
def draw (c : Console) (f : Canvas → Canvas) : Console :=
  { c with ram := (f ⟨c.ram, c.state.clip⟩).ram }

/-- The screen with the clip in force. -/
def canvas (c : Console) : Canvas := ⟨c.ram, c.state.clip⟩

/-- Confines drawing to a rectangle. -/
def setClip (c : Console) (x y width height : Int) : Console :=
  { c with state.clip := .ofRect x y width height }

/-- Lets drawing reach the whole screen. -/
def resetClip (c : Console) : Console := { c with state.clip := .full }

/-! ### Devices -/

/-- The input that memory holds. -/
def input (c : Console) : DeviceInput := .load c.ram

def buttons (c : Console) (id : Int) : UInt32 := InputHistory.buttons c.input id

def pressedButtons (c : Console) (id hold period : Int) : UInt32 :=
  c.state.input.pressedButtons c.input id hold period

def key (c : Console) (code : Int) : Bool := InputHistory.key c.input code

def keyPressed (c : Console) (code hold period : Int) : Bool :=
  c.state.input.keyPressed c.input code hold period

/-- The mouse, in coordinates of the full frame. -/
def mouse (c : Console) : Mouse := c.input.mouse

/-! ### Time -/

/-- Counts since the program started, 0 while the counter is behind its start. -/
def elapsed (c : Console) : UInt64 :=
  if c.clock.counter ≤ c.start then 0 else c.clock.counter - c.start

/-- Milliseconds since the program started, the time of pauses left out. -/
def time (c : Console) : Float :=
  c.elapsed.toFloat * 1000.0 / (max c.clock.frequency 1).toFloat

/-! ### Sound -/

/-- Plays a sample on a channel; says whether there are such a sample and channel. -/
def playEffect (c : Console) (index note octave duration channel : Int) (left right : UInt8)
    (speed : Int) : Bool × Console :=
  match c.state.sound.playEffect? c.ram index note octave duration channel left right speed with
  | some (sound, ram) => (true, { c with ram := ram, state.sound := sound })
  | none => (false, c.log .sound .warn s!"sfx ignored: index={index} channel={channel}")

/-- Starts or stops the music. -/
def playMusic (c : Console) (track frame row : Int) (looped sustain : Bool) (tempo speed : Int) :
    Console :=
  match c.state.sound.playMusic? c.ram track frame row looped sustain tempo speed with
  | some (sound, ram) => { c with ram := ram, state.sound := sound }
  | none => c.log .sound .warn s!"music ignored: track={track}"

/-! ### Reset -/

/-- The display registers as they are after a reset. -/
def resetDisplay (palette : Vector UInt8 Section.palette.size) (r : Ram) : Ram :=
  let r := r.setRegion Layout.palette palette
  let r := r.setRegion Layout.paletteMap Layout.identityPaletteMap
  let r := r.fillRegion Layout.border 0
  let r := r.fillRegion Layout.scroll 0
  let r := r.fillRegion Layout.cursor 0
  r.setByte Layout.blitSegment.offset 2

/-- Restores display, clip and sound and starts the program again in the next frame. -/
def reset (c : Console) : Console :=
  let ram := resetDisplay (c.cart.bank Cart.startBank).palette c.ram
  let (sound, ram) := c.state.sound.reset ram
  { c with
    ram := ram
    state.clip := .full
    state.sound := sound
    state.hooks := {}
    -- a program that was rejected stays rejected, so it is not started again
    state.phase := if c.state.phase = .unloaded then .unloaded else .initializing }

/-- A console that has just been switched on. -/
def new (config : Config) (clock : Clock) : Console :=
  reset
    { ram := .blank
      cart := .blank
      state := .fresh
      clock := clock
      outbox := #[]
      config := config
      start := 0
      saveId := "" }

end Console

end FantasyConsole
