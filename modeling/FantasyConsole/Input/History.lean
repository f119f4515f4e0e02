import FantasyConsole.Input.Device

/-!
# Edges and autorepeat

A program asks not only whether a button is down but whether it has just been pressed. The history
remembers the input of the previous frame and, for every button and key, for how many frames it has
been held. Counters are updated when a frame begins, against the input of the frame before; the
input is remembered when the frame ends, after the program ran.
-/

namespace FantasyConsole

structure InputHistory where
  gamepads : UInt32
  keyboard : Vector UInt8 keyboardSlots
  /-- For how many frames each button was down in the frame before as well. -/
  buttonHolds : Vector Nat buttonCount
  /-- For how many frames each key was down in the frame before as well. -/
  keyHolds : Vector Nat keyCount
deriving DecidableEq

namespace InputHistory

/-- Nothing was down and nothing is held. -/
def fresh : InputHistory where
  gamepads := 0
  keyboard := Vector.replicate _ 0
  buttonHolds := Vector.replicate _ 0
  keyHolds := Vector.replicate _ 0

/-- Whether a button was down in the previous frame. -/
def buttonWasDown (h : InputHistory) (id : Nat) : Bool :=
  h.gamepads &&& DeviceInput.buttonBit id != 0

/-- Whether a key was down in the previous frame. -/
def keyWasDown (h : InputHistory) (code : Nat) : Bool := keyDown h.keyboard code

/-- Begins a frame: what was down and still is has been held one frame longer, and nothing else is
held. -/
def countHolds (h : InputHistory) (now : DeviceInput) : InputHistory :=
  { h with
    buttonHolds := h.buttonHolds.mapIdx fun id held =>
      if h.buttonWasDown id && now.buttonDown id then held + 1 else 0
    keyHolds := h.keyHolds.mapIdx fun code held =>
      -- code 0 is no key
      if code = 0 then held
      else if h.keyWasDown code && keyDown now.keyboard code then held + 1
      else 0 }

/-- Ends a frame: its input becomes the previous one. -/
def remember (h : InputHistory) (now : DeviceInput) : InputHistory :=
  { h with gamepads := now.gamepads, keyboard := now.keyboard }

/-- For how long a button has been held. -/
def buttonHold (h : InputHistory) (id : Nat) : Nat := h.buttonHolds[id]?.getD 0

/-- For how long a key has been held. -/
def keyHold (h : InputHistory) (code : Nat) : Nat := h.keyHolds[code]?.getD 0

/-- Whether autorepeat makes a press out of something that has been held for `held` frames: from
frame `hold` on, in every `period`-th frame, or in every frame when the period is 0. Autorepeat is
off when either number is negative. -/
def repeats (held : Nat) (hold period : Int) : Bool :=
  decide (0 ≤ hold) && decide (0 ≤ period) && decide (hold ≤ held)
    && (period == 0 || (held : Int) % period == 0)

/-- The buttons that are down: one of them, or all of them for a negative id. -/
def buttons (now : DeviceInput) (id : Int) : UInt32 :=
  if id < 0 then now.gamepads
  else if id < buttonCount then now.gamepads &&& DeviceInput.buttonBit id.toNat
  else 0

/-- The buttons that were pressed in this frame: one of them, subject to autorepeat, or all of them
for a negative id. -/
def pressedButtons (h : InputHistory) (now : DeviceInput) (id hold period : Int) : UInt32 :=
  if id < 0 then ~~~h.gamepads &&& now.gamepads
  else if id < buttonCount then
    let previous := if repeats (h.buttonHold id.toNat) hold period then 0 else h.gamepads
    ~~~previous &&& now.gamepads &&& DeviceInput.buttonBit id.toNat
  else 0

/-- Whether a key is down: one of them, or any of them for a code that is not positive. -/
def key (now : DeviceInput) (code : Int) : Bool :=
  if code ≤ 0 then now.keyboard.any (· != 0)
  else code < keyCount && keyDown now.keyboard code.toNat

/-- Whether a key was pressed in this frame: one of them, subject to autorepeat, or any of them for
a code that is not positive. -/
def keyPressed (h : InputHistory) (now : DeviceInput) (code hold period : Int) : Bool :=
  if code ≤ 0 then now.keyboard.any fun k => k != 0 && !h.keyboard.contains k
  else if code < keyCount then
    let previous := !repeats (h.keyHold code.toNat) hold period && h.keyWasDown code.toNat
    !previous && keyDown now.keyboard code.toNat
  else false

end InputHistory

end FantasyConsole
