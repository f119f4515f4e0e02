import FantasyConsole.Memory.Ram

/-!
# Input devices

The state of the gamepads, the mouse and the keyboard lives in three regions of memory. This module
says how a host's input is written there and read back, and how a program that asked for one kind
of device is kept from seeing the others.
-/

namespace FantasyConsole

/-- Number of gamepad buttons: four pads with eight buttons each. -/
abbrev buttonCount : Nat := 32

/-- Number of keys that can be down at once. -/
abbrev keyboardSlots : Nat := 4

/-- Number of key codes; code 0 means no key. -/
abbrev keyCount : Nat := 95

/-- The mouse, its position in coordinates of the full frame. -/
structure Mouse where
  x : UInt8 := 0
  y : UInt8 := 0
  left : Bool := false
  middle : Bool := false
  right : Bool := false
  /-- Horizontal scroll, signed, of which memory keeps six bits. -/
  scrollX : Int := 0
  /-- Vertical scroll, signed, of which memory keeps six bits. -/
  scrollY : Int := 0
  /-- Whether `x` and `y` are movements rather than a position. -/
  relative : Bool := false
deriving DecidableEq, Repr

namespace Mouse

/-- The six bits that memory keeps of a scroll value. -/
def scrollBits (n : Int) : UInt16 := (byteOfInt n).toUInt16 &&& 0x3F

/-- The word of the buttons, lowest bit first: three buttons, two scroll values of six bits, and
the relative mode. -/
def buttonWord (m : Mouse) : UInt16 :=
  m.left.toUInt16 ||| (m.middle.toUInt16 <<< 1) ||| (m.right.toUInt16 <<< 2)
    ||| (scrollBits m.scrollX <<< 3) ||| (scrollBits m.scrollY <<< 9)
    ||| (m.relative.toUInt16 <<< 15)

/-- The four bytes of the mouse in memory. -/
def toBytes (m : Mouse) : Vector UInt8 4 :=
  #v[m.x, m.y, m.buttonWord.toUInt8, (m.buttonWord >>> 8).toUInt8]

/-- The mouse that four bytes of memory describe. -/
def ofBytes (bytes : Vector UInt8 4) : Mouse :=
  let word : UInt16 := bytes[2].toUInt16 ||| (bytes[3].toUInt16 <<< 8)
  { x := bytes[0]
    y := bytes[1]
    left := word &&& 0x0001 != 0
    middle := word &&& 0x0002 != 0
    right := word &&& 0x0004 != 0
    scrollX := signExtend 6 (word >>> 3).toUInt8
    scrollY := signExtend 6 (word >>> 9).toUInt8
    relative := word &&& 0x8000 != 0 }

end Mouse

/-- One frame of input as the host supplies it. -/
structure DeviceInput where
  /-- Bit `8 * pad + button` is set while the button is down. -/
  gamepads : UInt32 := 0
  mouse : Mouse := {}
  /-- Codes of the keys that are down, 0 in the empty slots. -/
  keyboard : Vector UInt8 keyboardSlots := Vector.replicate _ 0
deriving DecidableEq, Repr

namespace DeviceInput

/-- Writes the input into its regions of memory. -/
def store (d : DeviceInput) (r : Ram) : Ram :=
  let r := r.setWord Layout.gamepads.offset d.gamepads
  let r := r.setRegion Layout.mouse d.mouse.toBytes
  r.setRegion Layout.keyboard d.keyboard

/-- The input that memory holds. -/
def load (r : Ram) : DeviceInput where
  gamepads := r.word Layout.gamepads.offset
  mouse := Mouse.ofBytes (r.region Layout.mouse)
  keyboard := r.region Layout.keyboard

/-- The mask of one button. -/
def buttonBit (id : Nat) : UInt32 := 1 <<< UInt32.ofNat id

def buttonDown (d : DeviceInput) (id : Nat) : Bool := d.gamepads &&& buttonBit id != 0

end DeviceInput

def keyDown (keyboard : Vector UInt8 keyboardSlots) (code : Nat) : Bool :=
  keyboard.any fun k => k.toNat == code

/-- The devices that a program can see. -/
structure Devices where
  gamepad : Bool
  mouse : Bool
  keyboard : Bool
deriving DecidableEq, Repr

namespace Devices

def all : Devices := ⟨true, true, true⟩

/-- The devices that a program asks for. A program that asks for nothing known sees every device. -/
def ofTag : Option String → Devices
  | some "mouse" => ⟨false, true, false⟩
  | some "gamepad" => ⟨true, false, false⟩
  | some "keyboard" => ⟨false, false, true⟩
  | _ => all

/-- Clears the memory of every device that the program cannot see. -/
def hide (d : Devices) (r : Ram) : Ram :=
  let r := if d.gamepad then r else r.fillRegion Layout.gamepads 0
  let r := if d.mouse then r else r.fillRegion Layout.mouse 0
  if d.keyboard then r else r.fillRegion Layout.keyboard 0

/-- The devices as they appear in the log. -/
def describe (d : Devices) : String :=
  "InputCaps \x7b gamepad: " ++ toString d.gamepad ++ ", mouse: " ++ toString d.mouse
    ++ ", keyboard: " ++ toString d.keyboard ++ " \x7d"

end Devices

end FantasyConsole
