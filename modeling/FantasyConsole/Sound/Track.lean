import FantasyConsole.Memory.Ram

/-!
# Tracks and pattern rows

Music is a track: up to sixteen frames, each of which names one pattern for each channel. A pattern
is 64 rows, and a row holds a note, a sample and a command. Both are packed in memory.
-/

namespace FantasyConsole

abbrev channelCount : Nat := 4

def allChannels : List (Fin channelCount) := [0, 1, 2, 3]

/-- One thing for each channel. -/
abbrev PerChannel (α : Type) : Type := Vector α channelCount

/-- Replaces what belongs to a channel. -/
def PerChannel.replace {α : Type} (v : PerChannel α) (c : Fin channelCount) (a : α) :
    PerChannel α :=
  v.set c a

theorem PerChannel.get_replace_self {α : Type} (v : PerChannel α) (c : Fin channelCount) (a : α) :
    (v.replace c a).get c = a :=
  Vector.getElem_set_self c.isLt

theorem PerChannel.get_replace_of_ne {α : Type} (v : PerChannel α) {c d : Fin channelCount}
    (ne : d ≠ c) (a : α) : (v.replace c a).get d = v.get d :=
  Vector.getElem_set_ne c.isLt d.isLt fun h => ne (Fin.ext h.symm)

abbrev trackCount : Nat := 8

abbrev trackFrames : Nat := 16

abbrev trackBytes : Nat := 51

/-- Number of patterns in memory; their ids start at 1. -/
abbrev patternCount : Nat := 60

abbrev patternRows : Nat := 64

abbrev rowBytes : Nat := 3

/-- What a row asks for besides its note. -/
inductive Command where
  | empty
  | volume
  | chord
  | jump
  | slide
  | pitch
  | vibrato
  | delay
deriving DecidableEq, Repr

namespace Command

/-- The command with a number from 0 to 7. -/
def ofBits (bits : UInt8) : Command :=
  match bits &&& 0x07 with
  | 1 => volume
  | 2 => chord
  | 3 => jump
  | 4 => slide
  | 5 => pitch
  | 6 => vibrato
  | 7 => delay
  | _ => empty

def name : Command → String
  | empty => "Empty"
  | volume => "Volume"
  | chord => "Chord"
  | jump => "Jump"
  | slide => "Slide"
  | pitch => "Pitch"
  | vibrato => "Vibrato"
  | delay => "Delay"

end Command

structure PatternRow where
  /-- 0 for no note, 1 to stop the channel, a note of the octave from 4 on. -/
  note : Nat
  param1 : Nat
  param2 : Nat
  command : Command
  sample : Fin 64
  octave : Nat
deriving DecidableEq, Repr

namespace PatternRow

/-- Row notes from here on are notes of the octave. -/
def firstNote : Nat := 4

/-- The row note that stops the channel. -/
def stopNote : Nat := 1

/-- The row packed into three bytes. -/
def decode (a b c : UInt8) : PatternRow where
  note := (a &&& 0x0F).toNat
  param1 := (a >>> 4).toNat
  param2 := (b &&& 0x0F).toNat
  command := .ofBits (b >>> 4)
  sample := Fin.ofNat 64 (((b >>> 7) <<< 5) ||| (c &&& 0x1F)).toNat
  octave := (c >>> 5).toNat

/-- The row at the start of a block of bytes, if the block is long enough. -/
def ofBytes? (bytes : Array UInt8) : Option PatternRow := do
  return decode (← bytes[0]?) (← bytes[1]?) (← bytes[2]?)

/-- Row `row` of pattern `id` in memory, if it lies in the pattern region. A row past the end of
a pattern is one of the next pattern. -/
def load? (r : Ram) (id : Nat) (row : Int) : Option PatternRow :=
  let offset := ((id : Int) - 1) * (patternRows * rowBytes) + row * rowBytes
  if 0 ≤ row ∧ offset + rowBytes ≤ Layout.patterns.size then
    let first := Layout.patterns.offset + offset.toNat
    some (decode (r.byte first) (r.byte (first + 1)) (r.byte (first + 2)))
  else
    none

/-- Both parameters as one byte. -/
def param (p : PatternRow) : Nat := p.param1 * 16 + p.param2

end PatternRow

structure Track where
  /-- For each frame the packed pattern ids of the channels, six bits each. -/
  frames : Vector UInt32 trackFrames
  /-- Signed offset from the default tempo. -/
  tempo : Int
  /-- Rows cut from the end of every pattern. -/
  rows : Nat
  /-- Signed offset from the default speed. -/
  speed : Int
deriving DecidableEq, Repr

namespace Track

/-- The track in 51 bytes, where `byte i` is the `i`-th of them. -/
def decode (byte : Nat → UInt8) : Track where
  frames := Vector.ofFn fun i =>
    (byte (3 * i)).toUInt32 ||| ((byte (3 * i + 1)).toUInt32 <<< 8)
      ||| ((byte (3 * i + 2)).toUInt32 <<< 16)
  tempo := signedByte (byte 48)
  rows := (byte 49).toNat
  speed := signedByte (byte 50)

/-- The track at the start of a block of bytes, if the block is long enough. -/
def ofBytes? (bytes : Array UInt8) : Option Track :=
  if trackBytes ≤ bytes.size then some (decode (bytes.getD · 0)) else none

/-- The track that a number names, if there is one. -/
def index? (n : Int) : Option (Fin trackCount) :=
  if h : 0 ≤ n ∧ n < trackCount then some ⟨n.toNat, by omega⟩ else none

def load (r : Ram) (i : Fin trackCount) : Track :=
  decode fun k => r.byte (Layout.tracks.offset + i * trackBytes + k)

/-- The pattern that a channel plays in a frame, 0 for none. -/
def patternId (t : Track) (frame : Nat) (c : Fin channelCount) : Nat :=
  let packed : UInt32 := t.frames[frame]?.getD 0
  ((packed >>> UInt32.ofNat (6 * c)) &&& 0x3F).toNat

/-- Number of rows played of each pattern. -/
def patternLength (t : Track) : Int := patternRows - t.rows

/-- Whether no channel plays a pattern in a frame. -/
def isSilent (t : Track) (frame : Nat) : Bool := allChannels.all fun c => t.patternId frame c == 0

end Track

end FantasyConsole
