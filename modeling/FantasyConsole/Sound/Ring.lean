import FantasyConsole.Memory.Ram
import FantasyConsole.Sound.Sample
import FantasyConsole.Sound.Track

/-!
# Sound registers and the ring that queues them

A register holds what one channel sounds like for one frame: frequency, volume and a waveform. All
registers of a frame, with the stereo volumes, are queued in a ring until they are synthesised. The
synthesiser plays the entry just behind the tail, so that entry must survive until the tail moves
on; a full ring therefore takes no more entries.
-/

namespace FantasyConsole

/-- Largest volume of a channel and of a side. -/
def maxVolume : Nat := 15

abbrev registerBytes : Nat := 18

inductive Side where
  | left
  | right
deriving DecidableEq, Repr

structure RegisterFrame where
  registers : Vector UInt8 (registerBytes * channelCount)
  /-- The stereo volumes: four bits for the left and four for the right side of each channel. -/
  stereo : UInt32
deriving DecidableEq, Repr

namespace RegisterFrame

/-- All registers zero. -/
def silent : RegisterFrame := ⟨Vector.replicate _ 0, 0⟩

def byte (f : RegisterFrame) (c : Fin channelCount) (k : Nat) : UInt8 :=
  f.registers[c * registerBytes + k]?.getD 0

/-- The frequency of a channel, twelve bits. -/
def frequency (f : RegisterFrame) (c : Fin channelCount) : Nat :=
  (f.byte c 1 &&& 0x0F).toNat * 256 + (f.byte c 0).toNat

def volume (f : RegisterFrame) (c : Fin channelCount) : Nat := (f.byte c 1 >>> 4).toNat

/-- The bytes of a channel's waveform. -/
def waveform (f : RegisterFrame) (c : Fin channelCount) : List UInt8 :=
  (List.range waveformBytes).map fun k => f.byte c (2 + k)

def waveValue (f : RegisterFrame) (c : Fin channelCount) (i : Nat) : Nat :=
  (Width.four.extract i (f.byte c (2 + Width.four.byteIndex i))).toNat

def sideVolume (f : RegisterFrame) (c : Fin channelCount) (side : Side) : Nat :=
  let shift := 8 * c.val + match side with
    | .left => 0
    | .right => 4
  ((f.stereo >>> UInt32.ofNat shift) &&& 0x0F).toNat

/-- The registers and stereo volumes in memory. -/
def load (r : Ram) : RegisterFrame :=
  ⟨r.region Layout.registers, r.word Layout.stereo.offset⟩

end RegisterFrame

abbrev ringSlots : Nat := 12

/-- The queue between the end of a frame and its synthesis. -/
structure SoundRing where
  slots : Vector RegisterFrame ringSlots
  /-- The slot that the next entry goes into. -/
  head : Fin ringSlots
  /-- The first slot that is still to be played. -/
  tail : Fin ringSlots
deriving DecidableEq

namespace SoundRing

def empty : SoundRing := ⟨Vector.replicate _ .silent, 0, 0⟩

/-- Writes an entry at the head and moves the head on. -/
def push (q : SoundRing) (entry : RegisterFrame) : SoundRing :=
  { q with
    slots := q.slots.set q.head entry
    -- in a full ring the head stays, and what was written counts for nothing
    head := if q.head = q.tail + 10 then q.head else q.head + 1 }

/-- The entry to play: the one just behind the tail. -/
def current (q : SoundRing) : RegisterFrame := q.slots[q.tail + 11]

/-- Moves on to the next entry, if there is one. -/
def advance (q : SoundRing) : SoundRing :=
  if q.tail = q.head then q else { q with tail := q.tail + 1 }

/-- Number of entries that are still to be played. -/
def pending (q : SoundRing) : Nat := (q.head - q.tail).val

end SoundRing

end FantasyConsole
