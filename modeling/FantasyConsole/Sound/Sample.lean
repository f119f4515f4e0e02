import FantasyConsole.Memory.Ram

/-!
# Samples and waveforms

A sample is an instrument packed into 66 bytes: an envelope of 30 ticks, the loops in which the four
parts of the envelope run, and settings. A waveform is 32 packed values of four bits.
-/

namespace FantasyConsole

abbrev envelopeTicks : Nat := 30

abbrev sampleCount : Nat := 64

abbrev sampleBytes : Nat := 66

abbrev waveformBytes : Nat := 16

/-- One thing for each of the four parts of an envelope. -/
structure Envelope (α : Type) where
  wave : α
  volume : α
  chord : α
  pitch : α
deriving DecidableEq, Repr

namespace Envelope

def map {α β : Type} (f : α → β) (e : Envelope α) : Envelope β :=
  ⟨f e.wave, f e.volume, f e.chord, f e.pitch⟩

/-- The four parts in the order in which they are stored. -/
def toVector {α : Type} (e : Envelope α) : Vector α 4 := #v[e.wave, e.volume, e.chord, e.pitch]

end Envelope

structure EnvelopeTick where
  /-- How far below full volume the tick is. -/
  volume : Nat
  /-- Index of the waveform. -/
  wave : Nat
  /-- Semitones above the note, or below it in a reversed sample. -/
  chord : Nat
  /-- Added to the frequency. -/
  pitch : Int
deriving DecidableEq, Repr

/-- Where a part of an envelope starts over. -/
structure SampleLoop where
  start : Nat
  size : Nat
deriving DecidableEq, Repr

namespace SampleLoop

/-- The envelope tick reached after `pos` ticks. The envelope runs forward to the end of the loop
and then through the loop again and again; without a loop it stays at its last tick. -/
def position (l : SampleLoop) (pos : Int) : Int :=
  if pos ≤ 0 then 0
  else if l.size = 0 then min pos (envelopeTicks - 1)
  else
    let last : Int := l.start + l.size - 1
    if pos ≤ last then pos else l.start + (pos - last - 1) % l.size

end SampleLoop

/-- Ticks of the envelope that have passed after `ticks` frames at a signed speed: a positive speed
runs faster than one tick for each frame, a negative one slower. -/
def envelopeProgress (speed ticks : Int) : Int :=
  if 0 < speed then ticks * (1 + speed) else ticks.tdiv (1 - speed)

structure Sample where
  ticks : Vector EnvelopeTick envelopeTicks
  octave : Nat
  /-- Whether the pitch of the envelope counts sixteenfold. -/
  pitch16x : Bool
  /-- Playback speed, from -4 to 3. -/
  speed : Int
  /-- Whether the chord goes down instead of up. -/
  reverse : Bool
  note : Nat
  /-- Whether the left side is silent. -/
  muteLeft : Bool
  /-- Whether the right side is silent. -/
  muteRight : Bool
  loops : Envelope SampleLoop
deriving DecidableEq, Repr

namespace Sample

/-- A loop packed into one byte. -/
def decodeLoop (b : UInt8) : SampleLoop := ⟨(b &&& 0x0F).toNat, (b >>> 4).toNat⟩

/-- One tick of an envelope, packed into two bytes. -/
def decodeTick (a b : UInt8) : EnvelopeTick where
  volume := (a &&& 0x0F).toNat
  wave := (a >>> 4).toNat
  chord := (b &&& 0x0F).toNat
  pitch := signExtend 4 (b >>> 4)

/-- The sample in 66 bytes, where `byte i` is the `i`-th of them. -/
def decode (byte : Nat → UInt8) : Sample :=
  let flags := byte 60
  let note := byte 61
  { ticks := Vector.ofFn fun i => decodeTick (byte (2 * i)) (byte (2 * i + 1))
    octave := (flags &&& 0x07).toNat
    pitch16x := flags &&& 0x08 != 0
    speed := signExtend 3 (flags >>> 4)
    reverse := flags &&& 0x80 != 0
    note := (note &&& 0x0F).toNat
    muteLeft := note &&& 0x10 != 0
    muteRight := note &&& 0x20 != 0
    loops :=
      ⟨decodeLoop (byte 62), decodeLoop (byte 63), decodeLoop (byte 64), decodeLoop (byte 65)⟩ }

/-- The sample at the start of a block of bytes, if the block is long enough. -/
def ofBytes? (bytes : Array UInt8) : Option Sample :=
  if sampleBytes ≤ bytes.size then some (decode (bytes.getD · 0)) else none

def load (r : Ram) (i : Fin sampleCount) : Sample :=
  decode fun k => r.byte (Layout.samples.offset + i * sampleBytes + k)

def tickAt (s : Sample) (position : Int) : EnvelopeTick :=
  s.ticks[position.toNat]?.getD ⟨0, 0, 0, 0⟩

end Sample

/-- Whether a waveform stands for noise: all of its values are 0, or all are 15. -/
def isNoise (waveform : List UInt8) : Bool :=
  match waveform.head? with
  | none => false
  | some first => (first == 0x00 || first == 0xFF) && waveform.all (· == first)

end FantasyConsole
