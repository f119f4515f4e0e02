import FantasyConsole.Sound.Ring

/-!
# Channels

A channel plays one sample. Every frame it moves on by one tick, and if it is heard then its
register (frequency, volume and waveform) and the volumes of its two sides are written into memory.
-/

namespace FantasyConsole

/-- How far a channel has come in its sample. -/
structure Progress where
  /-- Frames since the first one. -/
  tick : Nat
  /-- The envelope tick that each part of the envelope has reached. -/
  positions : Envelope Int
deriving DecidableEq, Repr

/-- The playback state of one channel. -/
structure Channel where
  /-- The sample that plays, `none` when the channel is stopped. -/
  sample : Option (Fin sampleCount) := none
  /-- Semitones above the lowest note. -/
  note : Int := 0
  left : UInt8 := 0
  right : UInt8 := 0
  speed : Int := 0
  /-- Frames left to play, -1 to play until stopped. -/
  duration : Int := -1
  /-- `none` before the first frame and after the last. -/
  progress : Option Progress := none
deriving DecidableEq, Repr

/-- The frequency of each note, from eight notes below the first octave on. -/
def noteFrequencies : Vector Nat 104 := #v[
  0x10, 0x11, 0x12, 0x13, 0x15, 0x16, 0x17, 0x18, 0x1a, 0x1c, 0x1d, 0x1f, 0x21, 0x23, 0x25,
  0x27, 0x29, 0x2c, 0x2e, 0x31, 0x34, 0x37, 0x3a, 0x3e, 0x41, 0x45, 0x49, 0x4e, 0x52, 0x57,
  0x5c, 0x62, 0x68, 0x6e, 0x75, 0x7b, 0x83, 0x8b, 0x93, 0x9c, 0xa5, 0xaf, 0xb9, 0xc4, 0xd0,
  0xdc, 0xe9, 0xf7, 0x106, 0x115, 0x126, 0x137, 0x14a, 0x15d, 0x172, 0x188, 0x19f, 0x1b8,
  0x1d2, 0x1ee, 0x20b, 0x22a, 0x24b, 0x26e, 0x293, 0x2ba, 0x2e4, 0x310, 0x33f, 0x370, 0x3a4,
  0x3dc, 0x417, 0x455, 0x497, 0x4dd, 0x527, 0x575, 0x5c8, 0x620, 0x67d, 0x6e0, 0x749, 0x7b8,
  0x82d, 0x8a9, 0x92d, 0x9b9, 0xa4d, 0xaea, 0xb90, 0xc40, 0xcfa, 0xdc0, 0xe91, 0xf6f,
  0x105a, 0x1153, 0x125b, 0x1372, 0x149a, 0x15d4, 0x1720, 0x1880]

/-- The frequency of a note; notes beyond the table take the nearest one in it. -/
def noteFrequency (note : Int) : Int := noteFrequencies[(clampInt 0 103 note).toNat]?.getD 0

/-- What a channel that is heard puts into its register and its stereo volumes. -/
structure Register where
  frequency : Nat
  volume : Nat
  waveform : Vector UInt8 waveformBytes
  left : UInt8
  right : UInt8
deriving DecidableEq, Repr

/-- Writes the register and the stereo volumes of a channel into memory. -/
def Register.store (g : Register) (c : Fin channelCount) (r : Ram) : Ram :=
  let start := Layout.registers.offset + c * registerBytes
  let r := r.setByte start (UInt8.ofNat g.frequency)
  let r := r.setByte (start + 1) (UInt8.ofNat (g.frequency / 256 % 16 + g.volume * 16))
  let r := r.setBlock (start + 2) g.waveform
  let r := r.setPacked .four (2 * Layout.stereo.offset + 2 * c) g.left
  r.setPacked .four (2 * Layout.stereo.offset + 2 * c + 1) g.right

namespace Channel

/-- Number of semitones in an octave. -/
def octaveNotes : Int := 12

def isActive (ch : Channel) : Bool := ch.sample.isSome

/-- The speed that a caller chose, if it is one that a channel can play at. -/
def speed? (speed : Int) : Option Int := if -4 ≤ speed ∧ speed ≤ 3 then some speed else none

/-- Starts a sample, or stops the channel when there is none. -/
def start (ch : Channel) (r : Ram) (sample : Option (Fin sampleCount)) (note octave duration : Int)
    (left right : UInt8) (speed : Option Int) : Channel where
  sample := sample
  -- a note beyond 32 bits saturates, it does not wrap
  note := saturate32 (note + saturate32 (octave * octaveNotes))
  left := left
  right := right
  speed := match sample with
    | none => ch.speed
    -- no speed was chosen: the sample brings its own
    | some i => speed.getD (Sample.load r i).speed
  duration := duration
  progress := none

/-- The envelope positions of a channel in memory, -1 while it is idle. -/
def positions (ch : Channel) : Envelope Int :=
  match ch.progress with
  | some p => p.positions
  | none => ⟨-1, -1, -1, -1⟩

/-- Frames since the first one, -1 before it. -/
def tick (ch : Channel) : Int :=
  match ch.progress with
  | some p => p.tick
  | none => -1

/-- Writes the envelope positions of a channel into memory. -/
def storePositions (ch : Channel) (c : Fin channelCount) (r : Ram) : Ram :=
  r.setBlock (Layout.effectPositions.offset + 4 * c) (ch.positions.toVector.map byteOfInt)

def loadWaveform (r : Ram) (index : Nat) : Vector UInt8 waveformBytes :=
  r.block (Layout.waveforms.offset + index * waveformBytes) waveformBytes

/-- The register of a channel whose sample has come to some envelope positions; `note` and `pitch`
already hold what the music adds. -/
def register? (ch : Channel) (r : Ram) (sample : Sample) (positions : Envelope Int)
    (note pitch : Int) : Option Register :=
  let ticks := positions.map sample.tickAt
  let volume := maxVolume - ticks.volume.volume
  if volume = 0 then
    -- not heard: the register stays as it is
    none
  else
    let chord : Int := if sample.reverse then -ticks.chord.chord else ticks.chord.chord
    let scale : Int := if sample.pitch16x then 16 else 1
    let frequency := noteFrequency (saturate32 (note + chord)) + ticks.pitch.pitch * scale + pitch
    some
      { frequency := (frequency % 4096).toNat
        volume := volume
        waveform := loadWaveform r ticks.wave.wave
        left := if sample.muteLeft then 0 else ch.left
        right := if sample.muteRight then 0 else ch.right }

/-- Moves a channel on by one frame. -/
def advance (ch : Channel) (r : Ram) (note pitch : Int) : Channel × Option Register :=
  let ch := { ch with duration := if 0 < ch.duration then ch.duration - 1 else ch.duration }
  match ch.sample with
  | none => ({ ch with progress := none }, none)
  | some i =>
    if ch.duration = 0 then
      -- that was its last frame
      ({ ch with progress := none }, none)
    else
      let sample := Sample.load r i
      let tick := match ch.progress with
        | some p => p.tick + 1
        | none => 0
      let positions := sample.loops.map (·.position (envelopeProgress ch.speed tick))
      ({ ch with progress := some ⟨tick, positions⟩ }, ch.register? r sample positions note pitch)

/-- Moves a channel on by one frame and writes its register, if it is heard. -/
def play (ch : Channel) (c : Fin channelCount) (r : Ram) (note pitch : Int) : Channel × Ram :=
  match ch.advance r note pitch with
  | (ch, some register) => (ch, register.store c r)
  | (ch, none) => (ch, r)

end Channel

end FantasyConsole
