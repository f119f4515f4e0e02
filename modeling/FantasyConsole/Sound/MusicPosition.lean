import FantasyConsole.Memory.Ram

/-!
# The position of the music

Which track is played, how far it has come, and how it goes on at its end lies in four bytes of
memory, where a program can see and change it.
-/

namespace FantasyConsole

/-- Whether the sequencer runs, and what it does at the end of a frame of the track. -/
inductive MusicStatus where
  | stopped
  /-- Plays one frame of the track over and over. -/
  | playFrame
  /-- Plays the frames of the track in turn. -/
  | play
deriving DecidableEq, Repr

/-- The position of the sequencer, as memory holds it. -/
structure MusicPosition where
  track : Int
  frame : Int
  row : Int
  looped : Bool
  status : MusicStatus
  /-- Whether channels sound on across frames of the track. -/
  sustain : Bool
deriving DecidableEq, Repr

namespace MusicPosition

/-- The position in memory: three signed bytes, and one of flags. -/
def load (r : Ram) : MusicPosition :=
  let start := Layout.musicState.offset
  let flags := r.byte (start + 3)
  { track := signedByte (r.byte start)
    frame := signedByte (r.byte (start + 1))
    row := signedByte (r.byte (start + 2))
    looped := flags &&& 0x01 != 0
    status := match (flags >>> 1) &&& 0x03 with
      | 1 => .playFrame
      | 2 => .play
      | _ => .stopped
    sustain := flags &&& 0x08 != 0 }

/-- The byte of flags. -/
def flags (p : MusicPosition) : UInt8 :=
  let status : UInt8 := match p.status with
    | .stopped => 0
    | .playFrame => 1
    | .play => 2
  p.looped.toUInt8 ||| (status <<< 1) ||| (p.sustain.toUInt8 <<< 3)

/-- Writes the position into memory. -/
def store (p : MusicPosition) (r : Ram) : Ram :=
  r.setRegion Layout.musicState #v[byteOfInt p.track, byteOfInt p.frame, byteOfInt p.row, p.flags]

end MusicPosition

end FantasyConsole
