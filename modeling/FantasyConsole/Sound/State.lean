import FantasyConsole.Sound.Sequencer

/-!
# The sound of the console

Four channels play effects, four more play the music, and both share the four registers: effects are
written after the music and win. The registers are cleared when a frame begins and queued when it
ends.
-/

namespace FantasyConsole

structure Sound where
  effects : PerChannel Channel
  music : Sequencer
  ring : SoundRing
deriving DecidableEq

namespace Sound

/-- Nothing plays and nothing is queued. -/
def fresh : Sound := ⟨Vector.replicate _ {}, .fresh, .empty⟩

/-- A sample that a caller names, by a number below the sample count. A negative number names
none. -/
def sampleOf (index : Int) : Option (Fin sampleCount) :=
  if h : 0 ≤ index ∧ index < sampleCount then some ⟨index.toNat, by omega⟩ else none

/-- The volume of a side that a caller asks for. -/
def limitVolume (volume : UInt8) : UInt8 := min volume 15

/-- Plays a sample on a channel, or stops the channel for a negative index. `none` when there is no
such channel or sample. -/
def playEffect? (s : Sound) (r : Ram) (index note octave duration channel : Int)
    (left right : UInt8) (speed : Int) : Option (Sound × Ram) :=
  if h : 0 ≤ channel ∧ channel < channelCount ∧ index < sampleCount then
    let c : Fin channelCount := ⟨channel.toNat, by omega⟩
    let ch := (s.effects.get c).start r (sampleOf index) note octave duration (limitVolume left)
      (limitVolume right) (Channel.speed? speed)
    some ({ s with effects := s.effects.replace c ch }, ch.storePositions c r)
  else
    none

/-- Starts a track, or stops the music for a negative track. `none` when there is no such track. -/
def playMusic? (s : Sound) (r : Ram) (track frame row : Int) (looped sustain : Bool)
    (tempo speed : Int) : Option (Sound × Ram) :=
  if track < 0 then
    let (music, r) := s.music.stop r
    some ({ s with music := music }, r)
  else
    match Track.index? track with
    | some index =>
      let (music, r) := s.music.start r index frame row looped sustain tempo.toNat? speed.toNat?
      some ({ s with music := music }, r)
    | none => none

/-- Stops everything and clears the sound registers. -/
def reset (s : Sound) (r : Ram) : Sound × Ram :=
  let stopped : MusicPosition :=
    { track := -1, frame := 0, row := 0, looped := false, status := .stopped, sustain := false }
  let r := stopped.store r
  let r := r.fillRegion Layout.registers 0
  let r := r.fillRegion Layout.effectPositions 0xFF
  -- what is queued stays queued
  ({ fresh with ring := s.ring }, r)

/-- Moves one effect channel on by one frame, if it plays. -/
def tickEffect (s : Sound) (r : Ram) (c : Fin channelCount) : Sound × Ram :=
  let ch := s.effects.get c
  if ch.isActive then
    -- an idle channel leaves its register to the music
    let (ch, r) := ch.play c r ch.note 0
    ({ s with effects := s.effects.replace c ch }, ch.storePositions c r)
  else
    (s, r)

/-- Begins a frame: clears the registers, then moves on the music and the effects. -/
def beginFrame (s : Sound) (r : Ram) : Except Fault (Sound × Ram) := do
  let r := r.fillRegion Layout.registers 0
  let r := r.setWord Layout.stereo.offset 0xFFFFFFFF
  let (music, r) ← s.music.tick r
  return allChannels.foldl (fun (s, r) c => tickEffect s r c) ({ s with music := music }, r)

/-- Ends a frame: queues its registers. -/
def endFrame (s : Sound) (r : Ram) : Sound :=
  { s with ring := s.ring.push (.load r) }

end Sound

end FantasyConsole
