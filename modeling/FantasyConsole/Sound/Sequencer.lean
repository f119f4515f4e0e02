import FantasyConsole.Fault
import FantasyConsole.Sound.Effects
import FantasyConsole.Sound.MusicPosition

/-!
# The music sequencer

The sequencer walks through the frames and rows of a track. The position it has reached lies in
memory, where a program can see and change it; the state of the channels and of the commands that
run on them lies outside. Every frame of the console the sequencer derives the row from its tick
counter, hands each new row to the channels, and moves the channels on.
-/

namespace FantasyConsole

/-- Where a jump goes: a frame of the track, and a row in steps of four. -/
structure Jump where
  frame : Nat
  beat : Nat
deriving DecidableEq, Repr

/-- The state of the sequencer outside memory. -/
structure Sequencer where
  ticks : Int
  channels : PerChannel Channel
  effects : PerChannel Effects
  /-- A jump that waits for the end of its row. -/
  jump : Option Jump
  /-- A tempo chosen in place of the track's. -/
  tempo : Option Nat
  /-- A speed chosen in place of the track's. -/
  speed : Option Nat
deriving DecidableEq

namespace Sequencer

def rowsPerBeat : Int := 4

def defaultTempo : Int := 150

def defaultSpeed : Int := 6

/-- Rows in a minute at the tempo that counts frames, 60 in a second. -/
def rowsPerMinute : Int := 900

def fresh : Sequencer where
  ticks := 0
  channels := Vector.replicate _ {}
  effects := Vector.replicate _ {}
  jump := none
  tempo := none
  speed := none

/-- The tempo in force. -/
def tempoOf (s : Sequencer) (t : Track) : Int :=
  match s.tempo with
  | some tempo => tempo
  | none => t.tempo + defaultTempo

/-- The speed in force. -/
def speedOf (s : Sequencer) (t : Track) : Int :=
  match s.speed with
  | some speed => speed
  | none => t.speed + defaultSpeed

/-- The row that is played at a tick. -/
def rowOfTick (s : Sequencer) (t : Track) (tick : Int) : Int :=
  let speed := s.speedOf t
  if speed = 0 then 0
  -- products wrap in 32 bits, quotients are cut off towards 0
  else ((wrap32 (wrap32 (tick * s.tempoOf t) * defaultSpeed)).tdiv speed).tdiv rowsPerMinute

/-- The tick at which a row is played. -/
def tickOfRow (s : Sequencer) (t : Track) (row : Int) : Int :=
  let tempo := s.tempoOf t
  if tempo = 0 then 0
  else ((wrap32 (wrap32 (row * s.speedOf t) * rowsPerMinute)).tdiv tempo).tdiv defaultSpeed

/-- Stops every channel and sets the volumes for the next notes. -/
def silence (s : Sequencer) (volume : UInt8) : Sequencer :=
  { s with
    channels := s.channels.map fun ch =>
      { sample := none, note := 0, left := volume, right := volume, speed := ch.speed,
        duration := -1, progress := none } }

/-- Stops every channel and every command. -/
def clear (s : Sequencer) : Sequencer :=
  { s.silence 0 with effects := Vector.replicate _ {}, jump := none }

def stop (s : Sequencer) (r : Ram) : Sequencer × Ram :=
  (s.clear, { MusicPosition.load r with track := -1, status := .stopped }.store r)

/-- Starts a track at a frame and row. -/
def start (s : Sequencer) (r : Ram) (track : Fin trackCount) (frame row : Int)
    (looped sustain : Bool) (tempo speed : Option Nat) : Sequencer × Ram :=
  let s := s.silence (UInt8.ofNat maxVolume)
  let position : MusicPosition :=
    { track := track, frame := clampInt 0 (trackFrames - 1) frame, row := -1
      looped := looped, status := .play, sustain := sustain }
  let r := position.store r
  let s := { s with tempo := tempo, speed := speed }
  -- the position is before the first row, so that the row it starts with counts as new
  ({ s with ticks := if 0 ≤ row then s.tickOfRow (Track.load r track) row else 0 }, r)

/-! ### Playing rows -/

def setEffects (s : Sequencer) (c : Fin channelCount) (e : Effects) : Sequencer :=
  { s with effects := s.effects.replace c e }

def setChannel (s : Sequencer) (c : Fin channelCount) (ch : Channel) : Sequencer :=
  { s with channels := s.channels.replace c ch }

/-- The row to play when a channel reaches `row`, and the rows held back afterwards. -/
def dueRow (d : Delay) (row : PatternRow) : Option PatternRow × Delay :=
  let (reached, d) :=
    if row.command = .delay then (none, { row := some row, ticks := row.param })
    else (some row, d)
  -- a row that has been held back long enough comes in place of the one that was reached
  if d.row.isSome ∧ d.ticks = 0 then (d.row, { d with row := none }) else (reached, d)

/-- Starts or stops a channel's note as a row says. -/
def playNote (s : Sequencer) (r : Ram) (c : Fin channelCount) (row : PatternRow) : Sequencer :=
  let ch := s.channels.get c
  let s :=
    if row.note = 0 then s
    else
      let e := s.effects.get c
      s.setEffects c { e with slide.tick := 0, slide.note := ch.note }
  if row.note = PatternRow.stopNote then
    s.setChannel c (ch.start r none 0 0 (-1) ch.left ch.right none)
  else if PatternRow.firstNote ≤ row.note then
    s.setChannel c
      (ch.start r (some row.sample) (row.note - PatternRow.firstNote : Nat) row.octave (-1)
        ch.left ch.right none)
  else
    s

/-- Starts a row's command on a channel. -/
def runCommand (s : Sequencer) (c : Fin channelCount) (row : PatternRow) : Sequencer :=
  let e := s.effects.get c
  match row.command with
  | .volume =>
    let ch := s.channels.get c
    s.setChannel c { ch with left := UInt8.ofNat row.param1, right := UInt8.ofNat row.param2 }
  | .chord => s.setEffects c { e with arpeggio := ⟨0, row.param1, row.param2⟩ }
  | .jump => { s with jump := some ⟨row.param1, row.param2⟩ }
  | .vibrato => s.setEffects c { e with vibrato := ⟨0, row.param1, row.param2⟩ }
  | .slide => s.setEffects c { e with slide.duration := row.param }
  | .pitch => s.setEffects c { e with finePitch := row.param - 128 }
  | .empty | .delay => s

/-- Hands a row that was reached to a channel. -/
def applyRow (s : Sequencer) (r : Ram) (c : Fin channelCount) (row : PatternRow) : Sequencer :=
  let e := s.effects.get c
  let (due, delay) := dueRow e.delay row
  let s := s.setEffects c { e with delay := delay }
  match due with
  | none => s
  | some row => (s.playNote r c row).runCommand c row

/-- Hands the row at a position to every channel that plays a pattern there. -/
def applyRows (s : Sequencer) (r : Ram) (t : Track) (frame row : Int) : Except Fault Sequencer :=
  allChannels.foldlM
    (fun s c =>
      let id := t.patternId (clampInt 0 (trackFrames - 1) frame).toNat c
      if id = 0 ∨ patternCount < id then .ok s
      else
        match PatternRow.load? r id row with
        | none => .error (.rowOutOfRange id row)
        | some row => .ok (s.applyRow r c row))
    s

/-- Moves every channel on by one frame. -/
def playChannels (s : Sequencer) (r : Ram) : Sequencer × Ram :=
  allChannels.foldl
    (fun (s, r) c =>
      let e := s.effects.get c
      let (s, r) :=
        if (s.channels.get c).isActive then
          let (note, pitch) := e.apply (s.channels.get c).note
          let (ch, r) := (s.channels.get c).play c r note pitch
          (s.setChannel c ch, r)
        else
          (s, r)
      (s.setEffects c e.tickOn, r))
    (s, r)

/-! ### One frame -/

/-- Takes a jump that is waiting, once the row it was found in is over. -/
def takeJump (s : Sequencer) (t : Track) (p : MusicPosition) : Sequencer × MusicPosition × Int :=
  let row := s.rowOfTick t s.ticks
  match s.jump with
  | some jump =>
    if row = p.row then
      -- the row that asked for the jump still sounds
      (s, p, row)
    else
      let row := jump.beat * rowsPerBeat
      ({ s with ticks := s.tickOfRow t row, jump := none }, { p with frame := jump.frame }, row)
  | none => (s, p, row)

/-- The frame of the track that follows a frame when the last row has been played; `none` when the
music ends there. -/
def nextFrame (t : Track) (p : MusicPosition) : Option Int :=
  match p.status with
  | .play =>
    let frame := p.frame + 1
    if frame < 0 ∨ trackFrames ≤ frame ∨ t.isSilent frame.toNat then
      if p.looped then some 0 else none
    else
      some frame
  | _ => if p.looped then some p.frame else none

/-- Begins the next frame of the track when the last row has been played; `none` when the music
ends there. -/
def turnFrame (s : Sequencer) (t : Track) (p : MusicPosition) (row : Int) :
    Option (Sequencer × MusicPosition × Int) :=
  if row < t.patternLength then
    some (s, p, row)
  else do
    let frame ← nextFrame t p
    let s := { s with ticks := 0 }
    let s := if p.sustain then s else s.clear.silence (UInt8.ofNat maxVolume)
    return (s, { p with frame := frame }, 0)

/-- Moves the music on by one frame of the console. -/
def tick (s : Sequencer) (r : Ram) : Except Fault (Sequencer × Ram) := do
  let p := MusicPosition.load r
  if p.status = .stopped then
    return (s, r)
  match Track.index? p.track with
  | none => return s.stop r
  | some index =>
    let t := Track.load r index
    let (s, p, row) := s.takeJump t p
    match s.turnFrame t p row with
    | none => return ({ s with ticks := 0 }.stop r)
    | some (s, p, row) =>
      let (s, p) ←
        -- only a row that is new is handed to the channels
        if row = p.row then
          pure (s, p)
        else do
          let p := { p with row := signedByte (byteOfInt row) }
          let s ← s.applyRows r t p.frame p.row
          pure (s, p)
      let (s, r) := s.playChannels (p.store r)
      return ({ s with ticks := wrap32 (s.ticks + 1) }, r)

end Sequencer

end FantasyConsole
