import FantasyConsole.Sound.Channel

/-!
# Music effects

The commands of a track start effects that then run on a channel: an arpeggio, a vibrato, a slide
and a fine pitch change what the channel plays in each tick, and a delay holds a row back.
-/

namespace FantasyConsole

/-- Two notes that are played in turn with the channel's own. -/
structure Arpeggio where
  tick : Nat := 0
  note1 : Nat := 0
  note2 : Nat := 0
deriving DecidableEq, Repr

structure Vibrato where
  tick : Nat := 0
  period : Nat := 0
  depth : Nat := 0
deriving DecidableEq, Repr

/-- A slide from an earlier note to the channel's own. -/
structure Slide where
  tick : Nat := 0
  note : Int := 0
  duration : Nat := 0
deriving DecidableEq, Repr

/-- A row that is held back, and the ticks until it may be played. -/
structure Delay where
  row : Option PatternRow := none
  ticks : Nat := 0
deriving DecidableEq, Repr

/-- The commands that run on one channel. -/
structure Effects where
  arpeggio : Arpeggio := {}
  vibrato : Vibrato := {}
  slide : Slide := {}
  finePitch : Int := 0
  delay : Delay := {}
deriving DecidableEq, Repr

namespace Effects

/-- One period of a sine, scaled by 65536. -/
def sine : Vector Int 32 := #v[
  0x0, 0x31f1, 0x61f8, 0x8e3a, 0xb505, 0xd4db, 0xec83, 0xfb15,
  0x10000, 0xfb15, 0xec83, 0xd4db, 0xb505, 0x8e3a, 0x61f8, 0x31f1,
  0x0, -0x31f1, -0x61f8, -0x8e3a, -0xb505, -0xd4db, -0xec83, -0xfb15,
  -0x10000, -0xfb15, -0xec83, -0xd4db, -0xb505, -0x8e3a, -0x61f8, -0x31f1]

/-- Semitones that the arpeggio adds in this tick. -/
def arpeggioNote (e : Effects) : Int :=
  let a := e.arpeggio
  let notes : Nat := if a.note2 = 0 then 2 else 3
  match a.tick % notes with
  | 0 => 0
  | 1 => a.note1
  | _ => a.note2

/-- Frequency that the vibrato adds in this tick. -/
def vibratoPitch (e : Effects) : Int :=
  let v := e.vibrato
  if v.period = 0 ∨ v.depth = 0 then 0
  else
    let span := 2 * v.period
    ((sine[v.tick % span * 32 / span]?.getD 0) * v.depth) / 65536

/-- The note to play on a channel whose own note is given, and the frequency to add to it. -/
def apply (e : Effects) (note : Int) : Int × Int :=
  let pitch := e.vibratoPitch
  if e.slide.tick < e.slide.duration then
    -- the note the slide comes from is played, and the frequency moves towards the channel's own
    let distance := noteFrequency note - noteFrequency e.slide.note
    (e.slide.note, pitch + (distance * e.slide.tick).tdiv e.slide.duration + e.finePitch)
  else
    (note + e.arpeggioNote, pitch + e.finePitch)

/-- Counts one tick. -/
def tickOn (e : Effects) : Effects :=
  { e with
    arpeggio.tick := e.arpeggio.tick + 1
    vibrato.tick := e.vibrato.tick + 1
    slide.tick := e.slide.tick + 1
    delay.ticks := e.delay.ticks - 1 }

end Effects

end FantasyConsole
