import FantasyConsole.Proofs.Sound.PlayedRows
import FantasyConsole.Proofs.Sound.RowTime
import Mathlib.Order.Bounds.Defs

/-!
# The schedule of the music

Rows come from a tick counter that is set back at the end of each frame of the track. As long as
nothing jumps, every frame therefore takes the same number of ticks: the least number whose row lies
past the end of the pattern. Which row and frame is played in a frame of the console then follows
from a division with remainder.
-/

namespace FantasyConsole

open Ram

/-! ### The pace of the rows -/

/-- An even pace: a row is played for every `150 * speed` that the tempo adds up to, and a frame of
the track ends with the first tick that comes to a row past its last. -/
structure Pace where
  tempo : Nat
  speed : Nat
  rows : Nat
  /-- Ticks that a frame of the track takes. -/
  period : Nat
  tempo_pos : 0 < tempo
  speed_pos : 0 < speed
  rows_pos : 0 < rows
  least : IsLeast {k | 150 * speed * rows ≤ k * tempo} period
  small : ((period * tempo * 6 : Nat) : Int) ≤ maxInt32

namespace Pace

/-- A pace whose period is the first one that is long enough. -/
def ofPeriod (tempo speed rows period : Nat) (positive : 0 < tempo ∧ 0 < speed ∧ 0 < rows)
    (enough : 150 * speed * rows ≤ period * tempo)
    (least : (period - 1) * tempo < 150 * speed * rows)
    (small : ((period * tempo * 6 : Nat) : Int) ≤ maxInt32) : Pace where
  tempo := tempo
  speed := speed
  rows := rows
  period := period
  tempo_pos := positive.1
  speed_pos := positive.2.1
  rows_pos := positive.2.2
  least := by
    refine ⟨enough, fun k reached => Nat.le_of_not_lt fun early => ?_⟩
    have before : k * tempo ≤ (period - 1) * tempo := Nat.mul_le_mul_right tempo (by omega)
    exact absurd (Nat.le_trans reached before) (by omega)
  small := small

/-- The row that is played at a tick of a frame of the track. -/
def rowAt (pace : Pace) (tick : Nat) : Nat := tick * pace.tempo / (150 * pace.speed)

@[simp] theorem rowAt_zero (pace : Pace) : pace.rowAt 0 = 0 := by
  simp [rowAt]

theorem rowAt_lt (pace : Pace) {tick : Nat} (early : tick < pace.period) :
    pace.rowAt tick < pace.rows := by
  apply Nat.div_lt_of_lt_mul
  apply Nat.lt_of_not_le
  intro late
  exact Nat.not_le_of_lt early (pace.least.2 late)

theorem le_rowAt_period (pace : Pace) : pace.rows ≤ pace.rowAt pace.period := by
  have positive : 0 < 150 * pace.speed := Nat.mul_pos (by decide) pace.speed_pos
  apply (Nat.le_div_iff_mul_le positive).mpr
  rw [Nat.mul_comm]
  exact pace.least.1

theorem period_pos (pace : Pace) : 0 < pace.period := by
  apply Nat.pos_of_ne_zero
  intro none
  have late := pace.le_rowAt_period
  rw [none, rowAt_zero] at late
  exact absurd pace.rows_pos (by omega)

theorem period_le (pace : Pace) : (pace.period : Int) ≤ maxInt32 := by
  have factor : pace.period * 1 ≤ pace.period * (pace.tempo * 6) :=
    Nat.mul_le_mul_left _ (Nat.mul_pos pace.tempo_pos (by decide))
  have small := pace.small
  rw [Nat.mul_assoc] at small
  omega

/-- No product wraps before a frame of the track is over. -/
theorem rowOfTick_eq (pace : Pace) {s : Sequencer} {t : Track} (tempo : s.tempoOf t = pace.tempo)
    (speed : s.speedOf t = pace.speed) {tick : Nat} (bound : tick ≤ pace.period) :
    s.rowOfTick t tick = pace.rowAt tick := by
  have growth : tick * pace.tempo * 6 ≤ pace.period * pace.tempo * 6 :=
    Nat.mul_le_mul_right _ (Nat.mul_le_mul_right _ bound)
  exact Sequencer.rowOfTick_natCast tempo speed pace.speed_pos
    (Int.le_trans (Int.ofNat_le.mpr growth) pace.small)

end Pace

/-! ### The order of the frames -/

/-- The frame that follows a frame of the track; `none` where the music ends. -/
def Track.successor? (t : Track) (looped : Bool) (frame : Nat) : Option Nat :=
  if frame + 1 = trackFrames ∨ t.isSilent (frame + 1) then
    if looped then some 0 else none
  else
    some (frame + 1)

/-- The frame at a place of the order in which frames of the track are played. -/
def Track.order? (t : Track) (looped : Bool) (first : Nat) : Nat → Option Nat
  | 0 => some first
  | place + 1 => (t.order? looped first place).bind (t.successor? looped)

theorem Track.order?_lt {t : Track} {looped : Bool} {first place frame : Nat}
    (inside : first < trackFrames) (found : t.order? looped first place = some frame) :
    frame < trackFrames := by
  induction place generalizing frame with
  | zero => exact Option.some.inj found ▸ inside
  | succ place ih =>
    obtain ⟨last, before, next⟩ := Option.bind_eq_some_iff.mp found
    have bound := ih before
    unfold Track.successor? at next
    split at next
    · split at next
      · exact Option.some.inj next ▸ by decide
      · cases next
    · rw [← Option.some.inj next]
      simp only [trackFrames] at *
      omega

theorem Sequencer.nextFrame_eq_successor? (t : Track) {p : MusicPosition} (plays : p.status = .play)
    {frame : Nat} (inside : frame < trackFrames) (own : p.frame = frame) :
    nextFrame t p = (t.successor? p.looped frame).map Nat.cast := by
  have number : ((frame : Int) + 1).toNat = frame + 1 := by omega
  have ends : ((frame : Int) + 1 < 0 ∨ (trackFrames : Int) ≤ frame + 1 ∨ t.isSilent (frame + 1)) ↔
      (frame + 1 = trackFrames ∨ t.isSilent (frame + 1)) := by
    have beyond : ((frame : Int) + 1 < 0 ∨ (trackFrames : Int) ≤ frame + 1) ↔
        frame + 1 = trackFrames := by
      simp only [trackFrames] at inside ⊢
      omega
    rw [← or_assoc, beyond]
  rw [nextFrame, plays, Track.successor?, own]
  dsimp only
  rw [number]
  by_cases last : frame + 1 = trackFrames ∨ t.isSilent (frame + 1)
  · rw [if_pos last, if_pos (ends.mpr last)]
    cases p.looped <;> rfl
  · rw [if_neg last, if_neg (fun first => last (ends.mp first))]
    rfl

/-! ### Music that is played at an even pace -/

/-- A track as it was started: from which memory, at which frame, and in which way. -/
structure Playback where
  song : Ram
  index : Fin trackCount
  first : Fin trackFrames
  looped : Bool
  sustain : Bool
  pace : Pace

namespace Playback

def track (b : Playback) : Track := Track.load b.song b.index

/-- The frame of the track that is played at a place of the order; `none` after the end. -/
def frame? (b : Playback) (place : Nat) : Option Nat := b.track.order? b.looped b.first place

def position (b : Playback) (frame : Nat) (row : Int) : MusicPosition where
  track := b.index
  frame := frame
  row := row
  looped := b.looped
  status := .play
  sustain := b.sustain

/-- Whether no row of a frame of the track asks for a jump. -/
def Calm (b : Playback) (frame : Nat) : Prop :=
  ∀ c, b.track.PlaysAt frame c → ∀ row < b.pace.rows, ∀ pattern,
    PatternRow.load? b.song (b.track.patternAt frame c) (row : Nat) = some pattern →
      pattern.command ≠ .jump

/-- Whether the sequencer is about to play a tick of a frame of the track. -/
structure Ready (b : Playback) (tick : Nat) (s : Sequencer) : Prop where
  ticks : s.ticks = tick
  tempo : s.tempoOf b.track = b.pace.tempo
  speed : s.speedOf b.track = b.pace.speed
  jump : s.jump = none

/-- What holds between two frames of the console: the row was played last, the tick comes next. -/
structure Cued (b : Playback) (frame tick : Nat) (row : Int) (x : Sound × Ram) : Prop where
  position : MusicPosition.load x.2 = b.position frame row
  memory : SameOn [Layout.tracks, Layout.patterns] b.song x.2
  ready : b.Ready tick x.1.music
  inRange : x.1.music.InRange
  holds : x.1.music.HoldsDelays

variable {b : Playback}

theorem Ready.pace_of_timing {tick next : Nat} {s u : Sequencer} (ready : b.Ready tick s)
    (same : u.timing = ((next : Int), s.timing.2)) (idle : u.jump = none) : b.Ready next u := by
  have pace : u.timing.2 = s.timing.2 := by rw [same]
  obtain ⟨tempo, speed⟩ := Sequencer.pace_congr pace b.track
  exact ⟨congrArg Prod.fst same, tempo.trans ready.tempo, speed.trans ready.speed, idle⟩

theorem Ready.turned {tick : Nat} {s : Sequencer} (ready : b.Ready tick s) (sustain : Bool) :
    b.Ready 0 (s.turned sustain) := by
  cases sustain
  · exact ready.pace_of_timing rfl rfl
  · exact ready.pace_of_timing rfl ready.jump

/-- Rows that do not jump take the music from one tick to the next. -/
theorem Ready.moveOn {tick : Nat} {s : Sequencer} (ready : b.Ready tick s)
    (early : tick < b.pace.period) (holds : s.HoldsDelays) {r : Ram}
    {rows : List (Fin channelCount × PatternRow)} (calm : ∀ row ∈ rows, row.2.command ≠ .jump)
    (p : MusicPosition) : b.Ready (tick + 1) ((s.hand r rows).moveOn p r).1 := by
  have timing := s.timing_hand r rows
  have ticks : (s.hand r rows).ticks = tick := (congrArg Prod.fst timing).trans ready.ticks
  have next : wrap32 ((tick : Int) + 1) = (tick + 1 : Nat) := by
    have bound := b.pace.period_le
    apply wrap32_eq_self
    · simp only [minInt32]
      omega
    · omega
  obtain ⟨counted, jump, -⟩ := (s.hand r rows).moveOn_keeps p r
  apply ready.pace_of_timing
  · rw [counted, timing, ticks, next]
  · rw [jump, Sequencer.jump_hand holds r calm, ready.jump]

theorem calm_rowsAt {r : Ram} (memory : SameOn [Layout.tracks, Layout.patterns] b.song r)
    {frame row : Nat} (calm : b.Calm frame) (below : row < b.pace.rows) :
    ∀ handed ∈ Sequencer.rowsAt r b.track frame row, handed.2.command ≠ .jump := by
  rintro ⟨c, pattern⟩ listed
  obtain ⟨plays, loaded⟩ := Sequencer.mem_rowsAt.mp listed
  rw [PatternRow.load?_congr (memory.mono (by decide))] at loaded
  exact calm c plays row below pattern loaded

/-- Music that arrives at a tick of a frame is ready for the next one once its row was played. -/
theorem cued_of_arrival {x : Sound × Ram} {a : Sequencer.Arrival} {frame tick : Nat} {last : Int}
    (rows : b.track.patternLength = b.pace.rows)
    (arrived : x.1.music.arrival? x.2 = some a) (inRange : x.1.music.InRange)
    (holds : x.1.music.HoldsDelays)
    (memory : SameOn [Layout.tracks, Layout.patterns] b.song x.2) (track : a.track = b.track)
    (position : a.position = b.position frame last) (row : a.row = b.pace.rowAt tick)
    (early : tick < b.pace.period) (ready : b.Ready tick a.music) (calm : b.Calm frame) :
    ∃ y, x.1.beginFrame x.2 = .ok y ∧ b.Cued frame (tick + 1) (b.pace.rowAt tick) y := by
  have below := b.pace.rowAt_lt early
  have length : b.pace.rows ≤ 64 := by
    simp only [Track.patternLength, patternRows] at rows
    omega
  -- the row is below 64, so memory holds it as it is and every pattern has it
  have published : a.published = b.position frame (b.pace.rowAt tick) := by
    rw [Sequencer.Arrival.published_eq (by omega) (by omega), position, row]
    rfl
  have harmless : ∀ handed ∈ a.rows x.2, handed.2.command ≠ .jump := by
    rw [Sequencer.Arrival.rows, track, published]
    split
    · intro handed none
      cases none
    · exact calm_rowsAt memory calm below
  obtain ⟨y, begun, arrives⟩ := Sound.beginFrame_of_arrival inRange arrived (by omega)
    (by simp only [patternRows]; omega)
  obtain ⟨moved, ticked, music, -⟩ := Sound.tick_of_beginFrame begun
  refine ⟨y, begun, ?_, memory.trans arrives.memory, ?_, ?_, ?_⟩
  · rw [arrives.position, published]
  · rw [arrives.music]
    exact ready.moveOn early (holds.arrival? arrived) harmless _
  · rw [music]
    exact inRange.tick ticked
  · rw [music]
    exact holds.tick ticked

theorem Cued.arrival? {frame tick : Nat} {row : Int} {x : Sound × Ram}
    (cued : b.Cued frame tick row x) (bound : tick ≤ b.pace.period) :
    x.1.music.arrival? x.2 =
      if (b.pace.rowAt tick : Int) < b.track.patternLength then
        some ⟨b.track, x.1.music, b.position frame row, b.pace.rowAt tick⟩
      else
        (Sequencer.nextFrame b.track (b.position frame row)).map fun next =>
          ⟨b.track, x.1.music.turned b.sustain,
            { b.position frame row with frame := next }, 0⟩ := by
  have playing : (MusicPosition.load x.2).status ≠ .stopped := by
    rw [cued.position]
    simp [Playback.position]
  have found : Track.index? (MusicPosition.load x.2).track = some b.index := by
    rw [cued.position]
    exact Track.index?_val b.index
  have track : Track.load x.2 b.index = b.track :=
    Track.load_congr (cued.memory.mono (by decide)) b.index
  have arrived := Sequencer.arrival?_of_no_jump playing found cued.ready.jump
  dsimp only at arrived
  rw [cued.position, track, cued.ready.ticks,
    b.pace.rowOfTick_eq cued.ready.tempo cued.ready.speed bound] at arrived
  exact arrived

/-- Before the frame of the track is over, the next tick plays its own row there. -/
theorem Cued.stay {frame tick : Nat} {row : Int} {x : Sound × Ram} (cued : b.Cued frame tick row x)
    (rows : b.track.patternLength = b.pace.rows) (calm : b.Calm frame)
    (early : tick < b.pace.period) :
    ∃ y, x.1.beginFrame x.2 = .ok y ∧ b.Cued frame (tick + 1) (b.pace.rowAt tick) y := by
  have below := b.pace.rowAt_lt early
  have arrived := cued.arrival? (Nat.le_of_lt early)
  rw [if_pos (by omega)] at arrived
  exact cued_of_arrival rows arrived cued.inRange cued.holds cued.memory rfl rfl rfl early
    cued.ready calm

/-- When the frame of the track is over, the first row of the next one is played, or the music
stops. -/
theorem Cued.turn {frame : Nat} {row : Int} {x : Sound × Ram}
    (cued : b.Cued frame b.pace.period row x) (rows : b.track.patternLength = b.pace.rows)
    (inside : frame < trackFrames) :
    match b.track.successor? b.looped frame with
    | some next => b.Calm next → ∃ y, x.1.beginFrame x.2 = .ok y ∧ b.Cued next 1 0 y
    | none => ∃ y, x.1.beginFrame x.2 = .ok y ∧ (MusicPosition.load y.2).status = .stopped := by
  have past := b.pace.le_rowAt_period
  have arrived := cued.arrival? (Nat.le_refl _)
  rw [if_neg (by omega), Sequencer.nextFrame_eq_successor? _ rfl inside rfl] at arrived
  change _ = (((b.track.successor? b.looped frame).map Nat.cast).map _) at arrived
  cases following : b.track.successor? b.looped frame with
  | none =>
    rw [following] at arrived
    exact Sound.beginFrame_of_no_arrival arrived
  | some next =>
    rw [following] at arrived
    intro calm
    -- the counter is set back, so the next frame begins with its tick 0
    have begun : ∃ y, x.1.beginFrame x.2 = .ok y ∧ b.Cued next (0 + 1) (b.pace.rowAt 0) y :=
      cued_of_arrival rows arrived cued.inRange cued.holds cued.memory rfl rfl
        (by rw [b.pace.rowAt_zero]; rfl) b.pace.period_pos (cued.ready.turned b.sustain) calm
    rw [b.pace.rowAt_zero] at begun
    exact begun

/-! ### A run of frames -/

/-- Whether the sequencer, its position and its song are left alone. -/
structure LeavesMusic (x y : Sound × Ram) : Prop where
  music : y.1.music = x.1.music
  memory : SameOn Layout.song x.2 y.2

theorem Cued.of_leavesMusic {frame tick : Nat} {row : Int} {x y : Sound × Ram}
    (cued : b.Cued frame tick row x) (left : LeavesMusic x y) : b.Cued frame tick row y where
  position := (MusicPosition.load_congr (left.memory.mono (by decide))).trans cued.position
  memory := cued.memory.trans (left.memory.mono (by decide))
  ready := left.music ▸ cued.ready
  inRange := left.music ▸ cued.inRange
  holds := left.music ▸ cued.holds

/-- Music that has just been started waits before its first row. -/
theorem cued_of_start {s : Sound} (reached : s.Reachable) (idle : s.music.jump = none)
    {tempo speed : Int} {start : Sound × Ram}
    (started : s.playMusic? b.song b.index b.first (-1) b.looped b.sustain tempo speed = some start)
    (tempoIs : start.1.music.tempoOf b.track = b.pace.tempo)
    (speedIs : start.1.music.speedOf b.track = b.pace.speed) :
    b.Cued b.first 0 (-1) start := by
  have after : start.1.Reachable := .playMusic reached started
  have same := started
  rw [s.playMusic?_of_index b.song (Track.index?_val b.index)] at same
  have begun := Option.some.inj same
  have track := b.index.isLt
  have frame := b.first.isLt
  have clamped : clampInt 0 (trackFrames - 1) (b.first : Nat) = (b.first : Nat) := by
    simp only [clampInt, trackFrames] at frame ⊢
    omega
  have memory : start.2 = (b.position b.first (-1)).store b.song := by
    rw [← begun]
    dsimp only [Sequencer.start]
    rw [clamped]
    rfl
  have fits : (b.position b.first (-1)).Fits := by
    simp only [trackCount, trackFrames] at track frame
    constructor <;> simp only [Playback.position] <;> omega
  refine ⟨?_, ?_, ⟨?_, tempoIs, speedIs, ?_⟩, after.inRange.music, after.holdsDelays⟩
  · rw [memory, MusicPosition.load_store fits]
  · rw [memory]
    exact (MusicPosition.sameOutside_store _ _).sameOn (by decide)
  · rw [← begun]
    rfl
  · rw [← begun]
    exact idle

/-- What a frame leaves behind, counted from the start. -/
def After (b : Playback) (n : Nat) (x : Sound × Ram) : Prop :=
  match b.frame? (n / b.pace.period) with
  | some frame => b.Cued frame (n % b.pace.period + 1) (b.pace.rowAt (n % b.pace.period)) x
  | none => (MusicPosition.load x.2).status = .stopped

end Playback

/-- One more tick is one more in the same frame of the track, or the first of the next one. -/
theorem Pace.succ_cases (pace : Pace) (n : Nat) :
    (n % pace.period + 1 < pace.period ∧ (n + 1) / pace.period = n / pace.period ∧
      (n + 1) % pace.period = n % pace.period + 1) ∨
    (n % pace.period + 1 = pace.period ∧ (n + 1) / pace.period = n / pace.period + 1 ∧
      (n + 1) % pace.period = 0) := by
  have positive := pace.period_pos
  have whole := Nat.mod_add_div n pace.period
  have below := Nat.mod_lt n positive
  by_cases last : n % pace.period + 1 = pace.period
  · right
    refine ⟨last, (Nat.div_mod_unique positive).mpr ⟨?_, positive⟩⟩
    rw [Nat.mul_succ]
    omega
  · left
    refine ⟨by omega, (Nat.div_mod_unique positive).mpr ⟨?_, by omega⟩⟩
    omega

namespace Playback

variable {b : Playback}

theorem frame?_succ (b : Playback) (place : Nat) :
    b.frame? (place + 1) = (b.frame? place).bind (b.track.successor? b.looped) := rfl

theorem frame?_lt {place frame : Nat} (found : b.frame? place = some frame) : frame < trackFrames :=
  Track.order?_lt b.first.isLt found

/-- A frame takes music that is left alone from one place of its schedule to the next. -/
theorem After.succ {n : Nat} {x y : Sound × Ram} (after : b.After n x) (left : LeavesMusic x y)
    (rows : b.track.patternLength = b.pace.rows)
    (calm : ∀ place frame, b.frame? place = some frame → b.Calm frame) :
    ∃ z, y.1.beginFrame y.2 = .ok z ∧ b.After (n + 1) z := by
  unfold After at after ⊢
  cases own : b.frame? (n / b.pace.period) with
  | none =>
    rw [own] at after
    -- the order has ended before, and nothing follows its end
    have silent : b.frame? ((n + 1) / b.pace.period) = none := by
      rcases b.pace.succ_cases n with ⟨-, same, -⟩ | ⟨-, next, -⟩
      · rw [same, own]
      · rw [next, frame?_succ, own, Option.bind_none]
    rw [silent]
    apply Sound.beginFrame_of_no_arrival
    rw [Sequencer.arrival?, MusicPosition.load_congr (left.memory.mono (by decide)), if_pos after]
  | some frame =>
    rw [own] at after
    have cued := Cued.of_leavesMusic after left
    rcases b.pace.succ_cases n with ⟨early, same, tick⟩ | ⟨last, next, tick⟩
    · rw [same, own, tick]
      exact cued.stay rows (calm _ _ own) early
    · have following : b.frame? (n / b.pace.period + 1) = b.track.successor? b.looped frame := by
        rw [frame?_succ, own, Option.bind_some]
      rw [last] at cued
      have turned := cued.turn rows (frame?_lt own)
      rw [next, tick, following, b.pace.rowAt_zero]
      cases successor : b.track.successor? b.looped frame with
      | none =>
        rw [successor] at turned
        exact turned
      | some later =>
        rw [successor] at turned following
        exact turned (calm _ _ following)

end Playback

/-- Frames of sound after a start. Before each of them something else may happen. -/
def Sound.framesFrom (before : Nat → Sound × Ram → Sound × Ram) (start : Sound × Ram) :
    Nat → Except Fault (Sound × Ram)
  | 0 => (before 0 start).1.beginFrame (before 0 start).2
  | n + 1 => do
    let x ← framesFrom before start n
    (before (n + 1) x).1.beginFrame (before (n + 1) x).2

namespace Playback

variable {b : Playback}

theorem after_framesFrom {start : Sound × Ram} (cued : b.Cued b.first 0 (-1) start)
    (rows : b.track.patternLength = b.pace.rows)
    (calm : ∀ place frame, b.frame? place = some frame → b.Calm frame)
    {before : Nat → Sound × Ram → Sound × Ram} (leaves : ∀ n x, LeavesMusic x (before n x))
    (n : Nat) : ∃ x, Sound.framesFrom before start n = .ok x ∧ b.After n x := by
  induction n with
  | zero =>
    obtain ⟨x, begun, next⟩ :=
      (cued.of_leavesMusic (leaves 0 start)).stay rows (calm 0 b.first rfl) b.pace.period_pos
    refine ⟨x, begun, ?_⟩
    rw [After, Nat.zero_div, Nat.zero_mod]
    exact next
  | succ n ih =>
    obtain ⟨x, run, after⟩ := ih
    obtain ⟨z, begun, next⟩ := after.succ (leaves (n + 1) x) rows calm
    refine ⟨z, ?_, next⟩
    rw [Sound.framesFrom, run]
    exact begun

end Playback

/-- A song with patterns of one row, played once at the pace of a track that asks for none. -/
def Playback.single (song : Ram) (index : Fin trackCount) (first : Fin trackFrames) : Playback where
  song := song
  index := index
  first := first
  looped := false
  sustain := false
  pace :=
    { tempo := 150, speed := 6, rows := 1, period := 6
      tempo_pos := by decide
      speed_pos := by decide
      rows_pos := by decide
      least := by
        refine ⟨(by decide : 150 * 6 * 1 ≤ 6 * 150), fun k reached => ?_⟩
        have long : 150 * 6 * 1 ≤ k * 150 := reached
        omega
      small := by decide }

/-- Music that is started before the first row of a frame keeps to its schedule: after each frame
of the console the position follows from a division by the length of a frame of the track, and the
music stops where the order of the frames ends. -/
theorem Sound.schedule_of_music (b : Playback) {s : Sound} (reached : s.Reachable)
    (idle : s.music.jump = none) {tempo speed : Int} {start : Sound × Ram}
    (started : s.playMusic? b.song b.index b.first (-1) b.looped b.sustain tempo speed = some start)
    (tempoIs : start.1.music.tempoOf b.track = b.pace.tempo)
    (speedIs : start.1.music.speedOf b.track = b.pace.speed)
    (rows : b.track.patternLength = b.pace.rows)
    (calm : ∀ place frame, b.frame? place = some frame → b.Calm frame)
    {before : Nat → Sound × Ram → Sound × Ram}
    (leaves : ∀ n x, Playback.LeavesMusic x (before n x)) (n : Nat) :
    ∃ x, framesFrom before start n = .ok x ∧
      match b.frame? (n / b.pace.period) with
      | some frame =>
        MusicPosition.load x.2 = b.position frame
          ((n % b.pace.period) * b.pace.tempo / (150 * b.pace.speed) : Nat)
      | none => (MusicPosition.load x.2).status = .stopped := by
  have cued := Playback.cued_of_start reached idle started tempoIs speedIs
  obtain ⟨x, run, after⟩ := Playback.after_framesFrom cued rows calm leaves n
  refine ⟨x, run, ?_⟩
  unfold Playback.After at after
  cases place : b.frame? (n / b.pace.period) with
  | none =>
    rw [place] at after
    exact after
  | some frame =>
    rw [place] at after
    exact after.position

/-- The short song plays its second frame up to the twelfth frame of the console, and stops in the
thirteenth. -/
theorem Sound.schedule_of_short_song :
    ∃ start x y, fresh.playMusic? shortSong 0 0 (-1) false false (-1) (-1) = some start ∧
      framesFrom (fun _ x => x) start 11 = .ok x ∧
      MusicPosition.load x.2 = { shortPosition 0 with frame := 1, looped := false } ∧
      framesFrom (fun _ x => x) start 12 = .ok y ∧
      (MusicPosition.load y.2).status = .stopped := by
  let b := Playback.single shortSong 0 0
  have started := fresh.playMusic?_of_index shortSong (Track.index?_val 0) 0 (-1) false false
    (-1) (-1)
  have track : b.track = shortTrack := track_shortSong
  have pace := Sequencer.pace_congr (rfl : (fresh.music.start shortSong 0 0 (-1) false false
    none none).1.timing.2 = Sequencer.fresh.timing.2) shortTrack
  have calm (frame : Nat) : b.Calm frame := by
    intro c plays row below pattern loaded
    rw [command_shortSong loaded]
    decide
  have schedule := schedule_of_music b .fresh rfl started
    (by rw [track]; exact pace.1.trans (by decide)) (by rw [track]; exact pace.2.trans (by decide))
    (by rw [track]; decide) (fun _ frame _ => calm frame)
    (fun (_ : Nat) (x : Sound × Ram) => (⟨rfl, SameOn.refl _ _⟩ : Playback.LeavesMusic x x))
  have second : b.frame? (11 / b.pace.period) = some 1 := by
    rw [Playback.frame?, track]
    decide
  have third : b.frame? (12 / b.pace.period) = none := by
    rw [Playback.frame?, track]
    decide
  have row : 11 % b.pace.period * b.pace.tempo / (150 * b.pace.speed) = 0 := by decide
  have before := schedule 11
  have after := schedule 12
  rw [second, row] at before
  rw [third] at after
  obtain ⟨x, eleven, last⟩ := before
  obtain ⟨y, twelve, ended⟩ := after
  exact ⟨_, x, y, started, eleven, last, twelve, ended⟩

end FantasyConsole
