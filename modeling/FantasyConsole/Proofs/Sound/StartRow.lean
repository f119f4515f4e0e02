import FantasyConsole.Proofs.Sound.RowTime
import FantasyConsole.Proofs.Sound.SoundReach

/-!
# The row that a track starts at

A track that is started at a row has its tick counter set to the tick of that row, and the first
frame of sound derives the row from the counter again. Both are rounded down, so the track starts
at the row it was asked for where that row begins with a tick, and in the row before it where the
row begins between two ticks and no row is shorter than a tick.
-/

namespace FantasyConsole

open Ram

namespace Sound

/-- The position that the first frame of a track publishes. -/
def firstPosition (index : Fin trackCount) (frame : Fin trackFrames) (looped sustain : Bool)
    (row : Int) : MusicPosition where
  track := index
  frame := frame
  row := row
  looped := looped
  status := .play
  sustain := sustain

theorem fits_firstPosition (index : Fin trackCount) (frame : Fin trackFrames)
    (looped sustain : Bool) {row : Int} (bound : -128 ≤ row ∧ row ≤ 127) :
    (firstPosition index frame looped sustain row).Fits := by
  have track : index.val < 8 := index.isLt
  have inside : frame.val < 16 := frame.isLt
  refine ⟨?_, ?_, bound⟩
  all_goals
    simp only [firstPosition]
    omega

variable {s : Sound} {r : Ram} {index : Fin trackCount} {frame : Fin trackFrames} {row : Nat}
  {looped sustain : Bool} {tempo speed : Int} {start : Sound × Ram}

/-- Music that was started waits before its first row, with the counter at the tick of that row. -/
theorem started_at_row
    (started : s.playMusic? r index frame row looped sustain tempo speed = some start) :
    start.2 = (firstPosition index frame looped sustain (-1)).store r ∧
      start.1.music.ticks = start.1.music.tickOfRow (Track.load r index) row ∧
      start.1.music.jump = s.music.jump := by
  have inside : frame.val < 16 := frame.isLt
  have clamped : clampInt 0 (trackFrames - 1) frame = frame := by
    simp only [clampInt, trackFrames]
    omega
  rw [s.playMusic?_of_index r (Track.index?_val index)] at started
  have begun := Option.some.inj started
  have track (p : MusicPosition) : Track.load (p.store r) index = Track.load r index :=
    Track.load_congr ((p.sameOutside_store r).sameOn (by decide)) index
  rw [← begun]
  dsimp only [Sequencer.start]
  rw [clamped, if_pos (Int.natCast_nonneg row), track]
  exact ⟨rfl, rfl, rfl⟩

/-- Memory then names the track, and holds the same track as before. -/
theorem load_started
    (started : s.playMusic? r index frame row looped sustain tempo speed = some start) :
    MusicPosition.load start.2 = firstPosition index frame looped sustain (-1) ∧
      Track.load start.2 index = Track.load r index := by
  rw [(started_at_row started).1]
  constructor
  · exact MusicPosition.load_store (fits_firstPosition index frame looped sustain (by decide)) r
  · exact Track.load_congr ((MusicPosition.sameOutside_store _ r).sameOn (by decide)) index

/-- The first frame of sound plays the row that the tick of the chosen row belongs to. -/
theorem beginFrame_of_started (reached : s.Reachable) (idle : s.music.jump = none)
    (started : s.playMusic? r index frame row looped sustain tempo speed = some start)
    {beat pace : Nat} (tempoIs : start.1.music.tempoOf (Track.load r index) = beat)
    (speedIs : start.1.music.speedOf (Track.load r index) = pace) (counts : 0 < beat)
    (moves : 0 < pace) (fits : ((row * pace * 900 : Nat) : Int) ≤ maxInt32)
    (inside : row < (Track.load r index).patternLength) :
    let first := Sequencer.evenRow beat pace (Sequencer.evenTick beat pace row)
    start.1.music.rowOfTick (Track.load r index)
        (start.1.music.tickOfRow (Track.load r index) row) = first ∧
      ∃ x, start.1.beginFrame start.2 = .ok x ∧
        MusicPosition.load x.2 = firstPosition index frame looped sustain first := by
  intro first
  have after : start.1.Reachable := .playMusic reached started
  obtain ⟨-, ticks, jump⟩ := started_at_row started
  have tick := Sequencer.tickOfRow_natCast tempoIs speedIs counts fits
  -- the tick does not go beyond the row, so its product is no larger than that of the row
  have smaller : Sequencer.evenTick beat pace row * beat * 6 ≤ row * pace * 900 := by
    have bound := Sequencer.evenTick_mul_le beat pace row
    calc Sequencer.evenTick beat pace row * beat * 6
        ≤ row * (150 * pace) * 6 := Nat.mul_le_mul_right _ bound
      _ = row * pace * 900 := by
        rw [Nat.mul_assoc, Nat.mul_assoc row, show 150 * pace * 6 = pace * 900 by omega]
  have rowIs := Sequencer.rowOfTick_natCast tempoIs speedIs moves
    (Int.le_trans (Int.ofNat_le.mpr smaller) fits)
  have low : first ≤ row := Sequencer.evenRow_evenTick_le beat pace row
  have length : (Track.load r index).patternLength ≤ 64 := by
    simp only [Track.patternLength, patternRows]
    omega
  rw [tick, rowIs]
  refine ⟨rfl, ?_⟩
  obtain ⟨position, track⟩ := load_started started
  have playing : (MusicPosition.load start.2).status ≠ .stopped := by
    rw [position]
    simp [firstPosition]
  have named : Track.index? (MusicPosition.load start.2).track = some index := by
    rw [position]
    exact Track.index?_val index
  have arrived := Sequencer.arrival?_of_no_jump playing named (jump.trans idle)
  dsimp only at arrived
  rw [position, track, ticks, tick, rowIs, if_pos (by omega)] at arrived
  obtain ⟨x, begun, arrives⟩ := beginFrame_of_arrival after.inRange.music arrived
    (Int.natCast_nonneg _) (by simp only [patternRows]; omega)
  refine ⟨x, begun, ?_⟩
  rw [arrives.position,
    Sequencer.Arrival.published_eq (by dsimp only; omega) (by dsimp only; omega)]
  rfl

/-- A track that is started at a row of its pattern, with a tempo and a speed that are positive,
begins in the chosen frame and in the row that the tick of the chosen row belongs to. That is the
chosen row exactly if the tempo divides 150 times the speed times the row, so that the row begins
with a tick. Otherwise it is an earlier row, and the one just before where no row is shorter than a
tick. -/
theorem first_row_of_music (reached : s.Reachable) (idle : s.music.jump = none)
    (started : s.playMusic? r index frame row looped sustain tempo speed = some start)
    {beat pace : Nat} (tempoIs : start.1.music.tempoOf (Track.load r index) = beat)
    (speedIs : start.1.music.speedOf (Track.load r index) = pace) (counts : 0 < beat)
    (moves : 0 < pace) (fits : ((row * pace * 900 : Nat) : Int) ≤ maxInt32)
    (inside : row < (Track.load r index).patternLength) :
    ∃ first : Nat,
      start.1.music.rowOfTick (Track.load r index)
        (start.1.music.tickOfRow (Track.load r index) row) = first ∧
      (∃ x, start.1.beginFrame start.2 = .ok x ∧
        MusicPosition.load x.2 = firstPosition index frame looped sustain first) ∧
      first = row * (150 * pace) / beat * beat / (150 * pace) ∧
      first ≤ row ∧ (first = row ↔ beat ∣ row * (150 * pace)) ∧
      (beat ≤ 150 * pace → row ≤ first + 1) := by
  obtain ⟨rowIs, begun⟩ := beginFrame_of_started reached idle started tempoIs speedIs counts moves
    fits inside
  exact ⟨_, rowIs, begun, rfl, Sequencer.evenRow_evenTick_le beat pace row,
    Sequencer.evenRow_evenTick_eq_iff moves, Sequencer.le_evenRow_evenTick counts moves⟩

/-! ### A track of an empty memory -/

theorem track_blank (index : Fin trackCount) :
    Track.load .blank index = Track.decode fun _ => 0 :=
  Track.decode_congr fun _ _ => byte_blank _

/-- Music of an empty memory that was started at a tempo, at the speed of the track. -/
theorem exists_started_blank (row : Nat) (beat : Nat) :
    ∃ start, fresh.playMusic? .blank (0 : Fin trackCount) (0 : Fin trackFrames) row false false beat
        (-1) = some start ∧
      start.1.music.tempoOf (Track.load .blank 0) = beat ∧
      start.1.music.speedOf (Track.load .blank 0) = (6 : Nat) ∧
      (Track.load .blank 0).patternLength = 64 := by
  have started := fresh.playMusic?_of_index .blank (Track.index?_val 0) (0 : Fin trackFrames) row
    false false beat (-1)
  have speed : Sequencer.fresh.speedOf (Track.decode fun _ => 0) = 6 := by decide
  refine ⟨_, started, ?_⟩
  rw [track_blank]
  exact ⟨rfl, speed, by decide⟩

/-- At a tempo of 150 the twelfth row of a track is played when it is asked for. -/
theorem first_row_at_default_tempo :
    ∃ start x, fresh.playMusic? .blank (0 : Fin trackCount) (0 : Fin trackFrames) (12 : Nat) false
        false (150 : Nat) (-1) = some start ∧
      start.1.beginFrame start.2 = .ok x ∧
      MusicPosition.load x.2 = firstPosition 0 0 false false 12 := by
  obtain ⟨start, started, tempoIs, speedIs, length⟩ := exists_started_blank 12 150
  obtain ⟨first, -, ⟨x, begun, position⟩, -, -, same, -⟩ :=
    first_row_of_music .fresh rfl started tempoIs speedIs (by decide) (by decide) (by decide)
      (by rw [length]; decide)
  rw [same.mpr (by decide)] at position
  exact ⟨start, x, started, begun, position⟩

/-- A track need not start at the row it was asked for: at a tempo of 151 the second row begins
between two ticks, and the first one is played instead. -/
theorem first_row_missed : ¬ ∀ (s : Sound) (r : Ram) (index : Fin trackCount)
    (frame : Fin trackFrames) (row : Nat) (looped sustain : Bool) (tempo speed : Int)
    (start : Sound × Ram), s.Reachable → s.music.jump = none →
    s.playMusic? r index frame row looped sustain tempo speed = some start →
    0 < start.1.music.tempoOf (Track.load r index) →
    0 < start.1.music.speedOf (Track.load r index) →
    row * start.1.music.speedOf (Track.load r index) * 900 ≤ maxInt32 →
    row < (Track.load r index).patternLength →
    ∃ x, start.1.beginFrame start.2 = .ok x ∧ (MusicPosition.load x.2).frame = frame ∧
      (MusicPosition.load x.2).row = row := by
  intro claimed
  obtain ⟨start, started, tempoIs, speedIs, length⟩ := exists_started_blank 1 151
  obtain ⟨x, begun, -, row⟩ := claimed fresh .blank 0 0 1 false false (151 : Nat) (-1) start .fresh
    rfl started (by rw [tempoIs]; decide) (by rw [speedIs]; decide) (by rw [speedIs]; decide)
    (by rw [length]; decide)
  obtain ⟨-, y, also, position⟩ := beginFrame_of_started .fresh rfl started tempoIs speedIs
    (by decide) (by decide) (by decide) (by rw [length]; decide)
  rw [begun] at also
  cases also
  rw [position] at row
  exact absurd row (by decide)

end Sound

end FantasyConsole
