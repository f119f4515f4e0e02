import FantasyConsole.Proofs.Sound.SoundReach

/-!
# Positions that are played

A frame of sound hands rows over when the row it comes to is not the one that memory names as
played. A row that has changed in memory is therefore always played. A frame of the track may change
without it: where the row that the music comes to has the same number as the last one, nothing is
handed over.
-/

namespace FantasyConsole

open Ram

/-- The rows that the next frame of music hands to channels. -/
def Sequencer.handedRows (s : Sequencer) (r : Ram) : List (Fin channelCount × PatternRow) :=
  (s.arrival? r).elim [] fun a => a.rows r

namespace Sound

/-! ### A song of short frames -/

/-- Two frames of one row each, both with the first pattern on one channel. -/
def shortSong : Ram :=
  ((Ram.blank.setByte Layout.tracks.offset 1).setByte (Layout.tracks.offset + 3) 1).setByte
    (Layout.tracks.offset + 49) 63

theorem byte_shortSong (i : Nat) : shortSong.byte i =
    if i = Layout.tracks.offset + 49 then 63
    else if i = Layout.tracks.offset + 3 ∨ i = Layout.tracks.offset then 1
    else 0 := by
  simp only [shortSong, byte_setByte, byte_blank, Layout.tracks, Layout.memorySize]
  grind

theorem command_shortSong {id : Nat} {row : Int} {pattern : PatternRow}
    (loaded : PatternRow.load? shortSong id row = some pattern) : pattern.command = .empty := by
  unfold PatternRow.load? at loaded
  dsimp only at loaded
  split at loaded
  case isFalse => cases loaded
  case isTrue inside =>
    have second : shortSong.byte (Layout.patterns.offset +
        (((id : Int) - 1) * (patternRows * rowBytes) + row * rowBytes).toNat + 1) = 0 := by
      rw [byte_shortSong, if_neg, if_neg]
      all_goals
        simp only [Layout.patterns, Layout.tracks, patternRows, rowBytes] at inside ⊢
        omega
    rw [second] at loaded
    rw [← Option.some.inj loaded]
    rfl

/-- The track of the short song. -/
def shortTrack : Track :=
  Track.decode fun k => if k = 49 then 63 else if k = 3 ∨ k = 0 then 1 else 0

theorem track_shortSong : Track.load shortSong 0 = shortTrack := by
  apply Track.decode_congr
  intro k below
  rw [byte_shortSong]
  simp only [Layout.tracks]
  grind

theorem track_store_shortSong (p : MusicPosition) :
    Track.load (p.store shortSong) 0 = shortTrack := by
  rw [Track.load_congr ((p.sameOutside_store shortSong).sameOn (by decide)), track_shortSong]

/-- The state of sound when the short song has been started at a row, to be looped. -/
def shortSongFrom (row : Int) : Sound :=
  (fresh.playMusic? shortSong 0 0 row true false (-1) (-1)).elim fresh Prod.fst

theorem music_shortSongFrom (row : Int) : (shortSongFrom row).Reachable ∧
    (shortSongFrom row).music.jump = none ∧
    (shortSongFrom row).music.timing =
      (if 0 ≤ row then Sequencer.fresh.tickOfRow shortTrack row else 0, none, none) := by
  have started := fresh.playMusic?_of_index shortSong (Track.index?_val 0) 0 row true false
    (-1) (-1)
  have state : shortSongFrom row = { fresh with
      music := (Sequencer.fresh.start shortSong 0 0 row true false none none).1 } :=
    congrArg (·.elim fresh Prod.fst) started
  rw [state]
  refine ⟨Reachable.playMusic .fresh started, rfl, ?_⟩
  simp only [Sequencer.start, Sequencer.timing, track_store_shortSong]
  rfl

/-- A position in the first frame of the short song. -/
def shortPosition (row : Int) : MusicPosition where
  track := 0
  frame := 0
  row := row
  looped := true
  status := .play
  sustain := false

theorem arrival?_shortSong (first : Int) {last : Int} (fits : (shortPosition last).Fits) :
    let s := (shortSongFrom first).music
    let row := s.rowOfTick shortTrack s.ticks
    s.arrival? ((shortPosition last).store shortSong) =
      if row < 1 then some ⟨shortTrack, s, shortPosition last, row⟩
      else some ⟨shortTrack, s.turned false, { shortPosition last with frame := 1 }, 0⟩ := by
  have position := MusicPosition.load_store fits shortSong
  have playing : (shortPosition last).status ≠ .stopped := by simp [shortPosition]
  have named : Track.index? (shortPosition last).track = some 0 := by
    change Track.index? 0 = some 0
    decide
  have length : shortTrack.patternLength = 1 := by decide
  have following : Sequencer.nextFrame shortTrack (shortPosition last) = some 1 := by
    change Sequencer.nextFrame shortTrack (shortPosition 0) = some 1
    decide
  rw [← position] at playing named
  have arrived := Sequencer.arrival?_of_no_jump playing named (music_shortSongFrom first).2.1
  simp only [position, track_store_shortSong, length, following, Option.map_some] at arrived
  exact arrived

/-! ### Rows that are new -/

/-- Whether each channel with a pattern at the position in memory `m` is handed its row by the frame
that begins with memory `r`. -/
def HandsOver (s : Sound) (r m : Ram) : Prop :=
  let p := MusicPosition.load m
  ∀ index, Track.index? p.track = some index →
    ∀ c, (Track.load r index).PlaysAt p.frame c →
      ∃ row, PatternRow.load? r ((Track.load r index).patternAt p.frame c) p.row = some row ∧
        (c, row) ∈ s.music.handedRows r

/-- While the music plays, a row that changes is handed over, and so is every row that has another
number than the last; a row with the same number is not. -/
theorem rows_handed_over {s : Sound} (reached : s.Reachable) {r : Ram} {result : Sound × Ram}
    (begun : s.beginFrame r = .ok result)
    (plays : (MusicPosition.load result.2).status ≠ .stopped) :
    ∃ a, s.music.arrival? r = some a ∧ Arrives a r result ∧
      ((MusicPosition.load result.2).row ≠ (MusicPosition.load r).row → HandsOver s r result.2) ∧
      (a.row ≠ (MusicPosition.load r).row → HandsOver s r result.2) ∧
      (a.row = (MusicPosition.load r).row → s.music.handedRows r = []) := by
  obtain ⟨a, arrived, arrives, every⟩ := arrives_of_beginFrame reached.inRange.music begun plays
  obtain ⟨-, ⟨index, found, track⟩, ⟨frame, position⟩, -⟩ :=
    Sequencer.arrival?_position reached.inRange.music arrived
  have handed : s.music.handedRows r = a.rows r := by
    rw [Sequencer.handedRows, arrived, Option.elim_some]
  have played : a.position.row = (MusicPosition.load r).row := by rw [position]
  have handsOver (new : a.row ≠ a.position.row) : HandsOver s r result.2 := by
    intro other named c plays
    rw [arrives.position, a.track_published, position] at named
    dsimp only at named
    have same : other = index := Option.some.inj (named.symm.trans found)
    rw [handed, arrives.position]
    rw [arrives.position] at plays
    rw [same, ← track] at plays ⊢
    exact every new c plays
  rw [played] at handsOver
  refine ⟨a, arrived, arrives, fun changed => ?_, handsOver, fun old => ?_⟩
  · apply handsOver
    intro old
    apply changed
    rw [arrives.position, Sequencer.Arrival.published, if_pos (old.trans played.symm), played]
  · rw [handed, Sequencer.Arrival.rows, if_pos (old.trans played.symm)]

/-- The first row of the short song is played. -/
theorem rows_handed_over_at_start :
    ∃ (s : Sound) (r : Ram) (result : Sound × Ram), s.Reachable ∧ s.beginFrame r = .ok result ∧
      (MusicPosition.load result.2).status ≠ .stopped ∧ HandsOver s r result.2 := by
  have fits : (shortPosition (-1)).Fits := by constructor <;> decide
  obtain ⟨reached, -, timing⟩ := music_shortSongFrom (-1)
  have position := MusicPosition.load_store fits shortSong
  have row : (shortSongFrom (-1)).music.rowOfTick shortTrack (shortSongFrom (-1)).music.ticks = 0 :=
    (Sequencer.rowOfTick_congr (u := Sequencer.fresh) timing shortTrack).trans (by decide)
  have arrived := arrival?_shortSong (-1) fits
  simp only [row, if_pos (by decide : (0 : Int) < 1)] at arrived
  obtain ⟨result, begun, arrives⟩ := beginFrame_of_arrival reached.inRange.music arrived
    (by decide) (by decide)
  have plays : (MusicPosition.load result.2).status ≠ .stopped := by
    rw [arrives.position, Sequencer.Arrival.status_published]
    decide
  obtain ⟨a, same, -, -, handsOver, -⟩ := rows_handed_over reached begun plays
  refine ⟨_, _, result, reached, begun, plays, handsOver ?_⟩
  rw [arrived] at same
  rw [← Option.some.inj same, position]
  decide

/-- A frame can begin without any of its rows: the short song comes to its second frame, where the
first row has the same number as the last one that was played. -/
theorem position_without_rows : ¬ ∀ (s : Sound) (r : Ram) (result : Sound × Ram), s.Reachable →
    s.beginFrame r = .ok result → (MusicPosition.load result.2).status ≠ .stopped →
    ((MusicPosition.load result.2).frame, (MusicPosition.load result.2).row) ≠
      ((MusicPosition.load r).frame, (MusicPosition.load r).row) →
    HandsOver s r result.2 := by
  intro claimed
  have fits : (shortPosition 0).Fits := by constructor <;> decide
  obtain ⟨reached, -, timing⟩ := music_shortSongFrom 1
  have position := MusicPosition.load_store fits shortSong
  -- six ticks after the start, which is where the second row would begin
  have row : (shortSongFrom 1).music.rowOfTick shortTrack (shortSongFrom 1).music.ticks = 1 :=
    (Sequencer.rowOfTick_congr (u := { Sequencer.fresh with ticks := 6 })
      (timing.trans (by decide)) shortTrack).trans (by decide)
  have arrived := arrival?_shortSong 1 fits
  simp only [row, if_neg (by decide : ¬ (1 : Int) < 1)] at arrived
  obtain ⟨result, begun, arrives⟩ := beginFrame_of_arrival reached.inRange.music arrived
    (by decide) (by decide)
  have reachedFrame : MusicPosition.load result.2 = { shortPosition 0 with frame := 1 } :=
    arrives.position.trans (by decide)
  have handsOver := claimed _ _ result reached begun (by rw [reachedFrame]; decide)
    (by rw [reachedFrame, position]; decide)
  unfold HandsOver at handsOver
  rw [reachedFrame] at handsOver
  obtain ⟨pattern, -, handed⟩ := handsOver 0 (by decide) 0 (by rw [track_store_shortSong]; decide)
  rw [Sequencer.handedRows, arrived] at handed
  exact List.not_mem_nil handed

end Sound

end FantasyConsole
