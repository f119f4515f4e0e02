import FantasyConsole.Proofs.Sound.Lockstep
import FantasyConsole.Proofs.Sound.MusicSchedule

/-!
# What a song inherits from the one before

Starting a track silences the channels of the music, and sets its position, its tempo and its speed.
The commands that run on the channels and a jump that waits for the end of its row are left from
what played before. Where these two agree, as they do after the music was stopped, a track that is
started plays in the same way whatever came before it.
-/

namespace FantasyConsole

open Ram

/-- Writes bytes into memory, one after the other. -/
def Ram.setBytes (r : Ram) (writes : List (Nat × UInt8)) : Ram :=
  writes.foldl (fun r (i, v) => r.setByte i v) r

theorem Ram.AgreeOutside.setBytes {gs : List Region} {r m : Ram} (agree : AgreeOutside gs r m)
    (writes : List (Nat × UInt8)) : AgreeOutside gs (r.setBytes writes) (m.setBytes writes) := by
  induction writes generalizing r m with
  | nil => exact agree
  | cons write writes ih => exact ih (agree.setByte write.1 write.2)

/-! ### Channels that are not heard -/

/-- Whether a channel plays nothing: it is stopped, or its time is over. -/
def Channel.Quiet (ch : Channel) : Prop := ch.sample = none ∨ ch.duration = 0

theorem Channel.play_of_spent {ch : Channel} (spent : ch.duration = 0) (c : Fin channelCount)
    (r : Ram) (note pitch : Int) : ch.play c r note pitch = ({ ch with progress := none }, r) := by
  have advanced : ch.advance r note pitch = ({ ch with progress := none }, none) := by
    obtain ⟨sample, _, _, _, _, duration, _⟩ := ch
    cases spent
    cases sample <;> rfl
  rw [play, advanced]

namespace Sound

/-- Whether no effect plays. -/
def Quiet (s : Sound) : Prop := ∀ c, (s.effects.get c).Quiet

theorem quiet_fresh : fresh.Quiet := by
  intro c
  rw [fresh, PerChannel.get_replicate]
  exact .inl rfl

/-- An effect that does not play writes at most its positions. -/
theorem Quiet.tickEffect {s : Sound} (quiet : s.Quiet) (r : Ram) (c : Fin channelCount) :
    (s.tickEffect r c).1.Quiet ∧ AgreeOutside [Layout.effectPositions] r (s.tickEffect r c).2 := by
  unfold Sound.tickEffect
  dsimp only
  split
  case isFalse => exact ⟨quiet, .refl _ r⟩
  case isTrue active =>
    have spent : (s.effects.get c).duration = 0 := by
      rcases quiet c with stopped | spent
      · rw [Channel.isActive, stopped] at active
        cases active
      · exact spent
    rw [Channel.play_of_spent spent]
    have ended : { s.effects.get c with progress := none }.Quiet := .inr spent
    generalize { s.effects.get c with progress := none } = ch at ended
    refine ⟨PerChannel.forall_replace quiet ended c, ?_, Ram.dirty_setBlock r _ _⟩
    exact (ch.sameOutside_storePositions c r).widen (Layout.positionsOf_within c)

theorem Quiet.tickEffects {s : Sound} (quiet : s.Quiet) (r : Ram)
    (channels : List (Fin channelCount)) :
    let result := channels.foldl (fun (s, r) c => Sound.tickEffect s r c) (s, r)
    result.1.Quiet ∧ AgreeOutside [Layout.effectPositions] r result.2 := by
  induction channels generalizing s r with
  | nil => exact ⟨quiet, .refl _ r⟩
  | cons c channels ih =>
    obtain ⟨still, written⟩ := quiet.tickEffect r c
    obtain ⟨last, rest⟩ := ih still (s.tickEffect r c).2
    exact ⟨last, written.trans rest⟩

theorem Quiet.beginFrame {s : Sound} (quiet : s.Quiet) {r : Ram} {result : Sound × Ram}
    (begun : s.beginFrame r = .ok result) : result.1.Quiet := by
  rw [beginFrame_eq] at begun
  cases ticked : s.music.tick r.clearRegisters with
  | error cause =>
    rw [ticked] at begun
    cases begun
  | ok moved =>
    rw [ticked] at begun
    cases begun
    have same : { s with music := moved.1 }.Quiet := quiet
    exact (same.tickEffects moved.2 allChannels).1

/-! ### Two runs of a song -/

/-- What is written into memory before each frame of sound. -/
def written (writes : Nat → List (Nat × UInt8)) (n : Nat) (x : Sound × Ram) : Sound × Ram :=
  (x.1, x.2.setBytes (writes n))

/-- Whether sound plays the same music here and there, and no effect. -/
structure SameMusic (x y : Sound × Ram) : Prop where
  music : x.1.music.Alike False y.1.music
  quiet : x.1.Quiet
  still : y.1.Quiet
  memory : AgreeOutside [Layout.effectPositions] x.2 y.2

namespace SameMusic

variable {x y : Sound × Ram}

theorem beginFrame (same : SameMusic x y) :
    SameOutcome SameMusic (x.1.beginFrame x.2) (y.1.beginFrame y.2) := by
  rw [beginFrame_eq, beginFrame_eq]
  refine (same.music.tick (by decide) same.memory.clearRegisters).map fun a b moved => ?_
  obtain ⟨music, memory⟩ := moved
  have left : { x.1 with music := a.1 }.Quiet := same.quiet
  have right : { y.1 with music := b.1 }.Quiet := same.still
  obtain ⟨quiet, written⟩ := left.tickEffects a.2 allChannels
  obtain ⟨still, other⟩ := right.tickEffects b.2 allChannels
  refine ⟨?_, quiet, still, (written.symm.trans memory).trans other⟩
  rw [(music_tickEffects _ _ _).1, (music_tickEffects _ _ _).1]
  exact music

theorem written (same : SameMusic x y) (writes : Nat → List (Nat × UInt8)) (n : Nat) :
    SameMusic (Sound.written writes n x) (Sound.written writes n y) :=
  { same with memory := same.memory.setBytes (writes n) }

theorem framesFrom (same : SameMusic x y) (writes : Nat → List (Nat × UInt8)) (n : Nat) :
    SameOutcome SameMusic (Sound.framesFrom (Sound.written writes) x n)
      (Sound.framesFrom (Sound.written writes) y n) := by
  induction n with
  | zero => exact (same.written writes 0).beginFrame
  | succ n ih => exact ih.bind fun _ _ reached => (reached.written writes (n + 1)).beginFrame

end SameMusic

/-- Starting a track leaves nothing of the music before but the commands that run on the channels
and the jump that waits. -/
theorem sameMusic_start {s u : Sound} (quiet : s.Quiet) (still : u.Quiet)
    (effects : u.music.effects = s.music.effects) (jump : u.music.jump = s.music.jump) (r : Ram)
    (index : Fin trackCount) (frame row : Int) (looped sustain : Bool) (tempo speed : Option Nat) :
    let begun := s.music.start r index frame row looped sustain tempo speed
    let also := u.music.start r index frame row looped sustain tempo speed
    SameMusic ({ s with music := begun.1 }, begun.2) ({ u with music := also.1 }, also.2) where
  music :=
    { channels := fun c => by
        dsimp only [Sequencer.start, Sequencer.silence]
        rw [PerChannel.get_map, PerChannel.get_map]
        -- of the channel before only its speed is left
        exact ⟨rfl, rfl, rfl, rfl, rfl, rfl, fun known => nomatch known⟩
      effects := effects
      jump := jump
      timing := rfl }
  quiet := quiet
  still := still
  memory := .refl _ _

/-- A track that is started plays in the same way whatever sound has played before, as long as the
commands and the jump that the music before has left are the same, and no effect plays. Memory is
then the same after every frame, apart from the positions of the effects. -/
theorem song_independent_of_past {s u : Sound} (quiet : s.Quiet) (still : u.Quiet)
    (effects : u.music.effects = s.music.effects) (jump : u.music.jump = s.music.jump) (r : Ram)
    {track : Int} (first : 0 ≤ track) (last : track < trackCount) (frame row : Int)
    (looped sustain : Bool) (tempo speed : Int) (writes : Nat → List (Nat × UInt8)) (n : Nat) :
    ∃ x y, s.playMusic? r track frame row looped sustain tempo speed = some x ∧
      u.playMusic? r track frame row looped sustain tempo speed = some y ∧
      SameOutcome (fun x y => AgreeOutside [Layout.effectPositions] x.2 y.2)
        (framesFrom (written writes) x n) (framesFrom (written writes) y n) := by
  have found : Track.index? track = some ⟨track.toNat, by omega⟩ := dif_pos ⟨first, last⟩
  refine ⟨_, _, s.playMusic?_of_index r found frame row looped sustain tempo speed,
    u.playMusic?_of_index r found frame row looped sustain tempo speed, ?_⟩
  have same := sameMusic_start quiet still effects jump r ⟨track.toNat, by omega⟩ frame row looped
    sustain tempo.toNat? speed.toNat?
  exact (same.framesFrom writes n).mono fun _ _ reached => reached.memory

/-- The short song that was played and stopped leaves nothing to a song that is started after it. -/
theorem song_after_stop :
    ∃ s r, (shortSongFrom 0).playMusic? shortSong (-1) 0 0 false false (-1) (-1) = some (s, r) ∧
      ∀ n, ∃ x y, s.playMusic? shortSong 0 0 (-1) false false (-1) (-1) = some x ∧
        fresh.playMusic? shortSong 0 0 (-1) false false (-1) (-1) = some y ∧
        SameOutcome (fun x y => AgreeOutside [Layout.effectPositions] x.2 y.2)
          (framesFrom (written fun _ => []) x n) (framesFrom (written fun _ => []) y n) := by
  have started := fresh.playMusic?_of_index shortSong (Track.index?_val 0) 0 0 true false (-1) (-1)
  have idle : (shortSongFrom 0).effects = fresh.effects :=
    congrArg (fun begun => (begun.elim fresh Prod.fst).effects) started
  generalize shortSongFrom 0 = s at idle
  have quiet : { s with music := s.music.clear }.Quiet := by
    unfold Quiet
    dsimp only
    rw [idle]
    exact quiet_fresh
  refine ⟨_, _, s.playMusic?_of_neg shortSong (by decide) 0 0 false false (-1) (-1), ?_⟩
  exact song_independent_of_past quiet quiet_fresh rfl rfl shortSong (by decide) (by decide) 0 (-1)
    false false (-1) (-1) fun _ => []

/-! ### A jump that is left over -/

/-- A song whose first row jumps to the sixth frame. -/
def jumpSong : Ram :=
  ((Ram.blank.setByte Layout.tracks.offset 1).setByte Layout.patterns.offset 0x50).setByte
    (Layout.patterns.offset + 1) 0x30

theorem byte_jumpSong (i : Nat) : jumpSong.byte i =
    if i = Layout.patterns.offset + 1 then 0x30
    else if i = Layout.patterns.offset then 0x50
    else if i = Layout.tracks.offset then 1
    else 0 := by
  simp only [jumpSong, byte_setByte, byte_blank, Layout.patterns, Layout.tracks, Layout.memorySize]
  grind

/-- The track of that song. -/
def jumpTrack : Track := Track.decode fun k => if k = 0 then 1 else 0

/-- Its first row. -/
def jumpRow : PatternRow := PatternRow.decode 0x50 0x30 0

/-- The position at the start of a track. -/
def startPosition : MusicPosition where
  track := 0
  frame := 0
  row := -1
  looped := false
  status := .play
  sustain := false

theorem fits_startPosition : startPosition.Fits := by
  constructor <;> decide

theorem track_store_jumpSong (p : MusicPosition) :
    Track.load (p.store jumpSong) 0 = jumpTrack := by
  rw [Track.load_congr ((p.sameOutside_store jumpSong).sameOn (by decide))]
  apply Track.decode_congr
  intro k below
  rw [byte_jumpSong]
  simp only [Layout.tracks, Layout.patterns, trackBytes] at below ⊢
  grind

theorem rowsAt_jumpSong (p : MusicPosition) :
    Sequencer.rowsAt (p.store jumpSong) jumpTrack 0 0 = [(0, jumpRow)] := by
  have row : PatternRow.load? (p.store jumpSong) 1 0 = some jumpRow := by
    rw [PatternRow.load?_congr ((p.sameOutside_store jumpSong).sameOn (by decide))]
    simp only [PatternRow.load?, byte_jumpSong]
    decide
  have first : jumpTrack.patternAt 0 0 = 1 := by decide
  simp only [Sequencer.rowsAt, allChannels, List.filterMap_cons, List.filterMap_nil]
  rw [if_pos (by decide), if_neg (by decide), if_neg (by decide), if_neg (by decide), first, row]
  rfl

/-- A track that starts at its first row. -/
def fromTop (s : Sound) : Sound :=
  { s with music := { s.music.silence 15 with ticks := 0, tempo := none, speed := none } }

theorem playMusic?_fromTop (s : Sound) (r : Ram) :
    s.playMusic? r 0 0 (-1) false false (-1) (-1) = some (s.fromTop, startPosition.store r) :=
  s.playMusic?_of_index r (Track.index?_val 0) 0 (-1) false false (-1) (-1)

/-- Music on which a jump to the sixth frame waits. -/
theorem exists_waiting_jump : ∃ s : Sound, s.Reachable ∧ s.Quiet ∧ s.music.jump = some ⟨5, 0⟩ := by
  have started := fresh.playMusic?_fromTop jumpSong
  have reached := Reachable.playMusic .fresh started
  have position := MusicPosition.load_store fits_startPosition jumpSong
  have track := track_store_jumpSong startPosition
  have arrived : fresh.fromTop.music.arrival? (startPosition.store jumpSong) =
      some ⟨jumpTrack, fresh.fromTop.music, startPosition, 0⟩ := by
    have playing : startPosition.status ≠ .stopped := by decide
    have named : Track.index? startPosition.track = some 0 := by decide
    have row := Sequencer.rowOfTick_congr (s := fresh.fromTop.music) (u := .fresh) rfl jumpTrack
    rw [← position] at playing named
    rw [Sequencer.arrival?_of_no_jump playing named rfl, position, track]
    dsimp only
    rw [row, if_pos (by decide)]
    rfl
  obtain ⟨result, begun, arrives⟩ := beginFrame_of_arrival reached.inRange.music arrived
    (by decide) (by decide)
  have quiet : fresh.fromTop.Quiet := quiet_fresh
  refine ⟨result.1, reached.beginFrame begun, quiet.beginFrame begun, ?_⟩
  have rows : Sequencer.Arrival.rows ⟨jumpTrack, fresh.fromTop.music, startPosition, 0⟩
      (startPosition.store jumpSong) = [(0, jumpRow)] := by
    rw [Sequencer.Arrival.rows, if_neg (by decide), Sequencer.Arrival.published_eq (by decide)
      (by decide)]
    exact rowsAt_jumpSong startPosition
  rw [arrives.music, (Sequencer.moveOn_keeps _ _ _).2.1, rows]
  have free : fresh.fromTop.music.held 0 = none := rfl
  have asks : jumpRow.command = .jump := by decide
  exact Sequencer.jump_applyRow_of_jump free asks _

/-- The first frame of sound after a start plays the first frame of the track, or the one that a
jump names that was still waiting. -/
theorem frame_of_fromTop {s : Sound} (reached : s.Reachable)
    (first : ∀ jump, s.music.jump = some jump → jump.beat = 0) :
    ∃ result, s.fromTop.beginFrame (startPosition.store .blank) = .ok result ∧
      (MusicPosition.load result.2).frame = s.music.jump.elim (0 : Int) fun jump => jump.frame := by
  let t : Track := Track.decode fun _ => 0
  have position := MusicPosition.load_store fits_startPosition .blank
  have track : Track.load (startPosition.store .blank) 0 = t := by
    rw [Track.load_congr ((startPosition.sameOutside_store .blank).sameOn (by decide))]
    exact Track.decode_congr fun k _ => byte_blank _
  have row : s.fromTop.music.rowOfTick t s.fromTop.music.ticks = 0 :=
    (Sequencer.rowOfTick_congr (u := .fresh) rfl t).trans (by decide)
  -- a waiting jump changes the frame of the position; the row is the first one in both cases
  have arrived : ∃ u, s.fromTop.music.arrival? (startPosition.store .blank) =
      some ⟨t, u,
        { startPosition with frame := s.music.jump.elim 0 fun jump => jump.frame }, 0⟩ := by
    have named : Track.index? startPosition.track = some 0 := by decide
    have playing : startPosition.status ≠ .stopped := by decide
    have inside : 0 < t.patternLength := by decide
    have next : s.fromTop.music.rowOfTick t s.fromTop.music.ticks ≠ startPosition.row := by
      rw [row]
      decide
    rw [← position] at playing named next
    rw [← track] at inside next
    cases found : s.music.jump with
    | none =>
      have none : s.fromTop.music.jump = none := found
      rw [Sequencer.arrival?_of_no_jump playing named none, position, track]
      dsimp only
      rw [row, if_pos (track ▸ inside)]
      exact ⟨_, rfl⟩
    | some jump =>
      have waits : s.fromTop.music.jump = some jump := found
      have beat : (jump.beat : Int) * Sequencer.rowsPerBeat = 0 := by rw [first jump found]; rfl
      rw [Sequencer.arrival?_of_jump playing named waits next (beat ▸ inside), position, track,
        beat]
      exact ⟨_, rfl⟩
  obtain ⟨u, arrived⟩ := arrived
  have started := Reachable.playMusic reached (s.playMusic?_fromTop .blank)
  obtain ⟨result, begun, arrives⟩ := beginFrame_of_arrival started.inRange.music arrived
    (Int.le_refl 0) (by simp)
  refine ⟨result, begun, ?_⟩
  rw [arrives.position, Sequencer.Arrival.published_eq (by simp) (by simp)]

/-- A song can begin in the wrong frame: a jump of the song before it that still waits takes it to
the sixth one. -/
theorem song_depends_on_past : ¬ ∀ (s : Sound) (r : Ram) (track frame row : Int)
    (looped sustain : Bool) (tempo speed : Int) (writes : Nat → List (Nat × UInt8)) (n : Nat)
    (x y : Sound × Ram), s.Reachable → s.Quiet → 0 ≤ track → track < trackCount →
    s.playMusic? r track frame row looped sustain tempo speed = some x →
    fresh.playMusic? r track frame row looped sustain tempo speed = some y →
    SameOutcome (fun x y => SameOn [Layout.musicState, Layout.registers, Layout.stereo] x.2 y.2)
      (framesFrom (written writes) x n) (framesFrom (written writes) y n) := by
  intro claimed
  obtain ⟨s, reached, quiet, jump⟩ := exists_waiting_jump
  have outcome := claimed s .blank 0 0 (-1) false false (-1) (-1) (fun _ => []) 0 _ _ reached quiet
    (by decide) (by decide) (s.playMusic?_fromTop _) (fresh.playMusic?_fromTop _)
  obtain ⟨x, left, sixth⟩ := frame_of_fromTop reached (by simp [jump])
  obtain ⟨y, right, start⟩ := frame_of_fromTop .fresh (by simp [fresh, Sequencer.fresh])
  have ran : framesFrom (written fun _ => []) (s.fromTop, startPosition.store .blank) 0 = .ok x :=
    left
  have also : framesFrom (written fun _ => []) (fresh.fromTop, startPosition.store .blank) 0 =
      .ok y := right
  rw [ran, also] at outcome
  have published : SameOn [Layout.musicState, Layout.registers, Layout.stereo] x.2 y.2 := outcome
  rw [MusicPosition.load_congr (published.mono (by decide)), sixth, jump] at start
  exact absurd start (by decide)

end Sound

end FantasyConsole
