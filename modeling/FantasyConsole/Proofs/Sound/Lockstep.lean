import FantasyConsole.Proofs.Outcome
import FantasyConsole.Proofs.Sound.Arrival

/-!
# Two runs of sound in lockstep

Sound reads the music position, tracks, patterns, samples and waveforms, and nothing else that lies
in memory. Two sequencers that are alike, on memories that agree in these regions, therefore do the
same in every frame: both fail with the same fault, or both go on alike and write the same bytes.

How much alike two channels are is left open in one place. A stopped channel keeps the speed of its
last note, which nothing reads before the next note replaces it.
-/

namespace FantasyConsole

namespace Ram.AgreeOutside

variable {gs : List Region} {r m : Ram} (agree : AgreeOutside gs r m)
include agree

theorem storePosition (p : MusicPosition) : AgreeOutside gs (p.store r) (p.store m) :=
  agree.setBlock _ _

theorem storeRegister (g : Register) (c : Fin channelCount) :
    AgreeOutside gs (g.store c r) (g.store c m) :=
  ((((agree.setByte _ _).setByte _ _).setBlock _ _).setPacked _ _ _).setPacked _ _ _

theorem clearRegisters : AgreeOutside gs r.clearRegisters m.clearRegisters :=
  (agree.fillRegion _ _).setBlock _ _

end Ram.AgreeOutside

open Ram

/-! ### What sound reads -/

/-- What sound reads in memory. -/
def Layout.soundData : List Region := [musicState, tracks, patterns, samples, waveforms]

theorem Sample.decode_congr {a b : Nat → UInt8} (same : ∀ k < sampleBytes, a k = b k) :
    decode a = decode b := by
  have last (k : Nat) (below : k < 66) : a k = b k := same k below
  simp only [decode, last 60 (by decide), last 61 (by decide), last 62 (by decide),
    last 63 (by decide), last 64 (by decide), last 65 (by decide), Sample.mk.injEq, and_true]
  refine Vector.ext fun i h => ?_
  have inside : i < 30 := h
  simp only [Vector.getElem_ofFn]
  rw [last (2 * i) (by omega), last (2 * i + 1) (by omega)]

theorem Sample.load_congr {r m : Ram} (same : SameOn [Layout.samples] r m) (i : Fin sampleCount) :
    load m i = load r i := by
  apply decode_congr
  intro k below
  have sample : i.val < 64 := i.isLt
  apply same Layout.samples (by decide)
  simp only [Region.Contains, Region.stop, Layout.samples, sampleBytes] at below ⊢
  omega

theorem Sample.wave_tickAt_load (r : Ram) (i : Fin sampleCount) (position : Int) :
    ((load r i).tickAt position).wave ≤ 15 := by
  unfold tickAt
  cases found : (load r i).ticks[position.toNat]? with
  | none => exact Nat.zero_le _
  | some tick =>
    obtain ⟨bound, rfl⟩ := Vector.getElem?_eq_some_iff.mp found
    simp only [load, decode, Vector.getElem_ofFn]
    exact toNat_shift_high _

theorem Channel.loadWaveform_congr {r m : Ram} (same : SameOn [Layout.waveforms] r m) {index : Nat}
    (bound : index ≤ 15) : loadWaveform m index = loadWaveform r index := by
  refine Vector.ext fun i h => ?_
  rw [loadWaveform, loadWaveform, getElem_block, getElem_block]
  apply same Layout.waveforms (by decide)
  simp only [Region.Contains, Region.stop, Layout.waveforms, waveformBytes] at h ⊢
  omega

theorem Channel.register?_congr {r m : Ram} (same : SameOn [Layout.waveforms] r m)
    {ch dh : Channel} (left : dh.left = ch.left) (right : dh.right = ch.right) (i : Fin sampleCount)
    (positions : Envelope Int) (note pitch : Int) :
    dh.register? m (Sample.load r i) positions note pitch =
      ch.register? r (Sample.load r i) positions note pitch := by
  simp only [register?, Envelope.map, left, right,
    loadWaveform_congr same (Sample.wave_tickAt_load r i positions.wave)]
  rfl

/-! ### Channels -/

/-- Whether two channels do the same. Unless `strict` holds, their speeds may differ while they are
stopped. -/
structure Channel.Alike (strict : Prop) (ch dh : Channel) : Prop where
  sample : dh.sample = ch.sample
  note : dh.note = ch.note
  left : dh.left = ch.left
  right : dh.right = ch.right
  duration : dh.duration = ch.duration
  progress : dh.progress = ch.progress
  speed : strict ∨ ch.isActive = true → dh.speed = ch.speed

namespace Channel.Alike

variable {strict : Prop}

theorem refl (strict : Prop) (ch : Channel) : ch.Alike strict ch :=
  ⟨rfl, rfl, rfl, rfl, rfl, rfl, fun _ => rfl⟩

theorem eq {ch dh : Channel} (alike : ch.Alike True dh) : dh = ch := by
  obtain ⟨sample, note, left, right, duration, progress, speed⟩ := alike
  cases ch
  cases dh
  simp_all

variable {ch dh : Channel} (alike : ch.Alike strict dh)
include alike

theorem isActive : dh.isActive = ch.isActive := by
  rw [Channel.isActive, Channel.isActive, alike.sample]

theorem setVolumes (left right : UInt8) :
    { ch with left := left, right := right }.Alike strict
      { dh with left := left, right := right } :=
  { alike with left := rfl, right := rfl }

theorem start {r m : Ram} (same : SameOn [Layout.samples] r m)
    (sample : Option (Fin sampleCount)) (note octave duration : Int) (left right : UInt8)
    (speed : Option Int) :
    (ch.start r sample note octave duration left right speed).Alike strict
      (dh.start m sample note octave duration left right speed) := by
  refine ⟨rfl, rfl, rfl, rfl, rfl, rfl, fun known => ?_⟩
  cases sample with
  -- a channel that is stopped keeps its speed
  | none => exact alike.speed (known.imp_right fun active => nomatch active)
  | some i =>
    dsimp only [Channel.start]
    rw [Sample.load_congr same i]

theorem advance {r m : Ram} (same : SameOn [Layout.samples, Layout.waveforms] r m)
    (note pitch : Int) :
    (ch.advance r note pitch).1.Alike strict (dh.advance m note pitch).1 ∧
      (dh.advance m note pitch).2 = (ch.advance r note pitch).2 := by
  have samples := Sample.load_congr (same.mono (by decide))
  obtain ⟨sample, ownNote, left, right, duration, progress, speed⟩ := alike
  unfold Channel.advance
  rw [sample, duration, progress]
  dsimp only
  generalize (if 0 < ch.duration then ch.duration - 1 else ch.duration) = remaining
  cases found : ch.sample with
  | none =>
    exact ⟨⟨rfl, ownNote, left, right, rfl, rfl,
      fun known => speed (known.imp_right fun active => nomatch active)⟩, rfl⟩
  | some i =>
    have active : ch.isActive = true := by rw [Channel.isActive, found, Option.isSome_some]
    dsimp only
    rw [samples i, speed (.inr active)]
    split
    · exact ⟨⟨rfl, ownNote, left, right, rfl, rfl, fun _ => rfl⟩, rfl⟩
    · exact ⟨⟨rfl, ownNote, left, right, rfl, rfl, fun _ => rfl⟩,
        register?_congr (same.mono (by decide)) left right i _ note pitch⟩

theorem play {gs : List Region} {r m : Ram} (same : SameOn [Layout.samples, Layout.waveforms] r m)
    (agree : AgreeOutside gs r m) (c : Fin channelCount) (note pitch : Int) :
    (ch.play c r note pitch).1.Alike strict (dh.play c m note pitch).1 ∧
      AgreeOutside gs (ch.play c r note pitch).2 (dh.play c m note pitch).2 := by
  obtain ⟨moved, register⟩ := alike.advance same note pitch
  unfold Channel.play
  generalize ch.advance r note pitch = x at *
  generalize dh.advance m note pitch = y at *
  obtain ⟨_, written⟩ := x
  obtain ⟨_, same⟩ := y
  dsimp only at register
  rw [register]
  cases written with
  | none => exact ⟨moved, agree⟩
  | some g => exact ⟨moved, agree.storeRegister g c⟩

end Channel.Alike

/-! ### The sequencer -/

namespace Sequencer

/-- Whether two sequencers do the same. -/
structure Alike (strict : Prop) (s u : Sequencer) : Prop where
  channels : ∀ c, (s.channels.get c).Alike strict (u.channels.get c)
  effects : u.effects = s.effects
  jump : u.jump = s.jump
  timing : u.timing = s.timing

namespace Alike

variable {strict : Prop}

theorem refl (strict : Prop) (s : Sequencer) : s.Alike strict s :=
  ⟨fun _ => .refl strict _, rfl, rfl, rfl⟩

theorem eq {s u : Sequencer} (alike : s.Alike True u) : u = s := by
  obtain ⟨channels, effects, jump, timing⟩ := alike
  have same : u.channels = s.channels := Vector.ext fun i h => (channels ⟨i, h⟩).eq
  simp only [Sequencer.timing, Prod.mk.injEq] at timing
  cases s
  cases u
  simp_all

variable {s u : Sequencer} (alike : s.Alike strict u)
include alike

theorem setChannel {ch dh : Channel} (own : ch.Alike strict dh) (c : Fin channelCount) :
    (s.setChannel c ch).Alike strict (u.setChannel c dh) := by
  refine { alike with channels := fun d => ?_ }
  dsimp only [Sequencer.setChannel]
  by_cases same : d = c
  · rw [same, PerChannel.get_replace_self, PerChannel.get_replace_self]
    exact own
  · rw [PerChannel.get_replace_of_ne _ same, PerChannel.get_replace_of_ne _ same]
    exact alike.channels d

theorem setEffects (c : Fin channelCount) (e : Effects) :
    (s.setEffects c e).Alike strict (u.setEffects c e) :=
  { alike with effects := congrArg (PerChannel.replace · c e) alike.effects }

theorem setTicks (ticks : Int) :
    { s with ticks := ticks }.Alike strict { u with ticks := ticks } :=
  { alike with timing := congrArg (Prod.mk ticks) (congrArg Prod.snd alike.timing) }

theorem ticks : u.ticks = s.ticks := congrArg Prod.fst alike.timing

theorem silence (volume : UInt8) : (s.silence volume).Alike strict (u.silence volume) := by
  refine { alike with channels := fun c => ?_ }
  rw [Sequencer.silence, Sequencer.silence, PerChannel.get_map, PerChannel.get_map]
  exact ⟨rfl, rfl, rfl, rfl, rfl, rfl,
    fun known => (alike.channels c).speed
      (known.imp_right fun active => absurd active Bool.false_ne_true)⟩

theorem clear : s.clear.Alike strict u.clear :=
  { alike.silence 0 with effects := rfl, jump := rfl }

theorem turned (sustain : Bool) : (s.turned sustain).Alike strict (u.turned sustain) := by
  cases sustain
  · exact (alike.setTicks 0).clear.silence _
  · exact alike.setTicks 0

/-! #### Rows -/

theorem playNote {r m : Ram} (same : SameOn [Layout.samples] r m) (c : Fin channelCount)
    (row : PatternRow) : (s.playNote r c row).Alike strict (u.playNote m c row) := by
  have own := alike.channels c
  unfold Sequencer.playNote
  dsimp only
  rw [alike.effects, own.note, own.left, own.right]
  have begun (e : Effects) : (if row.note = 0 then s else s.setEffects c e).Alike strict
      (if row.note = 0 then u else u.setEffects c e) := by
    split
    · exact alike
    · exact alike.setEffects c e
  split
  · exact (begun _).setChannel (own.start same _ _ _ _ _ _ _) c
  · split
    · exact (begun _).setChannel (own.start same _ _ _ _ _ _ _) c
    · exact begun _

theorem runCommand (c : Fin channelCount) (row : PatternRow) :
    (s.runCommand c row).Alike strict (u.runCommand c row) := by
  unfold Sequencer.runCommand
  dsimp only
  rw [alike.effects]
  cases row.command
  case volume => exact alike.setChannel ((alike.channels c).setVolumes _ _) c
  case jump => exact { alike with effects := rfl, jump := rfl }
  case empty => exact alike
  case delay => exact alike
  all_goals exact alike.setEffects c _

theorem applyRow {r m : Ram} (same : SameOn [Layout.samples] r m) (c : Fin channelCount)
    (row : PatternRow) : (s.applyRow r c row).Alike strict (u.applyRow m c row) := by
  unfold Sequencer.applyRow
  dsimp only
  rw [alike.effects]
  split
  · exact alike.setEffects c _
  · exact ((alike.setEffects c _).playNote same c _).runCommand c _

theorem applyRows {r m : Ram} (same : SameOn Layout.soundData r m) (t : Track) (frame row : Int) :
    SameOutcome (Alike strict) (s.applyRows r t frame row) (u.applyRows m t frame row) := by
  refine SameOutcome.foldlM (fun s u alike c => ?_) allChannels alike
  dsimp only
  rw [PatternRow.load?_congr (same.mono (by decide))]
  split
  · exact alike
  · split
    · rfl
    · exact alike.applyRow (same.mono (by decide)) c _

theorem playRow {r m : Ram} (same : SameOn Layout.soundData r m) (t : Track) (p : MusicPosition)
    (row : Int) :
    SameOutcome (fun x y => x.1.Alike strict y.1 ∧ y.2 = x.2) (s.playRow r t p row)
      (u.playRow m t p row) := by
  unfold Sequencer.playRow
  split
  · exact ⟨alike, rfl⟩
  · exact (alike.applyRows same t _ _).map fun _ _ next => ⟨next, rfl⟩

/-! #### One frame -/

theorem takeJump (t : Track) (p : MusicPosition) :
    ∃ v w rest, s.takeJump t p = (v, rest) ∧ u.takeJump t p = (w, rest) ∧ v.Alike strict w := by
  obtain ⟨tempo, speed⟩ := pace_congr (congrArg Prod.snd alike.timing) t
  unfold Sequencer.takeJump
  dsimp only
  rw [alike.jump, rowOfTick_congr alike.timing t]
  cases s.jump with
  | none => exact ⟨s, u, _, rfl, rfl, alike⟩
  | some jump =>
    dsimp only
    split
    · exact ⟨s, u, _, rfl, rfl, alike⟩
    · have ticks : u.tickOfRow t (jump.beat * rowsPerBeat) =
          s.tickOfRow t (jump.beat * rowsPerBeat) := by
        rw [tickOfRow, tickOfRow, tempo, speed]
      rw [ticks]
      exact ⟨_, _, _, rfl, rfl, { alike.setTicks _ with jump := rfl }⟩

theorem turnFrame (t : Track) (p : MusicPosition) (row : Int) :
    (s.turnFrame t p row = none ∧ u.turnFrame t p row = none) ∨
      ∃ v w rest, s.turnFrame t p row = some (v, rest) ∧ u.turnFrame t p row = some (w, rest) ∧
        v.Alike strict w := by
  by_cases inside : row < t.patternLength
  · rw [Sequencer.turnFrame, Sequencer.turnFrame, if_pos inside, if_pos inside]
    exact .inr ⟨s, u, _, rfl, rfl, alike⟩
  · rw [s.turnFrame_of_le p (by omega), u.turnFrame_of_le p (by omega)]
    cases nextFrame t p with
    | none => exact .inl ⟨rfl, rfl⟩
    | some frame => exact .inr ⟨_, _, _, rfl, rfl, alike.turned p.sustain⟩

variable {gs : List Region} (apart : ∀ h ∈ Layout.soundData, ∀ g ∈ gs, h.Disjoint g)
  {r m : Ram} (agree : AgreeOutside gs r m)
include apart agree

theorem playChannels : (s.playChannels r).1.Alike strict (u.playChannels m).1 ∧
    AgreeOutside gs (s.playChannels r).2 (u.playChannels m).2 := by
  unfold Sequencer.playChannels
  generalize allChannels = channels
  induction channels generalizing s u r m with
  | nil => exact ⟨alike, agree⟩
  | cons c channels ih =>
    have own := alike.channels c
    have same := (agree.bytes.sameOn apart).mono
      (by decide : ∀ g ∈ [Layout.samples, Layout.waveforms], g ∈ Layout.soundData)
    rw [List.foldl_cons, List.foldl_cons]
    dsimp only
    rw [own.isActive, alike.effects, own.note]
    split
    · obtain ⟨moved, written⟩ := own.play same agree c
        ((s.effects.get c).apply (s.channels.get c).note).1
        ((s.effects.get c).apply (s.channels.get c).note).2
      exact ih ((alike.setChannel moved c).setEffects c _) written
    · exact ih (alike.setEffects c _) agree

theorem moveOn (p : MusicPosition) : (s.moveOn p r).1.Alike strict (u.moveOn p m).1 ∧
    AgreeOutside gs (s.moveOn p r).2 (u.moveOn p m).2 := by
  obtain ⟨moved, written⟩ := alike.playChannels apart (agree.storePosition p)
  unfold Sequencer.moveOn
  generalize s.playChannels (p.store r) = x at *
  generalize u.playChannels (p.store m) = y at *
  refine ⟨?_, written⟩
  dsimp only
  rw [moved.ticks]
  exact moved.setTicks _

theorem stop : (s.stop r).1.Alike strict (u.stop m).1 ∧
    AgreeOutside gs (s.stop r).2 (u.stop m).2 := by
  refine ⟨alike.clear, ?_⟩
  unfold Sequencer.stop
  dsimp only
  rw [MusicPosition.load_congr ((agree.bytes.sameOn apart).mono (by decide))]
  exact agree.storePosition _

/-- A frame takes sequencers that are alike to sequencers that are alike. -/
theorem tick : SameOutcome (fun x y => x.1.Alike strict y.1 ∧ AgreeOutside gs x.2 y.2) (s.tick r)
    (u.tick m) := by
  have same := agree.bytes.sameOn apart
  have position := MusicPosition.load_congr (same.mono (by decide))
  by_cases stopped : (MusicPosition.load r).status = .stopped
  · rw [Sequencer.tick, Sequencer.tick, position, if_pos stopped, if_pos stopped]
    exact ⟨alike, agree⟩
  cases found : Track.index? (MusicPosition.load r).track with
  | none =>
    rw [Sequencer.tick, Sequencer.tick, position, if_neg stopped, if_neg stopped, found]
    exact alike.stop apart agree
  | some index =>
    have track := Track.load_congr (same.mono (by decide)) index
    have playing : (MusicPosition.load m).status ≠ .stopped := by
      rw [position]
      exact stopped
    have named : Track.index? (MusicPosition.load m).track = some index := by
      rw [position]
      exact found
    obtain ⟨v, w, ⟨p, row⟩, taken, also, jumped⟩ :=
      alike.takeJump (Track.load r index) (MusicPosition.load r)
    rw [← track, ← position] at also
    rw [tick_playing stopped found taken, tick_playing playing named also, track]
    obtain ⟨ended, also⟩ | ⟨v, w, ⟨p, row⟩, turned, also, begun⟩ :=
      jumped.turnFrame (Track.load r index) p row
    · rw [ended, also]
      exact (jumped.setTicks 0).stop apart agree
    · rw [turned, also]
      dsimp only
      refine (begun.playRow same _ p row).map fun x y played => ?_
      rw [played.2]
      exact played.1.moveOn apart agree x.2

end Alike

end Sequencer

/-! ### A frame of sound -/

theorem RegisterFrame.load_congr {r m : Ram} (same : SameOn [Layout.registers, Layout.stereo] r m) :
    load m = load r := by
  rw [load, load, same.region (g := Layout.registers) (by decide),
    same.word (g := Layout.stereo) (by decide) (Nat.le_refl 4)]

namespace Sound

variable {gs : List Region} (apart : ∀ h ∈ Layout.soundData, ∀ g ∈ gs, h.Disjoint g)
include apart

theorem tickEffect_congr (s : Sound) {r m : Ram} (agree : AgreeOutside gs r m)
    (c : Fin channelCount) : (s.tickEffect m c).1 = (s.tickEffect r c).1 ∧
      AgreeOutside gs (s.tickEffect r c).2 (s.tickEffect m c).2 := by
  have same := (agree.bytes.sameOn apart).mono
    (by decide : ∀ g ∈ [Layout.samples, Layout.waveforms], g ∈ Layout.soundData)
  obtain ⟨moved, written⟩ :=
    (Channel.Alike.refl True (s.effects.get c)).play same agree c (s.effects.get c).note 0
  unfold tickEffect
  dsimp only
  split
  · dsimp only
    rw [moved.eq]
    exact ⟨rfl, written.setBlock _ _⟩
  · exact ⟨rfl, agree⟩

theorem tickEffects_congr (s : Sound) {r m : Ram} (agree : AgreeOutside gs r m)
    (channels : List (Fin channelCount)) :
    let x := channels.foldl (fun (s, r) c => tickEffect s r c) (s, r)
    let y := channels.foldl (fun (s, r) c => tickEffect s r c) (s, m)
    y.1 = x.1 ∧ AgreeOutside gs x.2 y.2 := by
  induction channels generalizing s r m with
  | nil => exact ⟨rfl, agree⟩
  | cons c channels ih =>
    obtain ⟨same, written⟩ := s.tickEffect_congr apart agree c
    have start : ((s.tickEffect r c).1, (s.tickEffect m c).2) = s.tickEffect m c :=
      Prod.ext same.symm rfl
    have rest := ih (s.tickEffect r c).1 written
    rw [start] at rest
    exact rest

/-- A frame of sound does the same on memories that differ only where sound does not read. -/
theorem beginFrame_congr (s : Sound) {r m : Ram} (agree : AgreeOutside gs r m) :
    SameOutcome (fun x y => y.1 = x.1 ∧ AgreeOutside gs x.2 y.2) (s.beginFrame r)
      (s.beginFrame m) := by
  rw [beginFrame_eq, beginFrame_eq]
  refine ((Sequencer.Alike.refl True s.music).tick apart agree.clearRegisters).map ?_
  intro x y moved
  dsimp only
  rw [moved.1.eq]
  exact tickEffects_congr apart { s with music := x.1 } moved.2 allChannels

end Sound

end FantasyConsole
