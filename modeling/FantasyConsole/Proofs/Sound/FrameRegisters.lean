import FantasyConsole.Proofs.Sound.EffectPlayback
import FantasyConsole.Proofs.Sound.OwnChannel
import FantasyConsole.Proofs.Sound.Registers

/-!
# What a frame leaves in the registers

A frame of sound clears the registers, writes those of the music channels that are heard, and then
those of the effects that are heard. So each channel is queued with the voice of its effect, with
that of the music where no effect is heard, and silent where neither is.

## Main result

`Sound.registers_of_frame`: the entry that a frame queues, read channel by channel.
-/

namespace FantasyConsole

open Ram

/-- What one channel writes is neither read for another one nor heard on it. -/
theorem Layout.voice_disjoint {c d : Fin channelCount} (ne : c ≠ d) :
    ∀ h ∈ heardOf c ++ instruments, ∀ g ∈ effectOutputOf d, h.Disjoint g := by
  decide +revert

namespace Channel

/-! ### The voice of a channel -/

/-- The ticks of its envelope that sample `i` comes to when a channel is moved on. -/
def envelope (ch : Channel) (r : Ram) (i : Fin sampleCount) : Envelope EnvelopeTick :=
  let sample := Sample.load r i
  let tick : Nat := ch.progress.elim 0 fun p => p.tick + 1
  sample.loops.map fun l => sample.tickAt (l.position (envelopeProgress ch.speed tick))

/-- Whether a channel that is moved on is heard with sample `i`: it plays the sample, its time is
not over then, and the envelope leaves some volume. -/
def Audible (ch : Channel) (r : Ram) (i : Fin sampleCount) : Prop :=
  ch.sample = some i ∧ ch.duration ≠ 0 ∧ ch.duration ≠ 1 ∧
    maxVolume - (ch.envelope r i).volume.volume ≠ 0

instance (ch : Channel) (r : Ram) (i : Fin sampleCount) : Decidable (ch.Audible r i) :=
  inferInstanceAs (Decidable (_ ∧ _ ∧ _ ∧ _))

/-- How a channel sounds with sample `i`. -/
def voice (ch : Channel) (r : Ram) (i : Fin sampleCount) (note pitch : Int) : Register :=
  let sample := Sample.load r i
  let ticks := ch.envelope r i
  let chord : Int := if sample.reverse then -ticks.chord.chord else ticks.chord.chord
  let scale : Int := if sample.pitch16x then 16 else 1
  let frequency := noteFrequency (saturate32 (note + chord)) + ticks.pitch.pitch * scale + pitch
  { frequency := (frequency % 4096).toNat
    volume := maxVolume - ticks.volume.volume
    waveform := loadWaveform r ticks.wave.wave
    left := if sample.muteLeft then 0 else ch.left
    right := if sample.muteRight then 0 else ch.right }

/-- The voice of a channel, if it is heard. -/
def voice? (ch : Channel) (r : Ram) (note pitch : Int) : Option Register :=
  ch.sample.bind fun i => if ch.Audible r i then some (ch.voice r i note pitch) else none

theorem register?_eq (ch : Channel) (r : Ram) (i : Fin sampleCount) (note pitch : Int) :
    ch.register? r (Sample.load r i) ((Sample.load r i).loops.map fun l =>
        l.position (envelopeProgress ch.speed (ch.progress.elim 0 fun p => p.tick + 1 : Nat)))
      note pitch =
      if maxVolume - (ch.envelope r i).volume.volume = 0 then none
      else some (ch.voice r i note pitch) := rfl

/-- A channel that is moved on is written exactly when it is heard, and then with its voice. -/
theorem advance_snd (ch : Channel) (r : Ram) (note pitch : Int) :
    (ch.advance r note pitch).2 = ch.voice? r note pitch := by
  cases plays : ch.sample with
  | none => simp only [Channel.advance, voice?, plays, Option.bind_none]
  | some i =>
    -- the duration is counted down first, so a channel with one frame left is over as well
    have spent : (if 0 < ch.duration then ch.duration - 1 else ch.duration) = 0 ↔
        ch.duration = 0 ∨ ch.duration = 1 := by
      split <;> omega
    simp only [Channel.advance, voice?, plays, Option.bind_some]
    generalize (if 0 < ch.duration then ch.duration - 1 else ch.duration) = remaining at spent ⊢
    by_cases ended : ch.duration = 0 ∨ ch.duration = 1
    · have silent : ¬ ch.Audible r i := fun heard => ended.elim heard.2.1 heard.2.2.1
      rw [if_pos (spent.mpr ended), if_neg silent]
    · rw [if_neg (mt spent.mp ended)]
      have written := ch.register?_eq r i note pitch
      by_cases quiet : maxVolume - (ch.envelope r i).volume.volume = 0
      · rw [if_pos quiet] at written
        rw [if_neg fun heard => heard.2.2.2 quiet, ← written]
        cases ch.progress <;> rfl
      · rw [if_neg quiet] at written
        rw [if_pos ⟨plays, fun h => ended (.inl h), fun h => ended (.inr h), quiet⟩, ← written]
        cases ch.progress <;> rfl

theorem voice?_of_idle {ch : Channel} (idle : ¬ ch.isActive = true) (r : Ram) (note pitch : Int) :
    ch.voice? r note pitch = none := by
  have stopped : ch.sample = none := by
    simpa only [Channel.isActive, Bool.not_eq_true, Option.isSome_eq_false_iff,
      Option.isNone_iff_eq_none] using idle
  rw [voice?, stopped, Option.bind_none]

theorem voice?_congr (ch : Channel) {r m : Ram} (same : SameOn Layout.instruments r m)
    (note pitch : Int) : ch.voice? m note pitch = ch.voice? r note pitch := by
  rw [← advance_snd, ← advance_snd, ch.advance_congr same]

theorem fits_voice {ch : Channel} (inRange : ch.InRange) {r : Ram} {note pitch : Int}
    {g : Register} (heard : ch.voice? r note pitch = some g) : g.Fits := by
  obtain ⟨i, -, found⟩ := Option.bind_eq_some_iff.mp heard
  split at found
  case isFalse => cases found
  case isTrue =>
    cases found
    have quiet {b : Bool} {v : UInt8} (bound : v.toNat ≤ 15) : (if b then 0 else v).toNat ≤ 15 := by
      cases b
      · exact bound
      · exact Nat.zero_le 15
    refine ⟨?_, Nat.sub_le _ _, quiet inRange.left, quiet inRange.right⟩
    dsimp only [voice]
    omega

end Channel

namespace Ram

/-! ### Voices on top of each other -/

/-- Whether a channel is read as before, or as a voice that was written there. -/
def Overlays (c : Fin channelCount) (voice : Option Register) (r m : Ram) : Prop :=
  ∀ g, (RegisterFrame.load r).Reads c g → (RegisterFrame.load m).Reads c (voice.getD g)

/-- Whether a channel has the same bytes to be heard with, and sounds from the same data. -/
def KeepsVoice (c : Fin channelCount) (r m : Ram) : Prop :=
  SameOn (Layout.heardOf c ++ Layout.instruments) r m

variable {c d : Fin channelCount} {r m o : Ram}

theorem KeepsVoice.trans (first : KeepsVoice c r m) (second : KeepsVoice c m o) :
    KeepsVoice c r o := SameOn.trans first second

theorem KeepsVoice.instruments (kept : KeepsVoice c r m) : SameOn Layout.instruments r m :=
  kept.mono fun _ member => List.mem_append_right _ member

theorem KeepsVoice.heard (kept : KeepsVoice c r m) : SameOn (Layout.heardOf c) r m :=
  kept.mono fun _ member => List.mem_append_left _ member

theorem keepsVoice_of_effectOutput (written : SameOutside (Layout.effectOutputOf d) r m)
    (ne : c ≠ d) : KeepsVoice c r m :=
  written.sameOn (Layout.voice_disjoint ne)

theorem keepsVoice_of_heard (written : SameOutside (Layout.heardOf d) r m) (ne : c ≠ d) :
    KeepsVoice c r m :=
  keepsVoice_of_effectOutput (written.mono (by simp [Layout.heardOf, Layout.effectOutputOf])) ne

theorem keepsVoice_storePosition (p : MusicPosition) (r : Ram) (c : Fin channelCount) :
    KeepsVoice c r (p.store r) := by
  apply (p.sameOutside_store r).sameOn
  decide +revert

theorem overlays_none (same : SameOn (Layout.heardOf c) r m) : Overlays c none r m :=
  fun _ reads => reads.of_sameOn same

theorem overlays_some {g : Register} (fits : g.Fits) (c : Fin channelCount) (r : Ram) :
    Overlays c (some g) r (g.store c r) := fun _ _ => Register.reads_store fits c r

/-- What is written later is heard in place of what was written before. -/
theorem Overlays.trans {first second : Option Register} (before : Overlays c first r m)
    (after : Overlays c second m o) : Overlays c (second.or first) r o := by
  intro g reads
  rw [Option.getD_or]
  exact after _ (before g reads)

theorem Overlays.between {voice : Option Register} {q : Ram} (laid : Overlays c voice m o)
    (before : KeepsVoice c r m) (after : KeepsVoice c o q) : Overlays c voice r q :=
  fun g reads => (laid g (reads.of_sameOn before.heard)).of_sameOn after.heard

end Ram

theorem Channel.overlays_play {ch : Channel} (inRange : ch.InRange) (c : Fin channelCount) (r : Ram)
    (note pitch : Int) : Overlays c (ch.voice? r note pitch) r (ch.play c r note pitch).2 := by
  have fits {g : Register} (heard : ch.voice? r note pitch = some g) := fits_voice inRange heard
  rw [← ch.advance_snd] at fits ⊢
  unfold Channel.play
  split
  case h_1 moved g written =>
    rw [written] at fits ⊢
    exact overlays_some (fits rfl) c r
  case h_2 moved unheard =>
    rw [unheard]
    exact overlays_none (.refl _ r)

/-! ### The music -/

namespace Sequencer

/-- The voice that a channel of the music gets when the channels are moved on. -/
def voice? (s : Sequencer) (r : Ram) (c : Fin channelCount) : Option Register :=
  let ch := s.channels.get c
  let (note, pitch) := (s.effects.get c).apply ch.note
  ch.voice? r note pitch

theorem SameAt.voice? {c : Fin channelCount} {s u : Sequencer} (same : SameAt c s u) {r m : Ram}
    (instruments : SameOn Layout.instruments r m) : u.voice? m c = s.voice? r c := by
  unfold Sequencer.voice?
  rw [same.channel, same.effects]
  exact (s.channels.get c).voice?_congr instruments _ _

theorem overlays_moveChannel {x : Sequencer × Ram} {c : Fin channelCount}
    (inRange : (x.1.channels.get c).InRange) :
    Overlays c (x.1.voice? x.2 c) x.2 (moveChannel x c).2 := by
  unfold moveChannel
  dsimp only
  split
  case isTrue => exact Channel.overlays_play inRange c x.2 _ _
  case isFalse idle =>
    have silent : x.1.voice? x.2 c = none := Channel.voice?_of_idle idle x.2 _ _
    rw [silent]
    exact overlays_none (.refl _ x.2)

/-- Every channel gets its voice in its own turn, and keeps it in the turns of the others. -/
theorem overlays_moveOn {s : Sequencer} (inRange : s.InRange) (p : MusicPosition) (r : Ram)
    (c : Fin channelCount) : Overlays c (s.voice? r c) r (s.moveOn p r).2 := by
  obtain ⟨y, before, after⟩ := foldl_of_mem moveChannel
    (fun x y => SameAt c x.1 y.1 ∧ KeepsVoice c x.2 y.2)
    (fun x => ⟨SameAt.refl c x.1, SameOn.refl _ x.2⟩)
    (fun first second => ⟨first.1.trans second.1, first.2.trans second.2⟩)
    (fun x d ne => ⟨sameAt_moveChannel x (Ne.symm ne),
      keepsVoice_of_heard (sameOutside_moveChannel x d) (Ne.symm ne)⟩)
    nodup_turns (mem_allChannels c) rfl (s, p.store r)
  -- neither the published position nor the turns before its own change what the channel plays from
  have stored := keepsVoice_storePosition p r c
  have start := stored.trans before.2
  have own : (y.1.channels.get c).InRange := by
    rw [before.1.channel]
    exact inRange.channels c
  have laid := overlays_moveChannel own
  rw [before.1.voice? start.instruments] at laid
  unfold moveOn
  dsimp only
  rw [playChannels_eq]
  exact laid.between start after.2

theorem InRange.hand {s : Sequencer} (inRange : s.InRange) (r : Ram)
    {rows : List (Fin channelCount × PatternRow)} (decoded : ∀ row ∈ rows, row.2.InRange) :
    (s.hand r rows).InRange := by
  induction rows generalizing s with
  | nil => exact inRange
  | cons row rows ih =>
    obtain ⟨own, rest⟩ := List.forall_mem_cons.mp decoded
    exact ih (inRange.applyRow r row.1 own) rest

theorem Arrival.inRange_rows (a : Arrival) (r : Ram) : ∀ row ∈ a.rows r, row.2.InRange := by
  unfold Arrival.rows
  split
  · exact fun row none => absurd none List.not_mem_nil
  · exact fun row member => PatternRow.inRange_of_load? (mem_rowsAt.mp member).2

theorem InRange.arrival? {s : Sequencer} (inRange : s.InRange) {r : Ram} {a : Arrival}
    (arrived : s.arrival? r = some a) : a.music.InRange := by
  obtain ⟨index, u, p, row, -, -, -, jumped, turned⟩ := arrival?_eq_some arrived
  have taken := inRange.takeJump a.track (MusicPosition.load r)
  rw [jumped] at taken
  exact taken.turnFrame turned

theorem hand_congr {r m : Ram} (same : SameOn [Layout.samples] r m) (s : Sequencer)
    (rows : List (Fin channelCount × PatternRow)) : s.hand m rows = s.hand r rows := by
  induction rows generalizing s with
  | nil => simp only [hand, List.foldl_nil]
  | cons row rows ih =>
    have first := ((Alike.refl True s).applyRow same row.1 row.2).eq
    simp only [hand, List.foldl_cons] at ih ⊢
    rw [first, ih]

/-- The voice that a channel gets in the next frame of music, if the music goes on. -/
def nextVoice? (s : Sequencer) (r : Ram) (c : Fin channelCount) : Option Register :=
  (s.arrival? r).bind fun a => (a.music.hand r (a.rows r)).voice? r c

theorem nextVoice?_congr {r m : Ram} (song : SameOn Layout.song r m)
    (instruments : SameOn Layout.instruments r m) (s : Sequencer) (c : Fin channelCount) :
    s.nextVoice? m c = s.nextVoice? r c := by
  unfold nextVoice?
  rw [arrival?_congr song]
  refine congrArg (Option.bind (s.arrival? r)) (funext fun a => ?_)
  rw [a.rows_congr song, hand_congr (instruments.mono (by decide))]
  exact (SameAt.refl c _).voice? instruments

theorem overlays_tick {s : Sequencer} (inRange : s.InRange) {r : Ram} {result : Sequencer × Ram}
    (ticked : s.tick r = .ok result) (c : Fin channelCount) :
    Overlays c (s.nextVoice? r c) r result.2 := by
  unfold nextVoice?
  cases arrived : s.arrival? r with
  | some a =>
    rw [(tick_eq_moveOn arrived ticked).1, Option.bind_some]
    exact overlays_moveOn ((inRange.arrival? arrived).hand r (a.inRange_rows r)) _ r c
  | none =>
    rw [Option.bind_none]
    rcases tick_of_no_arrival arrived with ⟨-, same⟩ | ⟨u, stops⟩
    · rw [same] at ticked
      cases ticked
      exact overlays_none (.refl _ r)
    · rw [stops] at ticked
      cases ticked
      exact overlays_none (keepsVoice_storePosition _ r c).heard

/-! ### Where two sequencers arrive -/

namespace SameAt

variable {c : Fin channelCount} {s u : Sequencer}

theorem turned (same : SameAt c s u) (sustain : Bool) :
    SameAt c (s.turned sustain) (u.turned sustain) := by
  cases sustain
  case true => exact ⟨same.channel, same.effects⟩
  case false =>
    refine ⟨?_, rfl⟩
    simp only [Sequencer.turned, silence, clear, PerChannel.get_map, same.channel,
      Bool.false_eq_true, ↓reduceIte]

theorem takeJump (same : SameAt c s u) (jump : u.jump = s.jump) (timing : u.timing = s.timing)
    (t : Track) (p : MusicPosition) :
    ∃ v w rest, s.takeJump t p = (v, rest) ∧ u.takeJump t p = (w, rest) ∧ SameAt c v w := by
  have row := rowOfTick_congr timing t
  unfold Sequencer.takeJump
  dsimp only
  rw [jump, row]
  cases s.jump with
  | none => exact ⟨s, u, _, rfl, rfl, same⟩
  | some waiting =>
    dsimp only
    split
    · exact ⟨s, u, _, rfl, rfl, same⟩
    · exact ⟨_, _, _, rfl, rfl, same.channel, same.effects⟩

theorem turnFrame (same : SameAt c s u) (t : Track) (p : MusicPosition) (row : Int) :
    (s.turnFrame t p row = none ∧ u.turnFrame t p row = none) ∨
      ∃ v w rest, s.turnFrame t p row = some (v, rest) ∧ u.turnFrame t p row = some (w, rest) ∧
        SameAt c v w := by
  by_cases inside : row < t.patternLength
  · rw [Sequencer.turnFrame, Sequencer.turnFrame, if_pos inside, if_pos inside]
    exact .inr ⟨s, u, _, rfl, rfl, same⟩
  · rw [s.turnFrame_of_le p (by omega), u.turnFrame_of_le p (by omega)]
    cases nextFrame t p with
    | none => exact .inl ⟨rfl, rfl⟩
    | some frame => exact .inr ⟨_, _, _, rfl, rfl, same.turned p.sustain⟩

/-- Other channels do not matter to where the music arrives, nor to what a channel has there. -/
theorem nextVoice? (same : SameAt c s u) (jump : u.jump = s.jump) (timing : u.timing = s.timing)
    (r : Ram) : u.nextVoice? r c = s.nextVoice? r c := by
  unfold Sequencer.nextVoice? arrival?
  dsimp only
  split
  case isTrue => rfl
  case isFalse =>
    cases Track.index? (MusicPosition.load r).track with
    | none => rfl
    | some index =>
      obtain ⟨v, w, rest, first, second, jumped⟩ :=
        same.takeJump jump timing (Track.load r index) (MusicPosition.load r)
      simp only [Option.bind_some, first, second]
      obtain ⟨none, also⟩ | ⟨x, y, next, some, also, turned⟩ :=
        jumped.turnFrame (Track.load r index) rest.1 rest.2
      · rw [none, also]
      · rw [some, also]
        exact (turned.hand r (Arrival.nodup_rows ⟨_, x, next.1, next.2⟩ r)).voice? (.refl _ r)

end SameAt

end Sequencer

/-! ### The effects -/

namespace Sound

/-- The voice that an effect channel gets in the next frame. -/
def effectVoice? (s : Sound) (r : Ram) (c : Fin channelCount) : Option Register :=
  (s.effects.get c).voice? r (s.effects.get c).note 0

theorem overlays_tickEffect {s : Sound} {r : Ram} {c : Fin channelCount}
    (inRange : (s.effects.get c).InRange) :
    Overlays c (s.effectVoice? r c) r (s.tickEffect r c).2 := by
  unfold tickEffect
  dsimp only
  split
  case isTrue =>
    have played := Channel.overlays_play inRange c r (s.effects.get c).note 0
    generalize (s.effects.get c).play c r (s.effects.get c).note 0 = moved at played ⊢
    have stored := (moved.1.sameOutside_storePositions c moved.2).sameOn (Layout.heardOf_disjoint c)
    exact fun g reads => (played g reads).of_sameOn stored
  case isFalse idle =>
    have silent : s.effectVoice? r c = none := Channel.voice?_of_idle idle r _ 0
    rw [silent]
    exact overlays_none (.refl _ r)

theorem overlays_tickEffects {s : Sound} (inRange : s.InRange) (r : Ram) (c : Fin channelCount) :
    Overlays c (s.effectVoice? r c) r
      (allChannels.foldl (fun (s, r) c => tickEffect s r c) (s, r)).2 := by
  obtain ⟨y, before, after⟩ := foldl_of_mem (fun (x : Sound × Ram) c => x.1.tickEffect x.2 c)
    (fun x y => y.1.effects.get c = x.1.effects.get c ∧ KeepsVoice c x.2 y.2)
    (fun x => ⟨rfl, SameOn.refl _ x.2⟩)
    (fun first second => ⟨second.1.trans first.1, first.2.trans second.2⟩)
    (fun x d ne => ⟨(x.1.tickEffect_of_ne x.2 (Ne.symm ne)).1,
      keepsVoice_of_effectOutput (x.1.sameOutside_tickEffect x.2 d) (Ne.symm ne)⟩)
    nodup_turns (mem_allChannels c) rfl (s, r)
  have own : (y.1.effects.get c).InRange := by
    rw [before.1]
    exact inRange.effects c
  have laid := overlays_tickEffect (r := y.2) own
  have voice : y.1.effectVoice? y.2 c = s.effectVoice? r c := by
    unfold effectVoice?
    rw [before.1]
    exact (s.effects.get c).voice?_congr before.2.instruments _ _
  rw [voice] at laid
  exact laid.between before.2 after.2

/-! ### A frame of sound -/

/-- The voice that is heard on a channel in the next frame: that of the effect, or else that of the
music. -/
def voice? (s : Sound) (r : Ram) (c : Fin channelCount) : Option Register :=
  (s.effectVoice? r c).or (s.music.nextVoice? r c)

theorem reads_beginFrame {s : Sound} (inRange : s.InRange) {r : Ram} {x : Sound × Ram}
    (begun : s.beginFrame r = .ok x) (c : Fin channelCount) :
    (RegisterFrame.load x.2).Reads c ((s.voice? r c).getD .silent) := by
  obtain ⟨moved, ticked, -, -⟩ := tick_of_beginFrame begun
  rw [beginFrame_eq, ticked] at begun
  cases begun
  have cleared : SameOn Layout.instruments r r.clearRegisters :=
    r.sameOutside_clearRegisters.sameOn (by decide)
  have instruments : SameOn Layout.instruments r moved.2 :=
    cleared.trans ((Sequencer.sameOutside_tick ticked).sameOn (by decide))
  -- silence first, the music over it, and the effects over both
  have music := Sequencer.overlays_tick inRange.music ticked c
  rw [Sequencer.nextVoice?_congr r.sameOn_clearRegisters cleared] at music
  have stepped : { s with music := moved.1 }.InRange :=
    { inRange with music := inRange.music.tick ticked }
  have effects := overlays_tickEffects stepped moved.2 c
  have voice : effectVoice? { s with music := moved.1 } moved.2 c = s.effectVoice? r c :=
    (s.effects.get c).voice?_congr instruments _ _
  rw [voice] at effects
  exact music.trans effects _ (RegisterFrame.reads_clearRegisters r c)

/-- Whether sound has the same on a channel, and the music in the same place. -/
structure SameAt (c : Fin channelCount) (s u : Sound) : Prop where
  effect : u.effects.get c = s.effects.get c
  music : s.music.SameAt c u.music
  jump : u.music.jump = s.music.jump
  timing : u.music.timing = s.music.timing

theorem SameAt.voice? {c : Fin channelCount} {s u : Sound} (same : SameAt c s u) (r : Ram) :
    u.voice? r c = s.voice? r c := by
  unfold Sound.voice? effectVoice?
  rw [same.effect, same.music.nextVoice? same.jump same.timing]

/-- A frame queues each channel with the voice of its effect, or else with that of the music, or
else silent. What else sound plays does not matter to a channel. -/
theorem registers_of_frame {s : Sound} (reached : s.Reachable) {r : Ram} {x : Sound × Ram}
    (begun : s.beginFrame r = .ok x) :
    ∃ entry, (x.1.endFrame x.2).ring = x.1.ring.push entry ∧
      ∀ c, entry.Reads c ((s.voice? r c).getD .silent) ∧
        ∀ u y, Reachable u → s.SameAt c u → u.beginFrame r = .ok y →
          ∃ other, (y.1.endFrame y.2).ring = y.1.ring.push other ∧
            other.Reads c ((s.voice? r c).getD .silent) := by
  refine ⟨_, rfl, fun c => ⟨reads_beginFrame reached.inRange begun c, ?_⟩⟩
  intro u y also same begun
  have reads := reads_beginFrame also.inRange begun c
  rw [same.voice? r] at reads
  exact ⟨_, rfl, reads⟩

/-- An effect that is started on blank memory is heard on its channel, and nothing on the others. -/
theorem registers_of_first_effect :
    ∃ (s : Sound) (r : Ram) (x : Sound × Ram), s.Reachable ∧ s.beginFrame r = .ok x ∧
      ∃ entry, (x.1.endFrame x.2).ring = x.1.ring.push entry ∧
        entry.Reads 1 ⟨16, 15, Vector.replicate _ 0, 15, 15⟩ ∧ entry.Reads 0 .silent := by
  have played := fresh.playEffect?_of_channel .blank 0 0 0 2 1 15 15 0
  have reached := Reachable.playEffect .fresh played
  generalize started : (fresh.effects.get 1).start .blank (some 0) 0 0 2 (limitVolume 15)
    (limitVolume 15) (Channel.speed? 0) = ch at played reached
  have stored : SameOutside [Layout.positionsOf 1] .blank (ch.storePositions 1 .blank) :=
    ch.sameOutside_storePositions 1 .blank
  have stopped : (MusicPosition.load (ch.storePositions 1 .blank)).status = .stopped := by
    rw [MusicPosition.load_congr (stored.sameOn (by decide))]
    simp only [MusicPosition.load, byte_blank]
    decide
  have silent : fresh.music.arrival? (ch.storePositions 1 .blank) = none := if_pos stopped
  obtain ⟨x, begun, -⟩ := beginFrame_of_no_arrival
    (s := { fresh with effects := fresh.effects.replace 1 ch }) silent
  obtain ⟨entry, queued, reads⟩ := registers_of_frame reached begun
  refine ⟨_, _, x, reached, begun, entry, queued, ?_, ?_⟩
  · have sample : Sample.load .blank 0 = Sample.decode fun _ => 0 := by
      simp only [Sample.load, byte_blank]
    have waveform : Channel.loadWaveform .blank 0 = Vector.replicate _ 0 := by
      simp only [Channel.loadWaveform, block, byte_blank]
      rfl
    have envelope : ch.envelope .blank 0 =
        ⟨⟨0, 0, 0, 0⟩, ⟨0, 0, 0, 0⟩, ⟨0, 0, 0, 0⟩, ⟨0, 0, 0, 0⟩⟩ := by
      rw [← started, Channel.envelope, sample]
      rfl
    have audible : ch.Audible .blank 0 := by
      unfold Channel.Audible
      rw [envelope, ← started]
      decide
    have voice : ch.voice .blank 0 ch.note 0 = ⟨16, 15, Vector.replicate _ 0, 15, 15⟩ := by
      rw [Channel.voice, envelope, sample, waveform, ← started]
      rfl
    have heard : ch.voice? (ch.storePositions 1 .blank) ch.note 0 =
        some ⟨16, 15, Vector.replicate _ 0, 15, 15⟩ := by
      rw [ch.voice?_congr (stored.sameOn (by decide)), Channel.voice?, audible.1, Option.bind_some,
        if_pos audible, voice]
    have own := (reads 1).1
    rw [Sound.voice?, effectVoice?, PerChannel.get_replace_self, heard] at own
    exact own
  · have own := (reads 0).1
    have idle : fresh.effects.get 0 = {} := PerChannel.get_replicate _ 0
    rw [Sound.voice?, effectVoice?, PerChannel.get_replace_of_ne _ (by decide), idle,
      Sequencer.nextVoice?, silent] at own
    exact own

end Sound

end FantasyConsole
