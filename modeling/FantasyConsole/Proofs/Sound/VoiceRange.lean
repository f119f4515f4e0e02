import FantasyConsole.Proofs.Sound.ChannelRange
import FantasyConsole.Proofs.Sound.Rendering
import Mathlib.Algebra.BigOperators.Fin
import Mathlib.Algebra.Order.BigOperators.Group.Finset

/-!
# The range of voices and samples

Registers have few bits, so what a step sets is bounded whatever the registers hold: the amplitude
by the volumes, the feedback register by its masks, and the time by the longest period. The
amplitudes of one side add up to less than the largest sample.

## Main result

`Synth.renderings_in_range`: how far voices and samples can go, that the loops over the steps of a
voice end, and that a synthesiser whose channels are turned down falls silent.
-/

namespace FantasyConsole

namespace Synth

/-- The mix of voices that are not too loud is their sum. -/
theorem Voices.mix_eq_sum {vs : Voices} (quiet : ∀ c, (vs.get c).amp ≤ 6553) :
    Voices.mix vs = ∑ c, (vs.get c).amp := by
  have sum : vs.foldl (fun sum v => sum + v.amp) 0 = ∑ c, (vs.get c).amp := by
    obtain ⟨⟨list⟩, size⟩ := vs
    match list, size with
    | [a, b, c, d], _ => simp [Fin.sum_univ_four, Vector.get, Nat.add_assoc]
  have bound : ∑ c, (vs.get c).amp ≤ ∑ _c : Fin channelCount, 6553 :=
    Finset.sum_le_sum fun c _ => quiet c
  rw [Voices.mix, sum, maxSample, Nat.min_eq_right]
  exact Nat.le_trans bound (by decide)

/-- How far the numbers of a voice can go between two frames. -/
structure Voice.InRange (v : Voice) : Prop where
  time : v.time < 4096
  phase : v.phase < 2 ^ 17
  amp : v.amp ≤ 6553

theorem toNat_extract_four_le (i : Nat) (b : UInt8) : (Width.four.extract i b).toNat ≤ 15 := by
  rw [Width.extract, UInt8.toNat_and]
  exact Nat.and_le_right

theorem sideVolume_le (f : RegisterFrame) (c : Fin channelCount) (side : Side) :
    f.sideVolume c side ≤ 15 := by
  unfold RegisterFrame.sideVolume
  rw [UInt32.toNat_and]
  exact Nat.and_le_right

theorem amplitude_le {volume raw : Nat} (quiet : volume ≤ 15) (small : raw ≤ 32767) :
    amplitude volume raw ≤ 6553 := by
  have product : raw * volume ≤ 32767 * 15 := Nat.mul_le_mul small quiet
  simp only [amplitude, maxVolume, channelCount]
  omega

/-- What a step sets is in range, whatever the voice was before. -/
theorem Voice.step_inRange (v : Voice) (f : RegisterFrame) (c : Fin channelCount) (side : Side) :
    v.phase < 2 ^ 17 → (v.step (Tone.of f c side)).phase < 2 ^ 17 ∧
      (v.step (Tone.of f c side)).amp ≤ 6553 := by
  intro bounded
  have volume : f.volume c ≤ 15 := toNat_shift_high _
  have stereo : f.sideVolume c side ≤ 15 := sideVolume_le f c side
  have wave (i : Nat) : f.waveValue c i ≤ 15 := toNat_extract_four_le _ _
  unfold Voice.step
  split
  case isTrue =>
    dsimp only
    have register : (if v.phase = 0 then 1 else v.phase) < 2 ^ 17 := by split <;> omega
    generalize (if v.phase = 0 then 1 else v.phase) = phase at register
    constructor
    · -- one of the two feedback masks, or nothing, on top of a shorter register
      have feedback : (Tone.of f c side).feedback < 2 ^ 17 := by
        change (if f.byte c 2 = 0 then 0x12000 else 0x14) < 2 ^ 17
        split <;> decide
      refine Nat.xor_lt_two_pow ?_ ?_
      · rcases Nat.mod_two_eq_zero_or_one phase with even | odd
        · rw [even, Nat.zero_mul]
          decide
        · rw [odd, Nat.one_mul]
          exact feedback
      · omega
    · apply amplitude_le volume
      split
      · have product : f.sideVolume c side * 32767 ≤ 15 * 32767 := Nat.mul_le_mul_right _ stereo
        simp only [Tone.of, maxSample, maxVolume]
        omega
      · exact Nat.zero_le _
  case isFalse =>
    constructor
    · exact Nat.lt_trans (Nat.mod_lt _ (by decide)) (by decide : waveValues < 2 ^ 17)
    · apply amplitude_le volume
      have value := wave (v.phase % waveValues)
      simp only [Tone.of, maxSample, maxVolume]
      have scaled : f.waveValue c (v.phase % waveValues) * 32767 / 15 ≤ 32767 := by omega
      have product := Nat.mul_le_mul scaled stereo
      omega

theorem Voice.runUntil_inRange {v : Voice} (f : RegisterFrame) (c : Fin channelCount) (side : Side)
    (phase : v.phase < 2 ^ 17) (amp : v.amp ≤ 6553) (clock : Nat) :
    (v.runUntil (Tone.of f c side) clock).phase < 2 ^ 17 ∧
      (v.runUntil (Tone.of f c side) clock).amp ≤ 6553 :=
  Voice.runUntil_preserves (p := fun v => v.phase < 2 ^ 17 ∧ v.amp ≤ 6553)
    (fun v bounds => v.step_inRange f c side bounds.1) ⟨phase, amp⟩ clock

/-- Whether the voices of both sides are in range. -/
def InRange (s : Synth) : Prop := ∀ side c, ((s.voices side).get c).InRange

theorem inRange_ofRate (rate : Nat) : (ofRate rate).InRange := by
  intro side c
  have fresh : ((ofRate rate).voices side).get c = {} := by
    cases side <;> exact Vector.getElem_replicate c.isLt
  rw [fresh]
  exact ⟨by decide, by decide, by decide⟩

theorem InRange.render {s : Synth} (inRange : s.InRange) (q : SoundRing) :
    (s.render q).1.InRange := by
  intro side c
  have own := inRange side c
  have kept := Voice.runUntil_inRange q.current c side own.phase own.amp frameClocks
  have near : ((s.voices side).get c).time < frameClocks + 4096 :=
    Nat.lt_of_lt_of_le own.time (Nat.le_add_left _ _)
  have late := Voice.time_runUntil_lt (Tone.of q.current c side) near
  rw [voices_render, Voices.get_endFrame, get_tones]
  refine ⟨?_, kept.1, kept.2⟩
  dsimp only
  omega

/-- What the voices of a side hold at a clock is what is heard: the mix does not cut it. -/
theorem InRange.mix_eq_sum {s : Synth} (inRange : s.InRange) (f : RegisterFrame) (side : Side)
    (clock : Nat) :
    Voices.mix (Voices.runUntil (s.voices side) (tones f side) clock) =
      ∑ c, (((s.voices side).get c).runUntil (Tone.of f c side) clock).amp := by
  rw [Voices.mix_eq_sum]
  · simp only [Voices.get_runUntil, get_tones]
  · intro c
    rw [Voices.get_runUntil, get_tones]
    exact (Voice.runUntil_inRange f c side (inRange side c).phase (inRange side c).amp clock).2

theorem InRange.sum_le {s : Synth} (inRange : s.InRange) (f : RegisterFrame) (side : Side)
    (clock : Nat) :
    ∑ c, (((s.voices side).get c).runUntil (Tone.of f c side) clock).amp ≤ 26212 := by
  have bound : ∑ c, (((s.voices side).get c).runUntil (Tone.of f c side) clock).amp ≤
      ∑ _c : Fin channelCount, 6553 := Finset.sum_le_sum fun c _ =>
    (Voice.runUntil_inRange f c side (inRange side c).phase (inRange side c).amp clock).2
  exact Nat.le_trans bound (by decide)

/-! ### Channels that are turned down -/

/-- Whether the frame to be played has all its volumes at zero. -/
def TurnedDown (q : SoundRing) : Prop := ∀ c, q.current.volume c = 0

/-- Whether no voice holds an amplitude. -/
def Silent (s : Synth) : Prop := ∀ side c, ((s.voices side).get c).amp = 0

theorem Voice.amp_step_of_mute {t : Tone} (mute : t.volume = 0) (v : Voice) :
    (v.step t).amp = 0 := by
  unfold Voice.step
  split <;> simp [amplitude, mute]

theorem Silent.amp_eq {s : Synth} (silent : s.Silent) {q : SoundRing} (down : TurnedDown q)
    (side : Side) (c : Fin channelCount) (clock : Nat) :
    (((s.voices side).get c).runUntil (Tone.of q.current c side) clock).amp = 0 :=
  Voice.runUntil_preserves (p := fun v => v.amp = 0)
    (fun v _ => Voice.amp_step_of_mute (down c) v) (silent side c) clock

/-- A voice is never further from its next step than the longest period, so by then it holds
nothing. -/
theorem InRange.amp_eq {s : Synth} (inRange : s.InRange) {q : SoundRing} (down : TurnedDown q)
    (side : Side) (c : Fin channelCount) {clock : Nat} (late : 4096 ≤ clock) :
    (((s.voices side).get c).runUntil (Tone.of q.current c side) clock).amp = 0 :=
  Voice.runUntil_brings (p := fun v => v.amp = 0) (Voice.amp_step_of_mute (down c))
    (Nat.lt_of_lt_of_le (inRange side c).time late)

theorem InRange.silent_render {s : Synth} (inRange : s.InRange) {q : SoundRing}
    (down : TurnedDown q) : (s.render q).1.Silent := by
  intro side c
  have late : 4096 ≤ frameClocks := by decide
  rw [voices_render, Voices.get_endFrame, get_tones]
  dsimp only
  exact inRange.amp_eq down side c late

theorem Silent.samples_eq {s : Synth} (inRange : s.InRange) (silent : s.Silent) {q : SoundRing}
    (down : TurnedDown q) : ∀ x ∈ (s.render q).1.samples, x = 0 := by
  intro x found
  obtain ⟨side, i, -, rfl⟩ := mem_samples_render found
  rw [inRange.mix_eq_sum]
  exact Finset.sum_eq_zero fun c _ => silent.amp_eq down side c _

/-! ### One frame after the other -/

/-- The synthesiser after it has rendered one frame from each of some rings. -/
def renderAll (s : Synth) (rings : List SoundRing) : Synth :=
  rings.foldl (fun s q => (s.render q).1) s

theorem sampleRate_renderAll (s : Synth) (rings : List SoundRing) :
    (s.renderAll rings).sampleRate = s.sampleRate := by
  induction rings generalizing s with
  | nil => rfl
  | cons q rings ih => exact ih (s.render q).1

theorem InRange.renderAll {s : Synth} (inRange : s.InRange) (rings : List SoundRing) :
    (s.renderAll rings).InRange := by
  induction rings generalizing s with
  | nil => exact inRange
  | cons q rings ih => exact ih (inRange.render q)

theorem InRange.samples_renderAll_le {s : Synth} (inRange : s.InRange)
    (start : ∀ x ∈ s.samples, x ≤ 26212) (rings : List SoundRing) :
    ∀ x ∈ (s.renderAll rings).samples, x ≤ 26212 := by
  induction rings generalizing s with
  | nil => exact start
  | cons q rings ih =>
    apply ih (inRange.render q)
    intro x found
    obtain ⟨side, i, -, rfl⟩ := mem_samples_render found
    rw [inRange.mix_eq_sum]
    exact inRange.sum_le _ _ _

theorem Silent.renderAll {s : Synth} (inRange : s.InRange) (silent : s.Silent)
    {rings : List SoundRing} (down : ∀ q ∈ rings, TurnedDown q) : (s.renderAll rings).Silent := by
  induction rings generalizing s with
  | nil => exact silent
  | cons q rings ih =>
    obtain ⟨first, rest⟩ := List.forall_mem_cons.mp down
    exact ih (inRange.render q) (inRange.silent_render first) rest

/-- A sample, as the sum of what the voices of its side hold at its clock. -/
theorem InRange.getElem?_samples {s : Synth} (inRange : s.InRange) (q : SoundRing) (side : Side)
    {i : Nat} (inside : i < frameSamples s.sampleRate) :
    (s.render q).1.samples[2 * i + side.place]? =
      some (∑ c, (((s.voices side).get c).runUntil (Tone.of q.current c side)
        (sampleClock (frameSamples s.sampleRate) i + 1)).amp) := by
  rw [getElem?_samples_render s q side inside, inRange.mix_eq_sum]

/-- Whatever frames a synthesiser has rendered, between two frames each voice is in its range; a
loop that steps a voice ends, after at most one step for every ten clocks and one more; a sample is
the sum of what the voices of its side hold and is at most 26212, which is below the largest sample,
so it is never cut. When the channels are turned down, the rest of the frame from clock 4096 on is
silent, and so are all frames after it for as long as they stay down. -/
theorem renderings_in_range (rate : Nat) (rings : List SoundRing) :
    let s := (ofRate rate).renderAll rings
    (∀ side c, ((s.voices side).get c).time < 4096 ∧ ((s.voices side).get c).phase < 2 ^ 17 ∧
      ((s.voices side).get c).amp ≤ 6553) ∧
    (∀ (v : Voice) (t : Tone) (clock : Nat),
      ∃ k ≤ clock / 10 + 1, v.StepsBefore t clock k ∧ v.runUntil t clock = v.steps t k) ∧
    (∀ x ∈ s.samples, x ≤ 26212) ∧
    (∀ (q : SoundRing) (side : Side), ∀ i < rate / 60, ∃ sum ≤ 26212,
      sum = ∑ c, (((s.voices side).get c).runUntil (Tone.of q.current c side)
        (i * 34816 / (rate / 60) + 1)).amp ∧
      (s.render q).1.samples[2 * i + side.place]? = some sum) ∧
    (∀ first, TurnedDown first →
      (∀ (side : Side), ∀ i < rate / 60, 4096 ≤ i * 34816 / (rate / 60) →
        (s.render first).1.samples[2 * i + side.place]? = some 0) ∧
      ∀ more last, (∀ q ∈ more, TurnedDown q) → TurnedDown last →
        ∀ x ∈ (s.renderAll (first :: more ++ [last])).samples, x = 0) := by
  intro s
  have inRange : s.InRange := (inRange_ofRate rate).renderAll rings
  have rate_eq : s.sampleRate = rate := sampleRate_renderAll (ofRate rate) rings
  have sampled (q : SoundRing) (side : Side) {i : Nat} (inside : i < rate / 60) :=
    inRange.getElem?_samples q side (rate_eq ▸ inside : i < frameSamples s.sampleRate)
  rw [rate_eq] at sampled
  refine ⟨?_, Voice.stepsBefore_runUntil, ?_, ?_, ?_⟩
  · intro side c
    exact ⟨(inRange side c).time, (inRange side c).phase, (inRange side c).amp⟩
  · apply (inRange_ofRate rate).samples_renderAll_le
    intro x found
    rw [Array.eq_of_mem_replicate found]
    exact Nat.zero_le _
  · intro q side i inside
    exact ⟨_, inRange.sum_le _ _ _, rfl, sampled q side inside⟩
  · intro first down
    constructor
    · intro side i inside late
      rw [sampled first side inside]
      exact congrArg some
        (Finset.sum_eq_zero fun c _ => inRange.amp_eq down side c (Nat.le_succ_of_le late))
    · intro more last quiet lastDown
      -- the first frame leaves the voices silent, and those after it keep them so
      have fell := (inRange.silent_render down).renderAll (inRange.render first) quiet
      have played : s.renderAll (first :: more ++ [last]) =
          (((s.render first).1.renderAll more).render last).1 := by
        simp [renderAll]
      rw [played]
      exact fell.samples_eq ((inRange.render first).renderAll more) lastDown

end Synth

end FantasyConsole
