import FantasyConsole.Proofs.Sound.PlayQueue
import FantasyConsole.Proofs.Sound.VoiceRange

/-!
# Synthesisers of other rates

The sample rate decides at which clocks of a frame the voices are looked at. It does not decide what
they do, so synthesisers that differ in their rates play the same music.

## Main result

`Synth.samples_independent_of_rate`: synthesisers that are used alike have the same voices, and a
sample is what the voices of its side hold at its clock.
-/

namespace FantasyConsole

namespace Synth

/-- One use of a synthesiser and of the ring that it plays from. -/
inductive SynthOp where
  | ring (op : RingOp)
  | render
deriving DecidableEq, Repr

def apply : Synth × SoundRing → SynthOp → Synth × SoundRing
  | (s, q), .ring op => (s, q.apply op)
  | (s, q), .render => s.render q

/-- Synthesiser and ring after a sequence of uses. -/
def run (start : Synth × SoundRing) (ops : List SynthOp) : Synth × SoundRing :=
  ops.foldl apply start

theorem run_preserves {p : Synth → Prop} (kept : ∀ s q, p s → p (s.render q).1)
    {start : Synth × SoundRing} (holds : p start.1) (ops : List SynthOp) : p (run start ops).1 := by
  induction ops generalizing start with
  | nil => exact holds
  | cons op ops ih =>
    apply ih
    cases op with
    | ring op => exact holds
    | render => exact kept start.1 start.2 holds

/-- Two synthesisers with the same voices, at rings that are the same. -/
structure Alike (a b : Synth × SoundRing) : Prop where
  voices : ∀ side, a.1.voices side = b.1.voices side
  ring : a.2 = b.2

theorem Alike.apply {a b : Synth × SoundRing} (alike : Alike a b) (op : SynthOp) :
    Alike (apply a op) (apply b op) := by
  obtain ⟨s, q⟩ := a
  obtain ⟨u, p⟩ := b
  obtain ⟨voices, ring⟩ := alike
  dsimp only at voices ring
  subst ring
  cases op with
  | ring op => exact ⟨voices, rfl⟩
  | render =>
    refine ⟨fun side => ?_, rfl⟩
    change (s.render q).1.voices side = (u.render q).1.voices side
    rw [voices_render, voices_render, voices side]

theorem Alike.run {a b : Synth × SoundRing} (alike : Alike a b) (ops : List SynthOp) :
    Alike (run a ops) (run b ops) := by
  induction ops generalizing a b with
  | nil => exact alike
  | cons op ops ih => exact ih (alike.apply op)

theorem alike_ofRate (rate₁ rate₂ : Nat) (q : SoundRing) :
    Alike (ofRate rate₁, q) (ofRate rate₂, q) := by
  refine ⟨fun side => ?_, rfl⟩
  cases side <;> rfl

/-- Whether both sides of every channel are in step. -/
def SidesInStep (s : Synth) : Prop := ∀ c, ((s.voices .left).get c).InStep ((s.voices .right).get c)

theorem SidesInStep.render {s : Synth} (together : s.SidesInStep) (q : SoundRing) :
    (s.render q).1.SidesInStep := by
  intro c
  have ran := (together c).runUntil (Tone.stepsLike_of q.current c .left .right) frameClocks
  simp only [voices_render, Voices.get_endFrame, get_tones]
  exact ⟨congrArg (· - frameClocks) ran.time, ran.phase⟩

/-- Synthesisers of two rates that are used alike, with rings that are used alike, have the same
voices, and both sides of a channel are in step. A sample is what the voices of its side hold at its
clock: each voice holds the amplitude of the last step at that clock or before, or what it brought
from the frame before if there is no such step. -/
theorem samples_independent_of_rate (rate₁ rate₂ : Nat) (ring : SoundRing) (ops : List SynthOp) :
    let a := run (ofRate rate₁, ring) ops
    let b := run (ofRate rate₂, ring) ops
    (∀ side, a.1.voices side = b.1.voices side) ∧ a.2 = b.2 ∧
    (∀ c, ((a.1.voices .left).get c).InStep ((a.1.voices .right).get c)) ∧
    ∀ (side : Side), ∀ i < rate₁ / 60, ∃ k : Fin channelCount → Nat,
      (∀ c, ((a.1.voices side).get c).StepsBefore (Tone.of a.2.current c side)
        (i * 34816 / (rate₁ / 60) + 1) (k c)) ∧
      (a.1.render a.2).1.samples[2 * i + side.place]? =
        some (∑ c, (((a.1.voices side).get c).steps (Tone.of a.2.current c side) (k c)).amp) := by
  intro a b
  have alike : Alike a b := (alike_ofRate rate₁ rate₂ ring).run ops
  have inRange : a.1.InRange :=
    run_preserves (fun _ q inRange => inRange.render q) (inRange_ofRate rate₁) ops
  have together : a.1.SidesInStep :=
    run_preserves (fun _ q together => together.render q) (fun c => ⟨rfl, rfl⟩) ops
  have rate_eq : a.1.sampleRate = rate₁ :=
    run_preserves (p := fun s => s.sampleRate = rate₁) (fun _ _ same => same) rfl ops
  refine ⟨alike.voices, alike.ring, together, ?_⟩
  intro side i inside
  have sampled :=
    inRange.getElem?_samples a.2 side (rate_eq ▸ inside : i < frameSamples a.1.sampleRate)
  rw [rate_eq] at sampled
  -- each voice has its own number of steps
  choose k _ counted reached using fun c => Voice.stepsBefore_runUntil ((a.1.voices side).get c)
    (Tone.of a.2.current c side) (i * 34816 / (rate₁ / 60) + 1)
  refine ⟨k, counted, sampled.trans (congrArg some ?_)⟩
  exact Finset.sum_congr rfl fun c _ => congrArg Voice.amp (reached c)

end Synth

end FantasyConsole
