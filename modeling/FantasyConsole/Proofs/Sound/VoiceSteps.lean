import FantasyConsole.Sound.Synth

/-!
# Steps of a voice

A voice steps at clocks that its tone alone decides. To run it until a clock is to take every step
before that clock, so running it in one go or with stops in between comes to the same. Both sides of
a channel step alike: their volumes tell only in the amplitude.
-/

namespace FantasyConsole

namespace Synth

/-- The voice after `k` steps. -/
def Voice.steps (v : Voice) (t : Tone) : Nat → Voice
  | 0 => v
  | k + 1 => (v.steps t k).step t

/-- Whether a voice takes exactly `k` steps before a clock; its `i`-th step is at the time that it
has after `i` steps. -/
structure Voice.StepsBefore (v : Voice) (t : Tone) (clock k : Nat) : Prop where
  before : ∀ i < k, (v.steps t i).time < clock
  after : clock ≤ (v.steps t k).time

theorem Tone.minPeriod_le (t : Tone) : 10 ≤ t.period := minPeriod_le_period _

theorem Tone.period_le (t : Tone) : t.period ≤ 4096 := period_le_maxPeriod _

theorem Voice.steps_succ' (v : Voice) (t : Tone) (k : Nat) :
    v.steps t (k + 1) = (v.step t).steps t k := by
  induction k with
  | zero => rfl
  | succ k ih => rw [steps, ih, steps]

theorem Voice.time_steps (v : Voice) (t : Tone) (k : Nat) :
    (v.steps t k).time = v.time + k * t.period := by
  induction k with
  | zero => simp [steps]
  | succ k ih =>
    rw [steps, time_step, ih, Nat.succ_mul]
    omega

/-- Steps are taken one after the other, so their number is determined. -/
theorem Voice.StepsBefore.unique {v : Voice} {t : Tone} {clock k l : Nat}
    (first : v.StepsBefore t clock k) (second : v.StepsBefore t clock l) : k = l := by
  rcases Nat.lt_trichotomy k l with less | same | more
  · exact absurd (second.before k less) (Nat.not_lt.mpr first.after)
  · exact same
  · exact absurd (first.before l more) (Nat.not_lt.mpr second.after)

/-! ### Running a voice -/

theorem Voice.runUntil_of_lt {v : Voice} {t : Tone} {clock : Nat} (early : v.time < clock) :
    v.runUntil t clock = (v.step t).runUntil t clock := by
  rw [runUntil, if_pos early]

theorem Voice.runUntil_of_le {v : Voice} {t : Tone} {clock : Nat} (late : clock ≤ v.time) :
    v.runUntil t clock = v := by
  rw [runUntil, if_neg (Nat.not_lt.mpr late)]

/-- The loop ends, and what it has done is to take the steps before the clock. -/
theorem Voice.stepsBefore_runUntil (v : Voice) (t : Tone) (clock : Nat) :
    ∃ k ≤ clock / minPeriod + 1, v.StepsBefore t clock k ∧ v.runUntil t clock = v.steps t k := by
  obtain ⟨k, counted, reached⟩ :
      ∃ k, v.StepsBefore t clock k ∧ v.runUntil t clock = v.steps t k := by
    induction v using runUntil.induct t clock with
    | case1 v early ih =>
      obtain ⟨k, counted, reached⟩ := ih
      refine ⟨k + 1, ⟨?_, ?_⟩, ?_⟩
      · intro i bound
        cases i with
        | zero => exact early
        | succ i =>
          rw [steps_succ']
          exact counted.before i (Nat.lt_of_succ_lt_succ bound)
      · rw [steps_succ']
        exact counted.after
      · rw [runUntil_of_lt early, steps_succ', reached]
    | case2 v late =>
      exact ⟨0, ⟨fun i none => absurd none (Nat.not_lt_zero i), Nat.le_of_not_lt late⟩,
        runUntil_of_le (Nat.le_of_not_lt late)⟩
  refine ⟨k, ?_, counted, reached⟩
  cases k with
  | zero => exact Nat.zero_le _
  | succ k =>
    -- the last step is before the clock, and no two steps are closer than the shortest period
    have last := counted.before k (Nat.lt_succ_self k)
    have apart : k * 10 ≤ k * t.period := Nat.mul_le_mul_left k t.minPeriod_le
    rw [time_steps] at last
    simp only [minPeriod]
    omega

/-- A stop on the way is not noticed. -/
theorem Voice.runUntil_runUntil (v : Voice) (t : Tone) {a b : Nat} (le : a ≤ b) :
    (v.runUntil t a).runUntil t b = v.runUntil t b := by
  induction v using runUntil.induct t a with
  | case1 v early ih =>
    rw [runUntil_of_lt early, ih, ← runUntil_of_lt (Nat.lt_of_lt_of_le early le)]
  | case2 v late => rw [runUntil_of_le (Nat.le_of_not_lt late)]

/-- A voice comes past the clock by less than the longest period. -/
theorem Voice.time_runUntil_lt {v : Voice} (t : Tone) {clock : Nat}
    (near : v.time < clock + 4096) : (v.runUntil t clock).time < clock + 4096 := by
  induction v using runUntil.induct t clock with
  | case1 v early ih =>
    rw [runUntil_of_lt early]
    have moved := v.time_step t
    have bound := t.period_le
    exact ih (by omega)
  | case2 v late =>
    rw [runUntil_of_le (Nat.le_of_not_lt late)]
    exact near

/-- What every step keeps holds of a voice that has run. -/
theorem Voice.runUntil_preserves {p : Voice → Prop} {t : Tone} (kept : ∀ v, p v → p (v.step t))
    {v : Voice} (holds : p v) (clock : Nat) : p (v.runUntil t clock) := by
  induction v using runUntil.induct t clock with
  | case1 v early ih =>
    rw [runUntil_of_lt early]
    exact ih (kept v holds)
  | case2 v late =>
    rw [runUntil_of_le (Nat.le_of_not_lt late)]
    exact holds

/-- What every step brings about holds of a voice that has run past its time. -/
theorem Voice.runUntil_brings {p : Voice → Prop} {t : Tone}
    (brought : ∀ v : Voice, p (v.step t)) {v : Voice} {clock : Nat} (early : v.time < clock) :
    p (v.runUntil t clock) := by
  rw [runUntil_of_lt early]
  exact runUntil_preserves (fun v _ => brought v) (brought v) clock

/-! ### Both sides of a channel -/

/-- Two tones that step alike, whatever their volumes are. -/
structure Tone.StepsLike (t u : Tone) : Prop where
  frequency : t.frequency = u.frequency
  noise : t.noise = u.noise
  feedback : t.feedback = u.feedback

/-- Two voices that differ in the amplitude at most. -/
structure Voice.InStep (v w : Voice) : Prop where
  time : v.time = w.time
  phase : v.phase = w.phase

theorem Tone.stepsLike_of (f : RegisterFrame) (c : Fin channelCount) (a b : Side) :
    (Tone.of f c a).StepsLike (Tone.of f c b) := ⟨rfl, rfl, rfl⟩

theorem Voice.InStep.step {v w : Voice} (together : v.InStep w) {t u : Tone}
    (alike : t.StepsLike u) : (v.step t).InStep (w.step u) := by
  have period : t.period = u.period := by
    unfold Tone.period
    rw [alike.noise, alike.frequency]
  constructor
  · rw [time_step, time_step, together.time, period]
  · unfold Voice.step
    rw [alike.noise, alike.feedback, together.phase]
    split <;> rfl

theorem Voice.InStep.runUntil {v w : Voice} (together : v.InStep w) {t u : Tone}
    (alike : t.StepsLike u) (clock : Nat) : (v.runUntil t clock).InStep (w.runUntil u clock) := by
  induction v using Voice.runUntil.induct t clock generalizing w with
  | case1 v early ih =>
    have other : w.time < clock := together.time ▸ early
    rw [runUntil_of_lt early, runUntil_of_lt other]
    exact ih (together.step alike)
  | case2 v late =>
    have other : clock ≤ w.time := together.time ▸ Nat.le_of_not_lt late
    rw [runUntil_of_le (Nat.le_of_not_lt late), runUntil_of_le other]
    exact together

end Synth

end FantasyConsole
