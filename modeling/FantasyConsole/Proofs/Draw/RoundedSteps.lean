import Mathlib.Algebra.Order.Field.Rat
import Mathlib.Tactic.Linarith
import Mathlib.Tactic.Ring

/-!
# Rounded steps

Something that has to move by `a` in `n` steps has moved by `k * a / n` after `k` of them. On a grid
it moves by whole pixels, so the quotient is rounded. When two axes share the steps and the longer
one moves with each of them, a comparison of the two rounded quotients says which of them grows next.

## Main results

- `drift_succ`: the comparison that decides whether an axis moves.
- `axisAfter_near`: a rounded place is at most half a pixel away from the exact one.
-/

namespace FantasyConsole

/-! ### Rounded quotients -/

/-- The number of steps along an axis of extent `a` after `k` of `n` steps: `k * a / n`, rounded to
the nearest integer, a half upwards. -/
def drift (n a k : Nat) : Nat := (2 * k * a + n) / (2 * n)

section Drift

variable {n a k : Nat}

theorem drift_zero (n a : Nat) : drift n a 0 = 0 := by
  rw [drift, Nat.mul_zero, Nat.zero_mul, Nat.zero_add]
  rcases Nat.eq_zero_or_pos n with rfl | positive
  · rfl
  · exact Nat.div_eq_of_lt (by omega)

theorem drift_lower (n a k : Nat) : drift n a k * (2 * n) ≤ 2 * k * a + n := Nat.div_mul_le_self _ _

theorem drift_upper (positive : 0 < n) : 2 * k * a + n < (drift n a k + 1) * (2 * n) :=
  Nat.lt_mul_of_div_lt (Nat.lt_succ_self _) (by omega)

theorem drift_eq {d : Nat} (lower : d * (2 * n) ≤ 2 * k * a + n)
    (upper : 2 * k * a + n < (d + 1) * (2 * n)) : drift n a k = d :=
  Nat.div_eq_of_lt_le lower upper

/-- Along the longer axis every step counts. -/
theorem drift_self (positive : 0 < n) (k : Nat) : drift n n k = k :=
  drift_eq (by linarith) (by linarith)

/-- The last step reaches the end. -/
theorem drift_last (positive : 0 < n) (a : Nat) : drift n a n = a :=
  drift_eq (by linarith) (by linarith)

theorem drift_le (positive : 0 < n) (early : k ≤ n) : drift n a k ≤ a := by
  rw [← Nat.lt_succ_iff, drift, Nat.div_lt_iff_lt_mul (by omega)]
  have bound : k * a ≤ n * a := Nat.mul_le_mul_right a early
  linarith

/-- After steps that have led to a pixel of the ideal line the drift starts anew. -/
theorem drift_add {d j : Nat} (positive : 0 < n) (exact : d * n = j * a) (k : Nat) :
    drift n a (j + k) = d + drift n a k := by
  have total : 2 * (j + k) * a + n = 2 * k * a + n + d * (2 * n) := by linarith
  rw [drift, total, Nat.add_mul_div_right _ _ (by omega), Nat.add_comm, drift]

theorem drift_scale {c : Nat} (positive : 0 < c) (n a k : Nat) :
    drift (c * n) (c * a) k = drift n a k := by
  have up : 2 * k * (c * a) + c * n = c * (2 * k * a + n) := by ring
  have down : 2 * (c * n) = c * (2 * n) := by ring
  rw [drift, up, down, Nat.mul_div_mul_left _ _ positive, drift]

/-- The drift depends on the slope alone. -/
theorem drift_congr {n' a' : Nat} (positive : 0 < n) (positive' : 0 < n')
    (slope : a' * n = n' * a) (k : Nat) : drift n' a' k = drift n a k := by
  have scaled := drift_scale positive n' a' k
  rw [Nat.mul_comm n a', slope, Nat.mul_comm n n', drift_scale positive'] at scaled
  exact scaled.symm

/-- The drift along the shorter axis grows when the next step brings the ideal line half a step
further. -/
theorem drift_succ_minor (positive : 0 < n) (shorter : a ≤ n) (k : Nat) :
    drift n a (k + 1) =
      drift n a k + if (2 * drift n a k + 1) * n ≤ 2 * (k + 1) * a then 1 else 0 := by
  have lower := drift_lower n a k
  have upper := drift_upper (a := a) (k := k) positive
  split
  case isTrue grows => exact drift_eq (by linarith) (by linarith)
  case isFalse stays => exact drift_eq (by linarith) (by linarith)

/-- Of two axes with extents `a` and `b`, one of which moves with every step, the first moves next
if its next half step does not come after the next whole step of the other. -/
theorem drift_succ {b : Nat} (positive : 0 < max a b) (k : Nat) :
    drift (max a b) a (k + 1) = drift (max a b) a k +
      if (2 * drift (max a b) a k + 1) * b ≤ 2 * (drift (max a b) b k + 1) * a then 1 else 0 := by
  rcases Nat.le_total a b with shorter | longer
  · -- the other axis moves with every step
    rw [Nat.max_eq_right shorter] at positive ⊢
    rw [drift_self positive, drift_succ_minor positive shorter]
  · rw [Nat.max_eq_left longer] at positive ⊢
    have upper := drift_upper (a := b) (k := k) positive
    rw [drift_self positive, drift_self positive, if_pos (by linarith)]

/-- The two sides of the comparison never differ by more than three times the number of steps. -/
theorem abs_drift_sub_le (a b k : Nat) :
    |2 * (((drift (max a b) b k : Int) + 1) * a - (drift (max a b) a k + 1) * b)| ≤
      3 * max a b := by
  have bounds {n m : Nat} (shorter : m ≤ n) :
      |2 * (((drift n n k : Int) + 1) * m - (drift n m k + 1) * n)| ≤ 3 * n := by
    rcases Nat.eq_zero_or_pos n with rfl | positive
    · simp [Nat.le_zero.mp shorter]
    · have lower := drift_lower n m k
      have upper := drift_upper (a := m) (k := k) positive
      rw [drift_self positive, abs_le]
      zify at lower upper shorter positive
      exact ⟨by linarith, by linarith⟩
  rcases Nat.le_total a b with shorter | shorter
  · have bound := bounds shorter
    rwa [Nat.max_eq_right shorter]
  · -- exchanging the axes turns the sign
    have bound := bounds shorter
    rw [← abs_neg] at bound
    rw [Nat.max_eq_left shorter]
    convert bound using 2
    ring

theorem drift_near (n a k : Nat) : |(drift n a k : ℚ) - k * a / n| ≤ 1 / 2 := by
  rcases Nat.eq_zero_or_pos n with rfl | positive
  · rw [drift, Nat.mul_zero, Nat.div_zero, Nat.cast_zero, div_zero, sub_zero, abs_zero]
    norm_num
  have lower : (drift n a k * (2 * n) : ℚ) ≤ 2 * k * a + n := mod_cast drift_lower n a k
  have upper : (2 * k * a + n : ℚ) < (drift n a k + 1) * (2 * n) := mod_cast drift_upper positive
  have size : (0 : ℚ) < n := mod_cast positive
  rw [abs_le]
  constructor
  · rw [le_sub_iff_add_le, ← le_sub_iff_add_le', div_le_iff₀ size]
    linarith
  · rw [sub_le_iff_le_add, ← sub_le_iff_le_add', le_div_iff₀ size]
    linarith

end Drift

/-! ### One axis of a segment -/

/-- Where the walk stands on an axis after `k` of `n` steps. -/
def axisAfter (start stop : Int) (n k : Nat) : Int :=
  start + (stop - start).sign * drift n (stop - start).natAbs k

section Axis

variable {start stop : Int} {n : Nat}

theorem axisAfter_zero (start stop : Int) (n : Nat) : axisAfter start stop n 0 = start := by
  rw [axisAfter, drift_zero, Int.natCast_zero, Int.mul_zero, Int.add_zero]

/-- A step is taken on the axis when its drift grows. -/
theorem axisAfter_succ {k : Nat} {c : Prop} [Decidable c]
    (grows : drift n (stop - start).natAbs (k + 1) =
      drift n (stop - start).natAbs k + if c then 1 else 0) :
    axisAfter start stop n (k + 1) =
      if c then axisAfter start stop n k + (stop - start).sign else axisAfter start stop n k := by
  simp only [axisAfter, grows]
  split <;> push_cast <;> ring

theorem axisAfter_adjacent {k : Nat} {c : Prop} [Decidable c]
    (grows : drift n (stop - start).natAbs (k + 1) =
      drift n (stop - start).natAbs k + if c then 1 else 0) :
    (axisAfter start stop n (k + 1) - axisAfter start stop n k).natAbs ≤ 1 := by
  rw [axisAfter_succ grows]
  rcases Int.sign_trichotomy (stop - start) with right | same | left <;> split <;> omega

theorem axisAfter_last (extent : (stop - start).natAbs ≤ n) : axisAfter start stop n n = stop := by
  rcases Nat.eq_zero_or_pos n with rfl | positive
  · rw [axisAfter_zero]
    omega
  · rw [axisAfter, drift_last positive, Int.sign_mul_natAbs]
    omega

/-- On the longer axis every step moves the walk by one. -/
theorem axisAfter_longest {k : Nat} (extent : (stop - start).natAbs = n) (early : k ≤ n) :
    axisAfter start stop n k = start + (stop - start).sign * k := by
  rcases Nat.eq_zero_or_pos n with rfl | positive
  · rw [Nat.le_zero.mp early, axisAfter_zero, Int.natCast_zero, Int.mul_zero, Int.add_zero]
  · rw [axisAfter, extent, drift_self positive]

/-- On the longer axis different numbers of steps lead to different places. -/
theorem axisAfter_inj {j k : Nat} (extent : (stop - start).natAbs = n) (lower : j ≤ n)
    (upper : k ≤ n) (same : axisAfter start stop n j = axisAfter start stop n k) : j = k := by
  rw [axisAfter_longest extent lower, axisAfter_longest extent upper] at same
  rcases Int.lt_trichotomy (stop - start) 0 with left | none | right
  · rw [Int.sign_eq_neg_one_of_neg left] at same
    omega
  · omega
  · rw [Int.sign_eq_one_of_pos right] at same
    omega

theorem axisAfter_mem (start stop : Int) {k : Nat} (positive : 0 < n) (early : k ≤ n) :
    min start stop ≤ axisAfter start stop n k ∧ axisAfter start stop n k ≤ max start stop := by
  have bound : drift n (stop - start).natAbs k ≤ (stop - start).natAbs := drift_le positive early
  rw [axisAfter]
  rcases Int.lt_trichotomy (stop - start) 0 with left | same | right
  · rw [Int.sign_eq_neg_one_of_neg left]
    omega
  · rw [same, Int.sign_zero]
    omega
  · rw [Int.sign_eq_one_of_pos right]
    omega

/-- On each axis the walk is at most half a pixel away from the ideal line. -/
theorem axisAfter_near (start stop : Int) (n k : Nat) :
    |(axisAfter start stop n k : ℚ) - (start + k * (stop - start) / n)| ≤ 1 / 2 := by
  have near := drift_near n (stop - start).natAbs k
  have extent : ((stop - start).sign * (stop - start).natAbs : ℚ) = stop - start := by
    have whole := congrArg (fun m : Int => (m : ℚ)) (Int.sign_mul_natAbs (stop - start))
    simpa only [Int.cast_mul, Int.cast_sub, Int.cast_natCast] using whole
  -- the error is that of the drift, in the direction of the axis
  have difference : (axisAfter start stop n k : ℚ) - (start + k * (stop - start) / n) =
      (stop - start).sign * (drift n (stop - start).natAbs k - k * (stop - start).natAbs / n) := by
    rw [axisAfter, ← extent]
    push_cast
    ring
  rw [difference]
  rcases Int.sign_trichotomy (stop - start) with right | same | left
  · rwa [right, Int.cast_one, one_mul]
  · rw [same, Int.cast_zero, zero_mul, abs_zero]
    norm_num
  · rwa [left, Int.cast_neg, Int.cast_one, neg_one_mul, abs_neg]

end Axis

end FantasyConsole
