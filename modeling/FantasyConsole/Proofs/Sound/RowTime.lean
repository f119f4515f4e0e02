import FantasyConsole.Proofs.Sound.MusicMemory

/-!
# Rows and ticks

At a tempo and a speed that are positive, the row of a tick and the tick of a row are quotients of
natural numbers, as long as no product leaves 32 bits. Both are rounded down. To go from a row to
its tick and back therefore leads to the row itself only where the row begins with a tick; else it
leads to an earlier one.
-/

namespace FantasyConsole

theorem wrap32_natCast {n : Nat} (bound : (n : Int) ≤ maxInt32) : wrap32 n = n := by
  apply wrap32_eq_self _ bound
  simp only [minInt32]
  omega

namespace Sequencer

/-- The row that is played at a tick. -/
def evenRow (tempo speed tick : Nat) : Nat := tick * tempo / (150 * speed)

/-- The last tick that is not after the beginning of a row. -/
def evenTick (tempo speed row : Nat) : Nat := row * (150 * speed) / tempo

/-- No product wraps, and the quotients collapse into one. -/
theorem rowOfTick_natCast {s : Sequencer} {t : Track} {tempo speed tick : Nat}
    (tempoIs : s.tempoOf t = tempo) (speedIs : s.speedOf t = speed) (moves : 0 < speed)
    (fits : ((tick * tempo * 6 : Nat) : Int) ≤ maxInt32) :
    s.rowOfTick t tick = evenRow tempo speed tick := by
  have first : ((tick * tempo : Nat) : Int) ≤ maxInt32 :=
    Int.le_trans (Int.ofNat_le.mpr (Nat.le_mul_of_pos_right _ (by decide))) fits
  have positive : (speed : Int) ≠ 0 := Int.natCast_ne_zero.mpr (Nat.ne_of_gt moves)
  have quotient : tick * tempo * 6 / speed / 900 = evenRow tempo speed tick := by
    calc tick * tempo * 6 / speed / 900
        = tick * tempo * 6 / (speed * 900) := Nat.div_div_eq_div_mul ..
      _ = tick * tempo * 6 / (150 * speed * 6) := by
        rw [show speed * 900 = 150 * speed * 6 by omega]
      _ = evenRow tempo speed tick := Nat.mul_div_mul_right _ _ (by decide)
  have product : wrap32 (wrap32 ((tick : Int) * tempo) * defaultSpeed) =
      ((tick * tempo * 6 : Nat) : Int) := by
    rw [← Int.natCast_mul, wrap32_natCast first, ← wrap32_natCast fits]
    rw [Int.natCast_mul (tick * tempo) 6]
    rfl
  rw [rowOfTick, tempoIs, speedIs, if_neg positive, product, ← quotient]
  rfl

theorem tickOfRow_natCast {s : Sequencer} {t : Track} {tempo speed row : Nat}
    (tempoIs : s.tempoOf t = tempo) (speedIs : s.speedOf t = speed) (counts : 0 < tempo)
    (fits : ((row * speed * 900 : Nat) : Int) ≤ maxInt32) :
    s.tickOfRow t row = evenTick tempo speed row := by
  have first : ((row * speed : Nat) : Int) ≤ maxInt32 :=
    Int.le_trans (Int.ofNat_le.mpr (Nat.le_mul_of_pos_right _ (by decide))) fits
  have positive : (tempo : Int) ≠ 0 := Int.natCast_ne_zero.mpr (Nat.ne_of_gt counts)
  have quotient : row * speed * 900 / tempo / 6 = evenTick tempo speed row := by
    calc row * speed * 900 / tempo / 6
        = row * speed * 900 / (tempo * 6) := Nat.div_div_eq_div_mul ..
      _ = row * (150 * speed) * 6 / (tempo * 6) := by
        rw [Nat.mul_assoc, Nat.mul_assoc row, show speed * 900 = 150 * speed * 6 by omega]
      _ = evenTick tempo speed row := Nat.mul_div_mul_right _ _ (by decide)
  have product : wrap32 (wrap32 ((row : Int) * speed) * rowsPerMinute) =
      ((row * speed * 900 : Nat) : Int) := by
    rw [← Int.natCast_mul, wrap32_natCast first, ← wrap32_natCast fits]
    rw [Int.natCast_mul (row * speed) 900]
    rfl
  rw [tickOfRow, tempoIs, speedIs, if_neg positive, product, ← quotient]
  rfl

/-! ### From a row to its tick and back -/

variable {tempo speed row : Nat}

theorem evenTick_mul_le (tempo speed row : Nat) :
    evenTick tempo speed row * tempo ≤ row * (150 * speed) :=
  Nat.div_mul_le_self _ _

theorem evenRow_evenTick_le (tempo speed row : Nat) :
    evenRow tempo speed (evenTick tempo speed row) ≤ row := by
  apply Nat.div_le_of_le_mul
  rw [Nat.mul_comm (150 * speed)]
  exact evenTick_mul_le tempo speed row

/-- A row is found again where it begins with a tick. -/
theorem evenRow_evenTick_eq_iff (moves : 0 < speed) :
    evenRow tempo speed (evenTick tempo speed row) = row ↔ tempo ∣ row * (150 * speed) := by
  have below := evenTick_mul_le tempo speed row
  have positive : 0 < 150 * speed := Nat.mul_pos (by decide) moves
  constructor
  · intro same
    have reached : row * (150 * speed) ≤ evenTick tempo speed row * tempo := by
      apply (Nat.le_div_iff_mul_le positive).mp
      exact Nat.le_of_eq same.symm
    refine ⟨evenTick tempo speed row, ?_⟩
    rw [Nat.mul_comm tempo]
    exact Nat.le_antisymm reached below
  · intro whole
    rw [evenRow, evenTick, Nat.div_mul_cancel whole, Nat.mul_div_cancel _ positive]

/-- Where a row lasts for a tick at least, no more than one row is lost. -/
theorem le_evenRow_evenTick (counts : 0 < tempo) (moves : 0 < speed) (slow : tempo ≤ 150 * speed) :
    row ≤ evenRow tempo speed (evenTick tempo speed row) + 1 := by
  have positive : 0 < 150 * speed := Nat.mul_pos (by decide) moves
  have next : row * (150 * speed) < (evenTick tempo speed row + 1) * tempo := by
    rw [Nat.mul_comm _ tempo]
    exact Nat.lt_mul_div_succ _ counts
  cases row with
  | zero => exact Nat.zero_le _
  | succ row =>
    apply Nat.succ_le_succ
    apply (Nat.le_div_iff_mul_le positive).mpr
    rw [Nat.add_mul row, Nat.add_mul _ 1 tempo] at next
    omega

end Sequencer

end FantasyConsole
