import FantasyConsole.Proofs.Draw.LineWalk
import Mathlib.Algebra.Order.Round
import Mathlib.Data.Rat.Floor

/-!
# Rounded chords

A part of a line whose ends are rounded to pixels is not quite on the line. A walk from one rounded
end to the other therefore need not meet the pixels of the walk along the whole line. Here the two
walks are compared.

## Main result

`Segment.exists_alongside`: a part that begins and ends on a column or a row of pixels is walked
beside the line, at most one pixel away from it. If its ends are pixels, it is walked as the line is.

## Proof strategy

Let the first axis be the longer one. Both walks are compared with the line. An end of the part is
rounded to the pixel nearest to the line in its column (`round_minor`), so the chord and the line
differ by at most half a pixel at both ends, and hence between them (`Chord.near_line`). The rounding
of each walk adds another half (`axisAfter_near`). A segment whose second axis is the longer one has
its axes exchanged.
-/

namespace FantasyConsole

/-! ### Points between two pixels -/

/-- The coordinate that lies between two others at the ratio `t`. -/
def along (start stop : Int) (t : ℚ) : ℚ := start + t * (stop - start)

/-- Whether a coordinate is that of a column or a row of pixels. -/
def IsWhole (q : ℚ) : Prop := ∃ n : Int, (n : ℚ) = q

section Along

variable {start stop : Int} {s t : ℚ}

theorem along_zero (start stop : Int) : along start stop 0 = start := by
  rw [along, zero_mul, add_zero]

theorem along_one (start stop : Int) : along start stop 1 = stop := by
  rw [along, one_mul, add_sub_cancel]

theorem along_sub (start stop : Int) (s t : ℚ) :
    along start stop s - along start stop t = (s - t) * (stop - start) := by
  rw [along, along]
  ring

theorem along_constant (extent : (stop - start).natAbs = 0) (t : ℚ) :
    along start stop t = start := by
  have same : stop = start := by omega
  rw [along, same, sub_self, mul_zero, add_zero]

/-- On an axis that is not longer, two points are not farther from each other. -/
theorem abs_along_sub_le {start' stop' : Int}
    (shorter : (stop' - start').natAbs ≤ (stop - start).natAbs) (s t : ℚ) :
    |along start' stop' s - along start' stop' t| ≤ |along start stop s - along start stop t| := by
  have extents : |(stop' - start' : ℚ)| ≤ |(stop - start : ℚ)| := by
    have cast : ((stop' - start').natAbs : ℚ) ≤ (stop - start).natAbs := mod_cast shorter
    simpa only [Nat.cast_natAbs, Int.cast_abs, Int.cast_sub] using cast
  rw [along_sub, along_sub, abs_mul, abs_mul]
  exact mul_le_mul_of_nonneg_left extents (abs_nonneg _)

/-- Points in the same column of a line are in the same row, if the rows are not the longer axis. -/
theorem along_congr {start' stop' : Int}
    (shorter : (stop' - start').natAbs ≤ (stop - start).natAbs)
    (same : along start stop s = along start stop t) :
    along start' stop' s = along start' stop' t := by
  have near := abs_along_sub_le shorter s t
  rw [same, sub_self, abs_zero] at near
  exact sub_eq_zero.mp (abs_nonpos_iff.mp near)

/-- On a diagonal both coordinates are whole if one of them is. -/
theorem isWhole_along {start' stop' : Int}
    (diagonal : (stop' - start').natAbs = (stop - start).natAbs)
    (whole : IsWhole (along start stop t)) : IsWhole (along start' stop' t) := by
  obtain ⟨n, place⟩ := whole
  rw [along] at place
  rcases Int.natAbs_eq_natAbs_iff.mp diagonal with equal | opposite
  · have cast : (stop' - start' : ℚ) = stop - start := mod_cast equal
    exact ⟨start' + (n - start), by rw [along, cast]; push_cast; linarith⟩
  · have cast : (stop' - start' : ℚ) = -(stop - start) := mod_cast opposite
    exact ⟨start' - (n - start), by rw [along, cast]; push_cast; linarith⟩

theorem along_mem (start stop : Int) (inside : 0 ≤ t ∧ t ≤ 1) :
    min (start : ℚ) stop ≤ along start stop t ∧ along start stop t ≤ max (start : ℚ) stop := by
  rw [along]
  rcases le_total (start : ℚ) stop with right | left
  · rw [min_eq_left right, max_eq_right right]
    constructor <;> nlinarith
  · rw [min_eq_right left, max_eq_left left]
    constructor <;> nlinarith

end Along

/-! ### The places of a walk and the line -/

section Places

variable {start stop : Int} {n : Nat}

/-- On the longer axis a walk does not leave the line. -/
theorem axisAfter_eq_along {k : Nat} (extent : (stop - start).natAbs = n) (early : k ≤ n) :
    (axisAfter start stop n k : ℚ) = along start stop (k / n) := by
  rw [axisAfter_longest extent early, along]
  rcases Nat.eq_zero_or_pos n with rfl | positive
  · rw [Nat.le_zero.mp early]
    simp only [Nat.cast_zero, mul_zero, add_zero, div_zero, zero_mul]
  · have size : (n : ℚ) ≠ 0 := mod_cast positive.ne'
    have signed : ((stop - start).sign * n : ℚ) = stop - start := by
      have whole := congrArg (fun m : Int => (m : ℚ)) (Int.sign_mul_natAbs (stop - start))
      simpa only [extent, Int.cast_mul, Int.cast_sub, Int.cast_natCast] using whole
    rw [← signed]
    push_cast
    field_simp

theorem axisAfter_near_along (start stop : Int) (n k : Nat) :
    |(axisAfter start stop n k : ℚ) - along start stop (k / n)| ≤ 1 / 2 := by
  have near := axisAfter_near start stop n k
  rwa [along, div_mul_eq_mul_div]

/-- Every column between the ends is reached. -/
theorem exists_axisAfter {u : Int} (extent : (stop - start).natAbs = n) (lower : min start stop ≤ u)
    (upper : u ≤ max start stop) : ∃ k ≤ n, axisAfter start stop n k = u := by
  refine ⟨(u - start).natAbs, by omega, ?_⟩
  rw [axisAfter_longest extent (by omega)]
  rcases Int.lt_trichotomy (stop - start) 0 with left | same | right
  · rw [Int.sign_eq_neg_one_of_neg left]
    omega
  · rw [same, Int.sign_zero]
    omega
  · rw [Int.sign_eq_one_of_pos right]
    omega

theorem natAbs_axisAfter_sub {i j : Nat} (extent : (stop - start).natAbs = n) (order : i ≤ j)
    (last : j ≤ n) : (axisAfter start stop n j - axisAfter start stop n i).natAbs = j - i := by
  rw [axisAfter_longest extent last, axisAfter_longest extent (order.trans last)]
  rcases Int.lt_trichotomy (stop - start) 0 with left | same | right
  · rw [Int.sign_eq_neg_one_of_neg left]
    omega
  · rw [same, Int.sign_zero]
    omega
  · rw [Int.sign_eq_one_of_pos right]
    omega

private theorem sign_of_ratio {x y : Int} {N n : Nat} (positive : 0 < N) (positive' : 0 < n)
    (ratio : x * N = n * y) : x.sign = y.sign := by
  have signs := congrArg Int.sign ratio
  rwa [Int.sign_mul, Int.sign_mul, Int.sign_natCast_of_ne_zero positive.ne',
    Int.sign_natCast_of_ne_zero positive'.ne', mul_one, one_mul] at signs

private theorem eq_sign_mul_of_ratio {x y : Int} {N n : Nat} (positive : 0 < N)
    (ratio : x * N = n * y) : x = y.sign * x.natAbs := by
  rcases Nat.eq_zero_or_pos n with rfl | positive'
  · rw [Nat.cast_zero, zero_mul] at ratio
    have zero : x = 0 := (mul_eq_zero.mp ratio).resolve_right (mod_cast positive.ne')
    rw [zero, Int.natAbs_zero, Nat.cast_zero, mul_zero]
  · rw [← sign_of_ratio positive positive' ratio, Int.sign_mul_natAbs]

private theorem natAbs_of_ratio {x y : Int} {N n : Nat} (ratio : x * N = n * y) :
    x.natAbs * N = n * y.natAbs := by
  have sizes := congrArg Int.natAbs ratio
  rwa [Int.natAbs_mul, Int.natAbs_mul, Int.natAbs_natCast, Int.natAbs_natCast] at sizes

private theorem ratio_of_along {first : Int} {N j : Nat} (positive : 0 < N)
    (exact : (first : ℚ) = along start stop (j / N)) :
    (first - start) * N = j * (stop - start) := by
  have size : (N : ℚ) ≠ 0 := mod_cast positive.ne'
  rw [along, div_mul_eq_mul_div] at exact
  have difference : (first - start : ℚ) = j * (stop - start) / N := by linarith
  rw [eq_div_iff size] at difference
  exact_mod_cast difference

/-- Where the line meets a pixel, so does the walk. From there it goes on as a walk of its own, with
the slope of the line. -/
theorem axisAfter_between {first last : Int} {N j k : Nat}
    (firstExact : (first : ℚ) = along start stop (j / N))
    (lastExact : (last : ℚ) = along start stop ((j + n : Nat) / N)) (early : k ≤ n) :
    axisAfter first last n k = axisAfter start stop N (j + k) := by
  rcases Nat.eq_zero_or_pos N with rfl | positive
  · -- all points of the line are its start
    simp only [Nat.cast_zero, div_zero, along_zero, Int.cast_inj] at firstExact lastExact
    simp only [axisAfter, firstExact, lastExact, sub_self, Int.sign_zero, zero_mul, drift, mul_zero,
      Nat.div_zero, Nat.cast_zero]
  have before := ratio_of_along positive firstExact
  have part : (last - first) * N = n * (stop - start) := by
    have after := ratio_of_along positive lastExact
    push_cast at after
    linarith
  have place : first = start + (stop - start).sign * (first - start).natAbs := by
    have distance := eq_sign_mul_of_ratio positive before
    omega
  rw [axisAfter, axisAfter, drift_add positive (natAbs_of_ratio before), Nat.cast_add, mul_add,
    ← add_assoc, ← place]
  rcases Nat.eq_zero_or_pos n with rfl | positive'
  · rw [Nat.le_zero.mp early, drift_zero, drift_zero, Nat.cast_zero, mul_zero, mul_zero]
  · rw [drift_congr positive positive' (natAbs_of_ratio part),
      sign_of_ratio positive positive' part]

end Places

/-! ### Rounding the ends of a part -/

theorem round_mono {x y : ℚ} (le : x ≤ y) : round x ≤ round y := by
  rw [round_eq, round_eq]
  exact Int.floor_le_floor (by linarith)

theorem natAbs_round_sub_le {x y : ℚ} {n : Nat} (near : |x - y| ≤ n) :
    (round x - round y).natAbs ≤ n := by
  obtain ⟨lower, upper⟩ := abs_le.mp near
  have below := round_mono (show y ≤ x + n by linarith)
  have above := round_mono (show x ≤ y + n by linarith)
  rw [round_add_natCast] at below above
  omega

theorem round_eq_of_abs_lt {x : ℚ} {m : Int} (near : |x - m| < 1 / 2) : round x = m := by
  obtain ⟨lower, upper⟩ := abs_lt.mp near
  rw [round_eq_iff]
  exact ⟨by linarith, by linarith⟩

theorem round_along_mem (start stop : Int) {t : ℚ} (inside : 0 ≤ t ∧ t ≤ 1) :
    min start stop ≤ round (along start stop t) ∧ round (along start stop t) ≤ max start stop := by
  obtain ⟨lower, upper⟩ := along_mem start stop inside
  have below := round_mono lower
  have above := round_mono upper
  rw [← Int.cast_min, round_intCast] at below
  rw [← Int.cast_max, round_intCast] at above
  exact ⟨below, above⟩

section Rounding

variable {start stop start' stop' : Int}

/-- A point on a column or a row of pixels is rounded to the pixel nearest to the line in its
column. -/
theorem round_minor {s t : ℚ} (shorter : (stop' - start').natAbs ≤ (stop - start).natAbs)
    (knot : IsWhole (along start stop t) ∨ IsWhole (along start' stop' t))
    (column : along start stop s = round (along start stop t)) :
    round (along start' stop' s) = round (along start' stop' t) := by
  have onColumn (whole : IsWhole (along start stop t)) :
      round (along start' stop' s) = round (along start' stop' t) := by
    obtain ⟨n, place⟩ := whole
    rw [← place, round_intCast, place] at column
    rw [along_congr shorter column]
  rcases knot with whole | whole
  · exact onColumn whole
  rcases Nat.eq_or_lt_of_le shorter with diagonal | slanted
  · exact onColumn (isWhole_along diagonal.symm whole)
  -- the line is not a diagonal, so less than half a pixel is between the two rows
  obtain ⟨m, place⟩ := whole
  have columns : |along start stop s - along start stop t| ≤ 1 / 2 := by
    rw [column, abs_sub_comm]
    exact abs_sub_round _
  have rows : |along start' stop' s - m| < 1 / 2 := by
    rw [place]
    rcases eq_or_ne s t with rfl | moved
    · rw [sub_self, abs_zero]
      norm_num
    · have extents : |(stop' - start' : ℚ)| < |(stop - start : ℚ)| := by
        have cast : ((stop' - start').natAbs : ℚ) < (stop - start).natAbs := mod_cast slanted
        simpa only [Nat.cast_natAbs, Int.cast_abs, Int.cast_sub] using cast
      refine lt_of_lt_of_le ?_ columns
      rw [along_sub, along_sub, abs_mul, abs_mul]
      exact mul_lt_mul_of_pos_left extents (abs_pos.mpr (sub_ne_zero.mpr moved))
  rw [round_eq_of_abs_lt rows, ← place, round_intCast]

/-- Along the longer axis a later point is rounded to a later place of the walk. -/
theorem step_mono {n i j : Nat} {s t : ℚ} (extent : (stop - start).natAbs = n) (order : s ≤ t)
    (early : i ≤ n) (early' : j ≤ n) (place : axisAfter start stop n i = round (along start stop s))
    (place' : axisAfter start stop n j = round (along start stop t)) : i ≤ j := by
  rw [axisAfter_longest extent early] at place
  rw [axisAfter_longest extent early'] at place'
  rcases Int.lt_trichotomy (stop - start) 0 with left | same | right
  · have negative : (stop - start : ℚ) ≤ 0 := by exact_mod_cast left.le
    have rounded := round_mono
      (add_le_add_right (mul_le_mul_of_nonpos_right order negative) (start : ℚ))
    rw [Int.sign_eq_neg_one_of_neg left] at place place'
    simp only [along] at place place'
    omega
  · omega
  · have positive : (0 : ℚ) ≤ stop - start := by exact_mod_cast right.le
    have rounded := round_mono
      (add_le_add_right (mul_le_mul_of_nonneg_right order positive) (start : ℚ))
    rw [Int.sign_eq_one_of_pos right] at place place'
    simp only [along] at place place'
    omega

end Rounding

/-- The pixel with its coordinates exchanged. -/
def Point.swap (p : Point) : Point := ⟨p.y, p.x⟩

namespace Segment

/-! ### Segments whose ends are rounded -/

/-- The first coordinate of the point with a parameter. -/
def columnAt (s : Segment) (t : ℚ) : ℚ := along s.start.x s.stop.x t

/-- The second coordinate of the point with a parameter. -/
def rowAt (s : Segment) (t : ℚ) : ℚ := along s.start.y s.stop.y t

/-- The pixel nearest to the point with a parameter. -/
def nearest (s : Segment) (t : ℚ) : Point := ⟨round (s.columnAt t), round (s.rowAt t)⟩

/-- A part of the segment, its ends rounded to pixels. -/
def roundedPart (s : Segment) (enter leave : ℚ) : Segment := ⟨s.nearest enter, s.nearest leave⟩

/-- Whether a point lies on a column or on a row of pixels. -/
def OnGrid (s : Segment) (t : ℚ) : Prop := IsWhole (s.columnAt t) ∨ IsWhole (s.rowAt t)

/-- Whether a point is a pixel. -/
def IsPixel (s : Segment) (t : ℚ) : Prop := IsWhole (s.columnAt t) ∧ IsWhole (s.rowAt t)

/-- A wide segment and a part of it whose ends are the pixels nearest to it in the columns that it
reaches after `i` and after `j` steps. -/
structure Chord (s part : Segment) (i j : Nat) : Prop where
  wide : s.height ≤ s.width
  order : i ≤ j
  last : j ≤ s.steps
  startColumn : part.start.x = (s.placeAfter i).x
  stopColumn : part.stop.x = (s.placeAfter j).x
  startRow : part.start.y = round (s.rowAt (i / s.steps))
  stopRow : part.stop.y = round (s.rowAt (j / s.steps))

theorem width_eq_steps {s : Segment} (wide : s.height ≤ s.width) : s.width = s.steps :=
  (Nat.max_eq_left wide).symm

/-- The columns of a wide segment are those of its points. -/
theorem placeAfter_x {s : Segment} (wide : s.height ≤ s.width) {k : Nat} (early : k ≤ s.steps) :
    ((s.placeAfter k).x : ℚ) = s.columnAt (k / s.steps) :=
  axisAfter_eq_along (width_eq_steps wide) early

/-- A rounded pixel is the pixel itself. -/
theorem nearest_y_of_isPixel {s : Segment} (wide : s.height ≤ s.width) {t : ℚ} {k : Nat}
    (early : k ≤ s.steps) (pixel : s.IsPixel t) (column : (s.nearest t).x = (s.placeAfter k).x) :
    ((s.nearest t).y : ℚ) = s.rowAt (k / s.steps) := by
  obtain ⟨⟨x, onColumn⟩, y, onRow⟩ := pixel
  have place := placeAfter_x wide early
  rw [← column, nearest, ← onColumn, round_intCast, onColumn] at place
  have same : s.rowAt t = s.rowAt (k / s.steps) := along_congr wide place
  rw [nearest, ← onRow, round_intCast, onRow, same]

theorem exists_chord {s : Segment} {enter leave : ℚ} (wide : s.height ≤ s.width) (first : 0 ≤ enter)
    (order : enter ≤ leave) (last : leave ≤ 1) (onGrid : s.OnGrid enter) (onGrid' : s.OnGrid leave) :
    ∃ i j, s.Chord (s.roundedPart enter leave) i j ∧
      ∀ k ≤ s.steps, enter ≤ k / s.steps → (k / s.steps : ℚ) ≤ leave → i ≤ k ∧ k ≤ j := by
  have extent := width_eq_steps wide
  -- each of the rounded ends lies in a column of the walk
  have reached {t : ℚ} (inside : 0 ≤ t ∧ t ≤ 1) :
      ∃ k ≤ s.steps, axisAfter s.start.x s.stop.x s.steps k = round (s.columnAt t) := by
    obtain ⟨lower, upper⟩ := round_along_mem s.start.x s.stop.x inside
    exact exists_axisAfter extent lower upper
  have row {t : ℚ} {k : Nat} (onGrid : s.OnGrid t) (early : k ≤ s.steps)
      (column : axisAfter s.start.x s.stop.x s.steps k = round (s.columnAt t)) :
      round (s.rowAt t) = round (s.rowAt (k / s.steps)) := by
    have place := axisAfter_eq_along extent early
    rw [column] at place
    exact (round_minor wide onGrid place.symm).symm
  obtain ⟨i, early, startColumn⟩ := reached ⟨first, order.trans last⟩
  obtain ⟨j, early', stopColumn⟩ := reached ⟨first.trans order, last⟩
  refine ⟨i, j, ⟨wide, ?_, early', startColumn.symm, stopColumn.symm, row onGrid early startColumn,
    row onGrid' early' stopColumn⟩, ?_⟩
  · exact step_mono extent order early early' startColumn stopColumn
  · intro k within after before
    have column : axisAfter s.start.x s.stop.x s.steps k = round (s.columnAt (k / s.steps)) := by
      rw [← placeAfter_x wide within, round_intCast]
      rfl
    exact ⟨step_mono extent after early within startColumn column,
      step_mono extent before within early' column stopColumn⟩

namespace Chord

variable {s part : Segment} {i j : Nat} (chord : s.Chord part i j)
include chord

theorem width_eq : part.width = j - i := by
  rw [width, chord.startColumn, chord.stopColumn]
  exact natAbs_axisAfter_sub (width_eq_steps chord.wide) chord.order chord.last

theorem height_le : part.height ≤ j - i := by
  rw [height, chord.startRow, chord.stopRow]
  refine natAbs_round_sub_le ((abs_along_sub_le chord.wide _ _).trans (le_of_eq ?_))
  have start := placeAfter_x chord.wide (chord.order.trans chord.last)
  have stop := placeAfter_x chord.wide chord.last
  rw [columnAt, ← chord.startColumn] at start
  rw [columnAt, ← chord.stopColumn] at stop
  rw [← start, ← stop, ← Int.cast_sub, ← Int.cast_abs, ← Nat.cast_natAbs, ← chord.width_eq]

theorem steps_eq : part.steps = j - i := by
  rw [Segment.steps_eq, Nat.max_eq_left (chord.height_le.trans_eq chord.width_eq.symm),
    chord.width_eq]

/-- The part is walked in the columns of the whole, from the `i`-th on. -/
theorem column {k : Nat} (early : k ≤ j - i) :
    (part.placeAfter k).x = (s.placeAfter (i + k)).x := by
  have total : i + (j - i) = j := Nat.add_sub_cancel' chord.order
  rw [placeAfter, chord.steps_eq]
  refine axisAfter_between ?_ ?_ early
  · rw [chord.startColumn]
    exact placeAfter_x chord.wide (chord.order.trans chord.last)
  · rw [chord.stopColumn, total]
    exact placeAfter_x chord.wide chord.last

/-- If the ends of the part lie on the line, the part is walked as the whole is. -/
theorem placeAfter_eq (start : (part.start.y : ℚ) = s.rowAt (i / s.steps))
    (stop : (part.stop.y : ℚ) = s.rowAt (j / s.steps)) {k : Nat} (early : k ≤ j - i) :
    part.placeAfter k = s.placeAfter (i + k) := by
  have total : i + (j - i) = j := Nat.add_sub_cancel' chord.order
  have row : (part.placeAfter k).y = (s.placeAfter (i + k)).y := by
    rw [placeAfter, chord.steps_eq]
    refine axisAfter_between start ?_ early
    rw [total]
    exact stop
  exact congrArg₂ Point.mk (chord.column early) row

theorem placeAfter_eq_of_isPixel {enter leave : ℚ} (rounded : part = s.roundedPart enter leave)
    (pixel : s.IsPixel enter) (pixel' : s.IsPixel leave) {k : Nat} (early : k ≤ j - i) :
    part.placeAfter k = s.placeAfter (i + k) := by
  subst rounded
  have start := nearest_y_of_isPixel chord.wide (chord.order.trans chord.last) pixel
    chord.startColumn
  have stop := nearest_y_of_isPixel chord.wide chord.last pixel' chord.stopColumn
  exact chord.placeAfter_eq start stop early

/-- The chord is at most half a pixel away from the line, as its ends are. -/
theorem near_line {k : Nat} (early : k ≤ j - i) :
    |along part.start.y part.stop.y (k / (j - i : Nat)) - s.rowAt ((i + k : Nat) / s.steps)| ≤
      1 / 2 := by
  have start := abs_sub_round (s.rowAt (i / s.steps))
  have stop := abs_sub_round (s.rowAt (j / s.steps))
  rw [← chord.startRow, abs_sub_comm] at start
  rw [← chord.stopRow, abs_sub_comm] at stop
  obtain ⟨n, rfl⟩ := Nat.exists_eq_add_of_le chord.order
  rw [Nat.add_sub_cancel_left] at early ⊢
  rcases Nat.eq_zero_or_pos n with rfl | positive
  · rw [Nat.le_zero.mp early]
    simpa only [Nat.cast_zero, div_zero, along_zero, Nat.add_zero] using start
  -- what the chord and the line differ by is a mean of what they differ by at the ends
  have size : (0 : ℚ) < n := mod_cast positive
  set x : ℚ := k / n with ratio
  have lower : 0 ≤ x := by positivity
  have upper : x ≤ 1 := (div_le_one size).mpr (mod_cast early)
  have mean : along part.start.y part.stop.y x - s.rowAt ((i + k : Nat) / s.steps) =
      (1 - x) * (part.start.y - s.rowAt (i / s.steps)) +
        x * (part.stop.y - s.rowAt ((i + n : Nat) / s.steps)) := by
    have steps : (k : ℚ) = x * n := (div_mul_cancel₀ _ size.ne').symm
    simp only [rowAt, along]
    push_cast
    rw [steps]
    ring
  rw [mean]
  rw [abs_le] at start stop ⊢
  constructor <;> nlinarith

/-- In a column of the part the two walks are at most a pixel apart. -/
theorem near {k : Nat} (early : k ≤ j - i) :
    ((part.placeAfter k).y - (s.placeAfter (i + k)).y).natAbs ≤ 1 := by
  have rounded := axisAfter_near_along part.start.y part.stop.y part.steps k
  have rounded' := axisAfter_near_along s.start.y s.stop.y s.steps (i + k)
  have chordNear := chord.near_line early
  rw [← chord.steps_eq, rowAt] at chordNear
  have apart : |(((part.placeAfter k).y - (s.placeAfter (i + k)).y : Int) : ℚ)| ≤ 3 / 2 := by
    rw [placeAfter, placeAfter]
    push_cast
    rw [abs_le] at *
    constructor <;> linarith
  have small : (((part.placeAfter k).y - (s.placeAfter (i + k)).y).natAbs : ℚ) < 2 := by
    rw [Nat.cast_natAbs, Int.cast_abs]
    linarith
  exact Nat.lt_succ_iff.mp (mod_cast small)

end Chord

/-! ### Both orders of the axes -/

/-- The segment with its axes exchanged. -/
def swap (s : Segment) : Segment := ⟨s.start.swap, s.stop.swap⟩

theorem steps_swap (s : Segment) : s.swap.steps = s.steps := Nat.max_comm _ _

theorem placeAfter_swap (s : Segment) (k : Nat) : s.swap.placeAfter k = (s.placeAfter k).swap := by
  rw [placeAfter, steps_swap]
  rfl

/-- Two pixels in one column of a wide segment, or in one row of a tall one, at most a pixel
apart. -/
def Beside (s : Segment) (p q : Point) : Prop :=
  if s.height ≤ s.width then p.x = q.x ∧ (p.y - q.y).natAbs ≤ 1
  else p.y = q.y ∧ (p.x - q.x).natAbs ≤ 1

/-- The pixels of a walk from its step `i` to its step `j`. -/
def stretch (s : Segment) (i j : Nat) : List Point := (s.points.drop i).take (j - i + 1)

theorem stretch_eq {s : Segment} {i j : Nat} (order : i ≤ j) (last : j ≤ s.steps) :
    s.stretch i j = (List.range (j - i + 1)).map fun k => s.placeAfter (i + k) := by
  have total : s.steps + 1 = i + ((j - i + 1) + (s.steps - j)) := by omega
  rw [stretch, points_eq, total, List.range_add, List.map_append, List.drop_left' (by simp),
    List.range_add, List.map_append, List.map_append, List.take_left' (by simp), List.map_map]
  rfl

/-- Two walks are compared step by step. -/
theorem forall₂_points {s part : Segment} {i j : Nat} {R : Point → Point → Prop} (order : i ≤ j)
    (last : j ≤ s.steps) (steps : part.steps = j - i)
    (related : ∀ k ≤ j - i, R (part.placeAfter k) (s.placeAfter (i + k))) :
    List.Forall₂ R part.points (s.stretch i j) := by
  rw [points_eq, steps, stretch_eq order last, List.forall₂_map_left_iff,
    List.forall₂_map_right_iff, List.forall₂_same]
  exact fun k member => related k (Nat.lt_succ_iff.mp (List.mem_range.mp member))

/-- The walk along a part runs beside that along the segment, from its step `i` to its step `j`. -/
structure Alongside (s part : Segment) (i j : Nat) : Prop where
  order : i ≤ j
  last : j ≤ s.steps
  beside : List.Forall₂ s.Beside part.points (s.stretch i j)

/-- The walk between two rounded ends runs beside that along the segment, and meets the same pixels
if the ends are pixels. It takes all the steps whose points lie between the ends. -/
theorem exists_alongside {s : Segment} {enter leave : ℚ} (first : 0 ≤ enter)
    (order : enter ≤ leave) (last : leave ≤ 1) (onGrid : s.OnGrid enter) (onGrid' : s.OnGrid leave) :
    let part := s.roundedPart enter leave
    ∃ i j, s.Alongside part i j ∧
      (s.IsPixel enter → s.IsPixel leave → part.points = s.stretch i j) ∧
      ∀ k ≤ s.steps, enter ≤ k / s.steps → (k / s.steps : ℚ) ≤ leave → i ≤ k ∧ k ≤ j := by
  intro part
  by_cases wide : s.height ≤ s.width
  · obtain ⟨i, j, chord, within⟩ := exists_chord wide first order last onGrid onGrid'
    refine ⟨i, j, ⟨chord.order, chord.last, ?_⟩, ?_, within⟩
    · refine forall₂_points chord.order chord.last chord.steps_eq fun k early => ?_
      rw [Beside, if_pos wide]
      exact ⟨chord.column early, chord.near early⟩
    · intro pixel pixel'
      rw [← List.forall₂_eq_eq_eq]
      exact forall₂_points chord.order chord.last chord.steps_eq fun k early =>
        chord.placeAfter_eq_of_isPixel rfl pixel pixel' early
  · -- a tall segment is a wide one with its axes exchanged
    have wide' : s.swap.height ≤ s.swap.width := Nat.le_of_not_le wide
    obtain ⟨i, j, chord, within⟩ := exists_chord wide' first order last onGrid.symm onGrid'.symm
    have same : s.swap.roundedPart enter leave = part.swap := rfl
    rw [same] at chord
    have last := chord.last
    have steps := chord.steps_eq
    rw [steps_swap] at last steps within
    refine ⟨i, j, ⟨chord.order, last, ?_⟩, ?_, within⟩
    · refine forall₂_points chord.order last steps fun k early => ?_
      have column := chord.column early
      have near := chord.near early
      rw [placeAfter_swap, placeAfter_swap] at column near
      rw [Beside, if_neg wide]
      exact ⟨column, near⟩
    · intro pixel pixel'
      rw [← List.forall₂_eq_eq_eq]
      refine forall₂_points chord.order last steps fun k early => ?_
      have place := chord.placeAfter_eq_of_isPixel same.symm pixel.symm pixel'.symm early
      rw [placeAfter_swap, placeAfter_swap] at place
      exact congrArg Point.swap place

end Segment

end FantasyConsole
