import FantasyConsole.Draw.Line
import FantasyConsole.Proofs.Draw.RoundedSteps
import Mathlib.Data.List.Range

/-!
# The pixels of a line

The loop of the walk has no counter: it goes on until the walk stands at the end of the segment. Its
two axes move independently, so a walk that has passed the end on one of them would never stop.

## Main result

`Segment.walk_exact`: the loop ends, with one pixel more than there are steps. The pixel after `k`
steps lies `k` steps along the longer axis, and along the other as many as the ideal line rounds to.

## Proof strategy

On an axis of extent `a` the walk has moved by `drift n a k` after `k` of `n` steps. The error term
is determined by the two drifts (`walkAfter`), and its comparisons in the loop are the conditions
under which they grow (`walkNext_walkAfter`).
-/

namespace FantasyConsole

/-- Whether an integer is a 32-bit number. -/
def FitsInt32 (n : Int) : Prop := minInt32 ≤ n ∧ n ≤ maxInt32

theorem wrap32_ite {c : Prop} [Decidable c] {a b : Int} (fits : FitsInt32 (if c then a else b)) :
    (if c then wrap32 a else b) = if c then a else b := by
  split
  case isTrue holds =>
    rw [if_pos holds] at fits
    exact wrap32_eq_self fits.1 fits.2
  case isFalse => rfl

def Point.Fits (p : Point) : Prop := FitsInt32 p.x ∧ FitsInt32 p.y

/-- Whether a pixel is one of the eight around another. -/
def Point.Adjacent (p q : Point) : Prop :=
  p ≠ q ∧ (q.x - p.x).natAbs ≤ 1 ∧ (q.y - p.y).natAbs ≤ 1

namespace Segment

/-! ### The walk in closed form -/

/-- The number of steps along the first axis. -/
abbrev width (s : Segment) : Nat := (s.stop.x - s.start.x).natAbs

/-- The number of steps along the second axis. -/
abbrev height (s : Segment) : Nat := (s.stop.y - s.start.y).natAbs

theorem steps_eq (s : Segment) : s.steps = max s.width s.height := rfl

/-- Where the walk stands after `k` steps. -/
def placeAfter (s : Segment) (k : Nat) : Point where
  x := axisAfter s.start.x s.stop.x s.steps k
  y := axisAfter s.start.y s.stop.y s.steps k

/-- The walk after `k` steps. The error term weighs the two drifts against each other. -/
def walkAfter (s : Segment) (k : Nat) : Walk where
  place := s.placeAfter k
  error := (drift s.steps s.height k + 1) * s.width - (drift s.steps s.width k + 1) * s.height

theorem walkAfter_zero (s : Segment) : s.walkAfter 0 = s.walkStart := by
  simp only [walkAfter, placeAfter, axisAfter_zero, drift_zero, walkStart, width, height]
  congr 1
  ring

theorem drift_width_succ (s : Segment) (positive : 0 < s.steps) (k : Nat) :
    drift s.steps s.width (k + 1) = drift s.steps s.width k +
      if (2 * drift s.steps s.width k + 1) * s.height ≤ 2 * (drift s.steps s.height k + 1) * s.width
      then 1 else 0 :=
  drift_succ positive k

theorem drift_height_succ (s : Segment) (positive : 0 < s.steps) (k : Nat) :
    drift s.steps s.height (k + 1) = drift s.steps s.height k +
      if (2 * drift s.steps s.height k + 1) * s.width ≤ 2 * (drift s.steps s.width k + 1) * s.height
      then 1 else 0 := by
  rw [steps_eq, Nat.max_comm] at positive ⊢
  exact drift_succ positive k

/-- What a step does to the drifts, it does to the walk. -/
theorem walkNext_walkAfter (s : Segment) (k : Nat) (positive : 0 < s.steps) :
    s.walkNext (s.walkAfter k) = s.walkAfter (k + 1) := by
  have growsX := s.drift_width_succ positive k
  have growsY := s.drift_height_succ positive k
  set p := drift s.steps s.width k with hp
  set q := drift s.steps s.height k with hq
  -- the comparisons of the error term are those of the drifts
  have alongX : -(s.height : Int) ≤ 2 * ((q + 1) * s.width - (p + 1) * s.height) ↔
      (2 * p + 1) * s.height ≤ 2 * (q + 1) * s.width := by
    zify
    constructor <;> intro <;> linarith
  have alongY : 2 * (((q : Int) + 1) * s.width - (p + 1) * s.height) ≤ s.width ↔
      (2 * q + 1) * s.width ≤ 2 * (p + 1) * s.height := by
    zify
    constructor <;> intro <;> linarith
  have nextX := axisAfter_succ growsX
  have nextY := axisAfter_succ growsY
  simp only [walkNext, walkAfter, placeAfter, nextX, nextY, growsX, growsY, alongX, alongY, ← hp,
    ← hq]
  congr 1
  split_ifs <;> push_cast <;> ring

theorem placeAfter_steps (s : Segment) : s.placeAfter s.steps = s.stop := by
  have x : axisAfter s.start.x s.stop.x s.steps s.steps = s.stop.x :=
    axisAfter_last (Nat.le_max_left _ _)
  have y : axisAfter s.start.y s.stop.y s.steps s.steps = s.stop.y :=
    axisAfter_last (Nat.le_max_right _ _)
  rw [placeAfter, x, y]

/-- The walk never stands in the same place twice. -/
theorem placeAfter_inj (s : Segment) {j k : Nat} (lower : j ≤ s.steps) (upper : k ≤ s.steps)
    (same : s.placeAfter j = s.placeAfter k) : j = k := by
  -- the longer axis tells the steps apart
  rcases Nat.le_total s.width s.height with shorter | longer
  · have extent : s.height = s.steps := (Nat.max_eq_right shorter).symm
    exact axisAfter_inj extent lower upper (congrArg Point.y same)
  · have extent : s.width = s.steps := (Nat.max_eq_left longer).symm
    exact axisAfter_inj extent lower upper (congrArg Point.x same)

theorem placeAfter_ne_stop (s : Segment) {k : Nat} (early : k < s.steps) :
    s.placeAfter k ≠ s.stop := by
  intro arrived
  rw [← s.placeAfter_steps] at arrived
  exact absurd (s.placeAfter_inj early.le (Nat.le_refl _) arrived) early.ne

theorem adjacent_placeAfter (s : Segment) {k : Nat} (early : k < s.steps) :
    (s.placeAfter k).Adjacent (s.placeAfter (k + 1)) := by
  have positive : 0 < s.steps := Nat.zero_lt_of_lt early
  refine ⟨?_, axisAfter_adjacent (s.drift_width_succ positive k),
    axisAfter_adjacent (s.drift_height_succ positive k)⟩
  intro same
  exact absurd (s.placeAfter_inj early.le early same) (Nat.ne_of_lt (Nat.lt_succ_self k))

/-! ### The loop -/

/-- The loop of the walk, which nothing bounds: it puts a pixel, stops at the end of the segment and
takes a step otherwise. `Runs next stop w ps` says that the loop ends when it is started at `w`, and
that it has put the pixels `ps`. -/
inductive Runs (next : Walk → Walk) (stop : Point) : Walk → List Point → Prop where
  | stop {w : Walk} (arrived : w.place = stop) : Runs next stop w [w.place]
  | step {w : Walk} {ps : List Point} (going : w.place ≠ stop) (rest : Runs next stop (next w) ps) :
      Runs next stop w (w.place :: ps)

theorem Runs.unique {next : Walk → Walk} {stop : Point} {w : Walk} {ps qs : List Point}
    (one : Runs next stop w ps) (other : Runs next stop w qs) : ps = qs := by
  induction one generalizing qs with
  | stop arrived =>
    cases other with
    | stop => rfl
    | step going => exact absurd arrived going
  | step going _ ih =>
    cases other with
    | stop arrived => exact absurd arrived going
    | step _ rest => rw [ih rest]

/-- A loop whose steps are those of the walk puts the pixels of the line. -/
theorem runs_of_steps (s : Segment) {next : Walk → Walk}
    (steps : ∀ k < s.steps, next (s.walkAfter k) = s.walkAfter (k + 1)) {k n : Nat}
    (rest : k + n = s.steps) :
    Runs next s.stop (s.walkAfter k) ((List.range' k (n + 1)).map s.placeAfter) := by
  -- on the number of steps that remain
  induction n generalizing k with
  | zero =>
    refine Runs.stop ?_
    rw [← s.placeAfter_steps, ← rest, Nat.add_zero]
    rfl
  | succ n ih =>
    refine Runs.step (s.placeAfter_ne_stop (by omega)) ?_
    rw [steps k (by omega)]
    exact ih (by omega)

theorem Runs.length_pos {next : Walk → Walk} {stop : Point} {w : Walk} {ps : List Point}
    (run : Runs next stop w ps) : 0 < ps.length := by
  cases run <;> exact Nat.succ_pos _

/-- If the loop ends, the bounded loop puts the same pixels under any bound that leaves room for
them. -/
theorem Runs.walkFrom_eq {s : Segment} {w : Walk} {ps : List Point}
    (run : Runs s.walkNext s.stop w ps) {bound : Nat} (enough : ps.length ≤ bound + 1) :
    s.walkFrom bound w = ps := by
  induction run generalizing bound with
  | stop arrived =>
    cases bound with
    | zero => rfl
    | succ bound => rw [walkFrom, if_pos arrived]
  | step going rest ih =>
    have more := rest.length_pos
    rw [List.length_cons] at enough
    obtain ⟨bound, rfl⟩ := Nat.exists_eq_succ_of_ne_zero (show bound ≠ 0 by omega)
    rw [walkFrom, if_neg going, ih (by omega)]

/-! ### The pixels of a line -/

theorem points_eq (s : Segment) : s.points = (List.range (s.steps + 1)).map s.placeAfter := by
  have run := s.runs_of_steps (fun k early => s.walkNext_walkAfter k (Nat.zero_lt_of_lt early))
    (Nat.zero_add s.steps)
  rw [points, ← s.walkAfter_zero, List.range_eq_range']
  exact run.walkFrom_eq (by rw [List.length_map, List.length_range'])

theorem getElem?_points (s : Segment) {k : Nat} (early : k ≤ s.steps) :
    s.points[k]? = some (s.placeAfter k) := by
  rw [points_eq, List.getElem?_map, List.getElem?_range (Nat.lt_succ_of_le early), Option.map_some]

theorem isChain_points (s : Segment) : s.points.IsChain Point.Adjacent := by
  rw [points_eq, List.isChain_map, List.isChain_range_succ]
  exact fun k early => s.adjacent_placeAfter early

theorem runs_iff (s : Segment) {next : Walk → Walk}
    (steps : ∀ k < s.steps, next (s.walkAfter k) = s.walkAfter (k + 1)) (ps : List Point) :
    Runs next s.stop s.walkStart ps ↔ ps = s.points := by
  have ends : Runs next s.stop s.walkStart s.points := by
    rw [points_eq, ← s.walkAfter_zero, List.range_eq_range']
    exact s.runs_of_steps steps (Nat.zero_add _)
  constructor
  · exact fun run => run.unique ends
  · rintro rfl
    exact ends

/-! ### The walk in 32 bits -/

/-- The extent of the first axis, as the loop computes it. -/
def dx32 (s : Segment) : Int := wrap32 (wrap32 (s.stop.x - s.start.x)).natAbs

/-- The extent of the second axis, negated. -/
def dy32 (s : Segment) : Int := wrap32 (-wrap32 (wrap32 (s.stop.y - s.start.y)).natAbs)

/-- The start of the walk where every sum and product wraps. -/
def walkStart32 (s : Segment) : Walk where
  place := s.start
  error := wrap32 (s.dx32 + s.dy32)

/-- One step of the walk where every sum and product wraps. -/
def walkNext32 (s : Segment) (w : Walk) : Walk :=
  let alongX := s.dy32 ≤ wrap32 (2 * w.error)
  let alongY := wrap32 (2 * w.error) ≤ s.dx32
  let error := if alongX then wrap32 (w.error + s.dy32) else w.error
  { place :=
      { x := if alongX then wrap32 (w.place.x + (wrap32 (s.stop.x - s.start.x)).sign) else w.place.x
        y := if alongY then wrap32 (w.place.y + (wrap32 (s.stop.y - s.start.y)).sign)
          else w.place.y }
    error := if alongY then wrap32 (error + s.dx32) else error }

/-- The ends are 32-bit numbers, and so is three times the number of steps. -/
structure Small (s : Segment) : Prop where
  start : s.start.Fits
  stop : s.stop.Fits
  steps : 3 * s.steps ≤ maxInt32

/-- Segments between two pixels of the screen are small. -/
theorem small_of_onScreen {s : Segment} (start : Clip.full.Contains s.start.x s.start.y)
    (stop : Clip.full.Contains s.stop.x s.stop.y) : s.Small := by
  simp only [Clip.Contains, Clip.full, Screen.width, Screen.height] at start stop
  refine ⟨?_, ?_, ?_⟩
  · simp only [Point.Fits, FitsInt32, minInt32, maxInt32]
    omega
  · simp only [Point.Fits, FitsInt32, minInt32, maxInt32]
    omega
  · simp only [steps, maxInt32]
    omega

namespace Small

variable {s : Segment} (small : s.Small)
include small

/-- Numbers of the size of three times the number of steps do not wrap. -/
theorem wrap32_eq {n : Int} (lower : -(3 * (s.steps : Int)) ≤ n) (upper : n ≤ 3 * s.steps) :
    wrap32 n = n := by
  have steps := small.steps
  apply wrap32_eq_self <;> simp only [minInt32, maxInt32] at * <;> omega

theorem fits_placeAfter {k : Nat} (positive : 0 < s.steps) (early : k ≤ s.steps) :
    (s.placeAfter k).Fits := by
  obtain ⟨startX, startY⟩ := small.start
  obtain ⟨stopX, stopY⟩ := small.stop
  have x := axisAfter_mem s.start.x s.stop.x positive early
  have y := axisAfter_mem s.start.y s.stop.y positive early
  simp only [Point.Fits, FitsInt32, placeAfter] at *
  omega

theorem wrap32_spans : wrap32 (s.stop.x - s.start.x) = s.stop.x - s.start.x ∧
    wrap32 (s.stop.y - s.start.y) = s.stop.y - s.start.y := by
  have columns : s.width ≤ s.steps := Nat.le_max_left _ _
  have rows : s.height ≤ s.steps := Nat.le_max_right _ _
  rw [width] at columns
  rw [height] at rows
  exact ⟨small.wrap32_eq (by omega) (by omega), small.wrap32_eq (by omega) (by omega)⟩

theorem dx32_eq : s.dx32 = s.width := by
  have columns : s.width ≤ s.steps := Nat.le_max_left _ _
  have width : wrap32 s.width = s.width := small.wrap32_eq (by omega) (by omega)
  rw [dx32, small.wrap32_spans.1, width]

theorem dy32_eq : s.dy32 = -(s.height : Int) := by
  have rows : s.height ≤ s.steps := Nat.le_max_right _ _
  have height : wrap32 s.height = s.height := small.wrap32_eq (by omega) (by omega)
  rw [dy32, small.wrap32_spans.2, height]
  exact small.wrap32_eq (by omega) (by omega)

theorem walkStart32_eq : s.walkStart32 = s.walkStart := by
  have columns : s.width ≤ s.steps := Nat.le_max_left _ _
  have rows : s.height ≤ s.steps := Nat.le_max_right _ _
  rw [walkStart32, small.dx32_eq, small.dy32_eq, small.wrap32_eq (by omega) (by omega)]
  rfl

theorem walkNext32_eq {w : Walk} (error : |2 * w.error| ≤ 3 * s.steps)
    (next : (s.walkNext w).place.Fits) : s.walkNext32 w = s.walkNext w := by
  have columns : s.width ≤ s.steps := Nat.le_max_left _ _
  have rows : s.height ≤ s.steps := Nat.le_max_right _ _
  obtain ⟨lower, upper⟩ := abs_le.mp error
  obtain ⟨x, y⟩ := small.wrap32_spans
  have twice := small.wrap32_eq lower upper
  obtain ⟨nextX, nextY⟩ := next
  simp only [walkNext] at nextX nextY ⊢
  simp only [walkNext32, x, y, small.dx32_eq, small.dy32_eq, twice]
  rw [wrap32_ite nextX, wrap32_ite nextY]
  congr 1
  -- the two sums one after the other, as each of them wraps for itself
  by_cases alongX : -(s.height : Int) ≤ 2 * w.error
  · have sum := small.wrap32_eq (n := w.error + -s.height) (by omega) (by omega)
    simp only [if_pos alongX, sum]
    split
    case isTrue alongY => exact small.wrap32_eq (by omega) (by omega)
    case isFalse => ring
  · simp only [if_neg alongX]
    split
    case isTrue alongY =>
      rw [small.wrap32_eq (by omega) (by omega)]
      ring
    case isFalse => ring

theorem walkNext32_walkAfter {k : Nat} (early : k < s.steps) :
    s.walkNext32 (s.walkAfter k) = s.walkAfter (k + 1) := by
  have positive : 0 < s.steps := Nat.zero_lt_of_lt early
  have next := s.walkNext_walkAfter k positive
  rw [← next]
  -- the error term is small all along, and the walk stays between the ends
  refine small.walkNext32_eq (abs_drift_sub_le s.width s.height k) ?_
  rw [next]
  exact small.fits_placeAfter positive early

end Small

/-! ### Main theorem -/

/-- The loop of the walk ends and puts the pixels of the line: one more than there are steps, the
last of them at the end of the segment. In 32 bits it does the same for a segment that is small
enough. The pixel after `k` steps lies `k` steps along the longer axis and
`(2 * k * m + n) / (2 * n)` along the other, for `n` steps of which the shorter axis has `m`; on each
axis it is at most half a pixel away from the ideal line. Consecutive pixels are adjacent. -/
theorem walk_exact (s : Segment) :
    (∀ ps, Runs s.walkNext s.stop s.walkStart ps ↔ ps = s.points) ∧
    (s.Small → ∀ ps, Runs s.walkNext32 s.stop s.walkStart32 ps ↔ ps = s.points) ∧
    s.points.length = s.steps + 1 ∧ s.points.getLast? = some s.stop ∧
    (∀ k ≤ s.steps, ∃ p, s.points[k]? = some p ∧
      (s.height ≤ s.width → p.x = s.start.x + (s.stop.x - s.start.x).sign * k ∧
        p.y = s.start.y + (s.stop.y - s.start.y).sign *
          ((2 * k * s.height + s.steps) / (2 * s.steps) : Nat)) ∧
      (s.width ≤ s.height → p.y = s.start.y + (s.stop.y - s.start.y).sign * k ∧
        p.x = s.start.x + (s.stop.x - s.start.x).sign *
          ((2 * k * s.width + s.steps) / (2 * s.steps) : Nat)) ∧
      |(p.x : ℚ) - (s.start.x + k * (s.stop.x - s.start.x) / s.steps)| ≤ 1 / 2 ∧
      |(p.y : ℚ) - (s.start.y + k * (s.stop.y - s.start.y) / s.steps)| ≤ 1 / 2) ∧
    s.points.IsChain Point.Adjacent := by
  have step (k : Nat) (early : k < s.steps) : s.walkNext (s.walkAfter k) = s.walkAfter (k + 1) :=
    s.walkNext_walkAfter k (Nat.zero_lt_of_lt early)
  refine ⟨s.runs_iff step, ?bounded, ?count, ?last, ?places, s.isChain_points⟩
  case bounded =>
    intro small ps
    rw [small.walkStart32_eq]
    exact s.runs_iff (fun k early => small.walkNext32_walkAfter early) ps
  case count => rw [points_eq, List.length_map, List.length_range]
  case last =>
    rw [points_eq, List.range_succ, List.map_append, List.map_singleton, List.getLast?_concat,
      placeAfter_steps]
  case places =>
    intro k early
    refine ⟨s.placeAfter k, s.getElem?_points early, ?wide, ?high, axisAfter_near _ _ _ _,
      axisAfter_near _ _ _ _⟩
    case wide =>
      intro shorter
      have extent : s.width = s.steps := (Nat.max_eq_left shorter).symm
      exact ⟨axisAfter_longest extent early, rfl⟩
    case high =>
      intro shorter
      have extent : s.height = s.steps := (Nat.max_eq_right shorter).symm
      exact ⟨axisAfter_longest extent early, rfl⟩

/-- Five steps along the first axis and two along the second. -/
theorem walk_exact_five_two :
    let s : Segment := ⟨⟨0, 0⟩, ⟨5, 2⟩⟩
    s.Small ∧
    Runs s.walkNext32 s.stop s.walkStart32 [⟨0, 0⟩, ⟨1, 0⟩, ⟨2, 1⟩, ⟨3, 1⟩, ⟨4, 2⟩, ⟨5, 2⟩] ∧
    s.points[4]? = some ⟨4, 2⟩ := by
  intro s
  have small : s.Small := small_of_onScreen (by decide) (by decide)
  obtain ⟨-, loop, -, -, place, -⟩ := walk_exact s
  obtain ⟨p, pixel, wide, -⟩ := place 4 (by decide)
  obtain ⟨x, y⟩ := wide (by decide)
  have reached : p = ⟨4, 2⟩ := congrArg₂ Point.mk x (y.trans (by decide))
  exact ⟨small, (loop small _).mpr (by decide), reached ▸ pixel⟩

end Segment

end FantasyConsole
