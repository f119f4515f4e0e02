import FantasyConsole.Proofs.Draw.RoundedChord

/-!
# The visible part of a segment

A segment is visible where its points lie between the first and the last pixel of the clip on both
axes. Here the cuts at the four edges are computed with fractions, and what remains is compared with
the visible part.

## Main results

- `clip?_eq_none_iff`: nothing remains if and only if no point of the segment is visible.
- `exists_visible`: what remains runs from the first visible point to the last one, each rounded to
  the nearest pixel.

## Proof strategy

One cut leaves the parameters that its edge admits, and moves an end of the range only onto the edge
(`Range.cut_of_cut?`). Cuts at several edges compose (`Range.Cut.andThen`), so the range that
remains is that of all four edges. The edges are columns and rows of pixels, hence an end that was
moved has a whole coordinate.
-/

namespace FantasyConsole

/-- Whether a point of the plane lies between the first and the last pixel of the clip. -/
def Clip.Covers (c : Clip) (x y : ℚ) : Prop :=
  (c.left ≤ x ∧ x ≤ c.right - 1) ∧ (c.top ≤ y ∧ y ≤ c.bottom - 1)

namespace Segment

/-! ### Cutting at one edge -/

/-- Whether a parameter lies in a range. -/
def Range.Contains (range : Range ℚ) (t : ℚ) : Prop := range.enter ≤ t ∧ t ≤ range.leave

/-- Whether the point with a parameter lies on the inner side of an edge. -/
def Edge.Admits (edge : Edge ℚ) (t : ℚ) : Prop := t * edge.p ≤ edge.q

/-- Whether the segment crosses an edge at the point with a parameter. -/
def Edge.Crosses (edge : Edge ℚ) (t : ℚ) : Prop := edge.p ≠ 0 ∧ t * edge.p = edge.q

/-- Whether an end of a range is where it was or lies on one of the edges. -/
def EndMoves (edges : List (Edge ℚ)) (before after : ℚ) : Prop :=
  after = before ∨ ∃ edge ∈ edges, edge.Crosses after

theorem EndMoves.andThen {edge : Edge ℚ} {edges : List (Edge ℚ)} {before between after : ℚ}
    (first : EndMoves [edge] before between) (rest : EndMoves edges between after) :
    EndMoves (edge :: edges) before after := by
  rcases rest with rfl | ⟨other, member, crossed⟩
  · rcases first with kept | ⟨other, member, crossed⟩
    · exact .inl kept
    · exact .inr ⟨other, List.mem_cons.mpr (.inl (List.mem_singleton.mp member)), crossed⟩
  · exact .inr ⟨other, List.mem_cons_of_mem edge member, crossed⟩

/-- The range `cut` is what some edges leave of a range. -/
structure Range.Cut (edges : List (Edge ℚ)) (whole cut : Range ℚ) : Prop where
  nonempty : cut.enter ≤ cut.leave
  contains : ∀ t, cut.Contains t ↔ whole.Contains t ∧ ∀ edge ∈ edges, edge.Admits t
  enter : EndMoves edges whole.enter cut.enter
  leave : EndMoves edges whole.leave cut.leave

namespace Range

variable {whole middle cut : Range ℚ} {edge : Edge ℚ} {edges : List (Edge ℚ)}

theorem cut?_eq (whole : Range ℚ) (edge : Edge ℚ) :
    whole.cut? edge =
      if edge.p = 0 then
        if edge.q < 0 then none else some whole
      else
        let t := edge.q / edge.p
        let cut := if edge.p < 0 then { whole with enter := max whole.enter t }
          else { whole with leave := min t whole.leave }
        if cut.leave < cut.enter then none else some cut := by
  have isZero (a : ℚ) : Coordinate.isZero a = decide (a = 0) := rfl
  have isNegative (a : ℚ) : Coordinate.isNegative a = decide (a < 0) := rfl
  have less (a b : ℚ) : Coordinate.less a b = decide (a < b) := rfl
  simp only [cut?, isZero, isNegative, less, decide_eq_true_eq, max_def_lt, min_def_lt]

private theorem cut_rising (positive : 0 < edge.p)
    (nonempty : whole.enter ≤ min (edge.q / edge.p) whole.leave) :
    Cut [edge] whole { whole with leave := min (edge.q / edge.p) whole.leave } where
  nonempty := nonempty
  contains t := by
    simp only [Contains, List.forall_mem_singleton, Edge.Admits, le_min_iff, le_div_iff₀ positive]
    tauto
  enter := .inl rfl
  leave := by
    rcases min_choice (edge.q / edge.p) whole.leave with moved | kept
    · exact .inr ⟨edge, List.mem_singleton_self edge, positive.ne',
        by simp only [moved, div_mul_cancel₀ _ positive.ne']⟩
    · exact .inl kept

private theorem cut_falling (negative : edge.p < 0)
    (nonempty : max whole.enter (edge.q / edge.p) ≤ whole.leave) :
    Cut [edge] whole { whole with enter := max whole.enter (edge.q / edge.p) } where
  nonempty := nonempty
  contains t := by
    simp only [Contains, List.forall_mem_singleton, Edge.Admits, max_le_iff,
      div_le_iff_of_neg negative]
    tauto
  enter := by
    rcases max_choice whole.enter (edge.q / edge.p) with kept | moved
    · exact .inl kept
    · exact .inr ⟨edge, List.mem_singleton_self edge, negative.ne,
        by simp only [moved, div_mul_cancel₀ _ negative.ne]⟩
  leave := .inl rfl

/-- A segment along an edge is not cut if it lies on the inner side. -/
private theorem cut_along (parallel : edge.p = 0) (inner : 0 ≤ edge.q)
    (nonempty : whole.enter ≤ whole.leave) : Cut [edge] whole whole where
  nonempty := nonempty
  contains t := by
    simp only [List.forall_mem_singleton, Edge.Admits, parallel, mul_zero, inner, and_true]
  enter := .inl rfl
  leave := .inl rfl

theorem cut_of_cut? (nonempty : whole.enter ≤ whole.leave) (left : whole.cut? edge = some cut) :
    Cut [edge] whole cut := by
  rw [cut?_eq] at left
  rcases lt_trichotomy edge.p 0 with negative | parallel | positive
  · simp only [if_neg negative.ne, if_pos negative, Option.ite_none_left_eq_some, not_lt,
      Option.some.injEq] at left
    obtain ⟨remains, rfl⟩ := left
    exact cut_falling negative remains
  · simp only [if_pos parallel, Option.ite_none_left_eq_some, not_lt, Option.some.injEq] at left
    obtain ⟨inner, rfl⟩ := left
    exact cut_along parallel inner nonempty
  · simp only [if_neg positive.ne', if_neg positive.not_gt, Option.ite_none_left_eq_some, not_lt,
      Option.some.injEq] at left
    obtain ⟨remains, rfl⟩ := left
    exact cut_rising positive remains

theorem not_admits_of_cut?_eq_none (nothing : whole.cut? edge = none) {t : ℚ}
    (member : whole.Contains t) : ¬ edge.Admits t := by
  intro admitted
  rw [cut?_eq] at nothing
  obtain ⟨lower, upper⟩ := member
  rw [Edge.Admits] at admitted
  rcases lt_trichotomy edge.p 0 with negative | parallel | positive
  · simp only [if_neg negative.ne, if_pos negative, ite_eq_left_iff, reduceCtorEq, imp_false,
      not_not] at nothing
    have inside : edge.q / edge.p ≤ t := (div_le_iff_of_neg negative).mpr admitted
    exact absurd (max_le lower inside) (by linarith)
  · simp only [if_pos parallel, ite_eq_left_iff, reduceCtorEq, imp_false, not_not] at nothing
    rw [parallel, mul_zero] at admitted
    linarith
  · simp only [if_neg positive.ne', if_neg positive.not_gt, ite_eq_left_iff, reduceCtorEq,
      imp_false, not_not] at nothing
    have inside : t ≤ edge.q / edge.p := (le_div_iff₀ positive).mpr admitted
    exact absurd (le_min inside upper) (by linarith)

/-! ### Cutting at several edges -/

theorem Cut.none (nonempty : whole.enter ≤ whole.leave) : Cut [] whole whole where
  nonempty := nonempty
  contains t := by simp only [List.not_mem_nil, false_implies, implies_true, and_true]
  enter := .inl rfl
  leave := .inl rfl

theorem Cut.andThen (first : Cut [edge] whole middle) (rest : Cut edges middle cut) :
    Cut (edge :: edges) whole cut where
  nonempty := rest.nonempty
  contains t := by
    rw [rest.contains, first.contains, List.forall_mem_singleton, List.forall_mem_cons, and_assoc]
  enter := first.enter.andThen rest.enter
  leave := first.leave.andThen rest.leave

theorem cut_of_foldlM (nonempty : whole.enter ≤ whole.leave)
    (left : edges.foldlM cut? whole = some cut) : Cut edges whole cut := by
  induction edges generalizing whole with
  | nil =>
    cases left
    exact .none nonempty
  | cons edge edges ih =>
    rw [List.foldlM_cons] at left
    obtain ⟨middle, here, later⟩ := Option.bind_eq_some_iff.mp left
    have first := cut_of_cut? nonempty here
    exact first.andThen (ih first.nonempty later)

theorem not_admits_of_foldlM_eq_none (nonempty : whole.enter ≤ whole.leave)
    (nothing : edges.foldlM cut? whole = none) {t : ℚ} (member : whole.Contains t) :
    ¬ ∀ edge ∈ edges, edge.Admits t := by
  induction edges generalizing whole with
  | nil => cases nothing
  | cons edge edges ih =>
    intro admitted
    obtain ⟨here, later⟩ := List.forall_mem_cons.mp admitted
    rw [List.foldlM_cons] at nothing
    cases first : whole.cut? edge with
    | none => exact not_admits_of_cut?_eq_none first member here
    | some middle =>
      rw [first] at nothing
      have cut := cut_of_cut? nonempty first
      have inside := (cut.contains t).mpr ⟨member, List.forall_mem_singleton.mpr here⟩
      exact ih cut.nonempty nothing inside later

end Range

/-! ### The visible part -/

/-- Whether the point with a parameter is a point of the segment that the clip covers. -/
def Visible (s : Segment) (clip : Clip) (t : ℚ) : Prop :=
  (0 ≤ t ∧ t ≤ 1) ∧ clip.Covers (s.columnAt t) (s.rowAt t)

/-- Along an axis, or along both of them alike. -/
def Straight (s : Segment) : Prop := s.width = 0 ∨ s.height = 0 ∨ s.width = s.height

instance (s : Segment) : Decidable s.Straight := inferInstanceAs (Decidable (_ ∨ _ ∨ _))

/-- A point on a column or a row of pixels. On a straight segment it is a pixel. -/
structure Knot (s : Segment) (t : ℚ) : Prop where
  onGrid : s.OnGrid t
  pixel : s.Straight → s.IsPixel t

theorem IsPixel.knot {s : Segment} {t : ℚ} (pixel : s.IsPixel t) : s.Knot t :=
  ⟨.inl pixel.1, fun _ => pixel⟩

theorem isPixel_zero (s : Segment) : s.IsPixel 0 :=
  ⟨⟨s.start.x, (along_zero _ _).symm⟩, s.start.y, (along_zero _ _).symm⟩

theorem isPixel_one (s : Segment) : s.IsPixel 1 :=
  ⟨⟨s.stop.x, (along_one _ _).symm⟩, s.stop.y, (along_one _ _).symm⟩

/-! ### The four edges of the clip -/

/-- The whole range of the parameter. -/
def wholeRange : Range ℚ := ⟨0, 1⟩

theorem edges_eq (s : Segment) (clip : Clip) :
    s.edges clip =
      [⟨-(s.stop.x - s.start.x : ℚ), s.start.x - clip.left⟩,
       ⟨(s.stop.x - s.start.x : ℚ), (clip.right - 1 : Int) - s.start.x⟩,
       ⟨-(s.stop.y - s.start.y : ℚ), s.start.y - clip.top⟩,
       ⟨(s.stop.y - s.start.y : ℚ), (clip.bottom - 1 : Int) - s.start.y⟩] := rfl

/-- A point lies on the inner side of the four edges if the clip covers it. -/
theorem admits_edges_iff (s : Segment) (clip : Clip) (t : ℚ) :
    (∀ edge ∈ s.edges clip, edge.Admits t) ↔ clip.Covers (s.columnAt t) (s.rowAt t) := by
  rw [edges_eq, List.forall_mem_cons, List.forall_mem_cons, List.forall_mem_cons,
    List.forall_mem_singleton]
  simp only [Edge.Admits, Clip.Covers, columnAt, rowAt, along]
  push_cast
  constructor
  · rintro ⟨left, right, top, bottom⟩
    exact ⟨⟨by linarith, by linarith⟩, by linarith, by linarith⟩
  · rintro ⟨⟨left, right⟩, top, bottom⟩
    exact ⟨by linarith, by linarith, by linarith, by linarith⟩

/-- Where the segment crosses a column, it is not vertical. -/
theorem knot_of_column {s : Segment} {t : ℚ} (slanted : (s.stop.x - s.start.x : ℚ) ≠ 0)
    (column : IsWhole (s.columnAt t)) : s.Knot t := by
  refine ⟨.inl column, ?_⟩
  rintro (vertical | horizontal | diagonal)
  · have same : s.stop.x - s.start.x = 0 := Int.natAbs_eq_zero.mp vertical
    exact absurd (mod_cast same) slanted
  · exact ⟨column, s.start.y, (along_constant horizontal t).symm⟩
  · exact ⟨column, isWhole_along diagonal.symm column⟩

theorem knot_of_row {s : Segment} {t : ℚ} (slanted : (s.stop.y - s.start.y : ℚ) ≠ 0)
    (row : IsWhole (s.rowAt t)) : s.Knot t := by
  refine ⟨.inr row, ?_⟩
  rintro (vertical | horizontal | diagonal)
  · exact ⟨⟨s.start.x, (along_constant vertical t).symm⟩, row⟩
  · have same : s.stop.y - s.start.y = 0 := Int.natAbs_eq_zero.mp horizontal
    exact absurd (mod_cast same) slanted
  · exact ⟨isWhole_along diagonal row, row⟩

theorem knot_of_crosses {s : Segment} {clip : Clip} {edge : Edge ℚ} {t : ℚ}
    (member : edge ∈ s.edges clip) (crossed : edge.Crosses t) : s.Knot t := by
  obtain ⟨slanted, place⟩ := crossed
  rw [edges_eq] at member
  simp only [List.mem_cons, List.not_mem_nil, or_false] at member
  rcases member with rfl | rfl | rfl | rfl
  · refine knot_of_column (neg_ne_zero.mp slanted) ⟨clip.left, ?_⟩
    rw [columnAt, along]
    linarith
  · refine knot_of_column slanted ⟨clip.right - 1, ?_⟩
    rw [columnAt, along]
    linarith
  · refine knot_of_row (neg_ne_zero.mp slanted) ⟨clip.top, ?_⟩
    rw [rowAt, along]
    linarith
  · refine knot_of_row slanted ⟨clip.bottom - 1, ?_⟩
    rw [rowAt, along]
    linarith

/-! ### What the four cuts leave -/

/-- A range that consists of the parameters of the visible points. -/
structure VisibleRange (s : Segment) (clip : Clip) (range : Range ℚ) : Prop where
  nonempty : range.enter ≤ range.leave
  contains : ∀ t, range.Contains t ↔ s.Visible clip t
  enter : s.Knot range.enter
  leave : s.Knot range.leave

namespace VisibleRange

variable {s : Segment} {clip : Clip} {range : Range ℚ} (visible : s.VisibleRange clip range)
include visible

theorem enterVisible : s.Visible clip range.enter :=
  (visible.contains _).mp ⟨le_refl _, visible.nonempty⟩

theorem leaveVisible : s.Visible clip range.leave :=
  (visible.contains _).mp ⟨visible.nonempty, le_refl _⟩

end VisibleRange

theorem visibleRange_of_foldlM {s : Segment} {clip : Clip} {range : Range ℚ}
    (left : (s.edges clip).foldlM Range.cut? wholeRange = some range) :
    s.VisibleRange clip range := by
  have cut := Range.cut_of_foldlM zero_le_one left
  refine ⟨cut.nonempty, ?_, ?_, ?_⟩
  · intro t
    rw [cut.contains, admits_edges_iff]
    rfl
  · rcases cut.enter with kept | ⟨edge, member, crossed⟩
    · rw [kept]
      exact s.isPixel_zero.knot
    · exact knot_of_crosses member crossed
  · rcases cut.leave with kept | ⟨edge, member, crossed⟩
    · rw [kept]
      exact s.isPixel_one.knot
    · exact knot_of_crosses member crossed

theorem not_visible_of_isEmpty {s : Segment} {clip : Clip} (empty : clip.IsEmpty) (t : ℚ) :
    ¬ s.Visible clip t := by
  rintro ⟨-, ⟨left, right⟩, top, bottom⟩
  rcases empty with columns | rows
  · have edges : (clip.right : ℚ) ≤ clip.left := mod_cast columns
    linarith
  · have edges : (clip.bottom : ℚ) ≤ clip.top := mod_cast rows
    linarith

/-- A coordinate on the screen is rounded to the nearest pixel. -/
theorem coordinate_round_eq {q : ℚ} (lower : 0 ≤ q) (upper : q ≤ Screen.width) :
    Coordinate.round q = round q := by
  rw [Screen.width] at upper
  have floor : Coordinate.round q = saturate32 ⌊q + 1 / 2⌋ :=
    congrArg saturate32 (if_neg (not_lt.mpr lower))
  have small : 0 ≤ ⌊q + 1 / 2⌋ := Int.floor_nonneg.mpr (by linarith)
  have large : ⌊q + 1 / 2⌋ < 242 := Int.floor_lt.mpr (by push_cast at upper ⊢; linarith)
  rw [floor, round_eq]
  exact saturate32_eq_self (by simp only [minInt32]; omega) (by simp only [maxInt32]; omega)

theorem pixelAt_eq {s : Segment} {clip : Clip} (onScreen : clip.OnScreen) {t : ℚ}
    (visible : s.Visible clip t) : s.pixelAt t = s.nearest t := by
  obtain ⟨-, ⟨left, right⟩, top, bottom⟩ := visible
  obtain ⟨leftEdge, topEdge, rightEdge, bottomEdge⟩ := onScreen
  have leftEdge' : (0 : ℚ) ≤ clip.left := mod_cast leftEdge
  have topEdge' : (0 : ℚ) ≤ clip.top := mod_cast topEdge
  have rightEdge' : (clip.right : ℚ) ≤ Screen.width := mod_cast rightEdge
  have bottomEdge' : (clip.bottom : ℚ) ≤ Screen.width :=
    mod_cast bottomEdge.trans (by decide)
  have column : Coordinate.round (s.columnAt t) = round (s.columnAt t) :=
    coordinate_round_eq (by linarith) (by linarith)
  have row : Coordinate.round (s.rowAt t) = round (s.rowAt t) :=
    coordinate_round_eq (by linarith) (by linarith)
  exact congrArg₂ Point.mk column row

theorem clip?_eq (s : Segment) (clip : Clip) :
    s.clip? ℚ clip =
      if clip.IsEmpty then none
      else ((s.edges clip).foldlM Range.cut? wholeRange).map fun range =>
        ⟨s.pixelAt range.enter, s.pixelAt range.leave⟩ := by
  have ends : (⟨Coordinate.ofInt 0, Coordinate.ofInt 1⟩ : Range ℚ) = wholeRange := rfl
  simp only [clip?, ends, Option.map_eq_bind]
  rfl

theorem clip?_eq_none_iff (s : Segment) (clip : Clip) :
    s.clip? ℚ clip = none ↔ ∀ t, ¬ s.Visible clip t := by
  rw [clip?_eq]
  split
  case isTrue empty => exact ⟨fun _ => not_visible_of_isEmpty empty, fun _ => rfl⟩
  case isFalse =>
    rw [Option.map_eq_none_iff]
    constructor
    · rintro nothing t ⟨inside, covered⟩
      exact Range.not_admits_of_foldlM_eq_none zero_le_one nothing inside
        ((s.admits_edges_iff clip t).mpr covered)
    · intro hidden
      rw [Option.eq_none_iff_forall_ne_some]
      intro range left
      exact hidden _ (visibleRange_of_foldlM left).enterVisible

/-- What remains runs from the first visible point to the last one. -/
theorem exists_visibleRange {s part : Segment} {clip : Clip} (onScreen : clip.OnScreen)
    (shown : s.clip? ℚ clip = some part) :
    ∃ range, s.VisibleRange clip range ∧ part = s.roundedPart range.enter range.leave := by
  rw [clip?_eq, Option.ite_none_left_eq_some, Option.map_eq_some_iff] at shown
  obtain ⟨-, range, left, rfl⟩ := shown
  have visible := visibleRange_of_foldlM left
  refine ⟨range, visible, ?_⟩
  rw [pixelAt_eq onScreen visible.enterVisible, pixelAt_eq onScreen visible.leaveVisible]
  rfl

end Segment

end FantasyConsole
