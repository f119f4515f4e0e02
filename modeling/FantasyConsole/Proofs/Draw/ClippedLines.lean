import FantasyConsole.Proofs.Draw.ClippedRange
import FantasyConsole.Proofs.Draw.Shapes
import FantasyConsole.Proofs.Memory.Regions

/-!
# Lines under a clip

A line is clipped before it is walked, and the ends of what remains are rounded to pixels. The walk
then follows the chord between the rounded ends, which is not the line itself. So a clip does more
than mask the pixels of the line. Here the clip is computed with fractions.

## Main result

`Canvas.lineBy_clipped`: the pixels that are drawn are those of the walk between the first and the
last visible point, rounded. They lie inside the clip, and beside the pixels of the line. A straight
line is only masked, and so is one whose ends lie inside the clip.

## Proof strategy

The pixels are drawn one by one (`colors_lineBy`), and none of them is outside the clip
(`contains_of_mem_points`). The two walks are compared step by step (`Segment.exists_alongside`).
What is left is to see that a pixel of the line inside the clip belongs to a visible point
(`visible_of_contains`).
-/

namespace FantasyConsole

/-- The pixels of the walk along a segment. -/
def Shape.line (s : Segment) : Shape := fun x y => ⟨x, y⟩ ∈ s.points

instance (s : Segment) (x y : Int) : Decidable (Shape.line s x y) :=
  inferInstanceAs (Decidable (_ ∈ _))

/-- The clip contains a pixel that is nearest to a point it covers. -/
theorem Clip.Covers.contains {clip : Clip} {x y : ℚ} (covered : clip.Covers x y) :
    clip.Contains (round x) (round y) := by
  obtain ⟨⟨left, right⟩, top, bottom⟩ := covered
  have left := round_mono left
  have right := round_mono right
  have top := round_mono top
  have bottom := round_mono bottom
  rw [round_intCast] at left top
  rw [round_sub_one, round_intCast] at right bottom
  exact ⟨left, top, by omega, by omega⟩

theorem Clip.covers_iff (clip : Clip) (x y : Int) :
    clip.Covers x y ↔ clip.Contains x y := by
  constructor
  · intro covered
    simpa only [round_intCast] using covered.contains
  · rintro ⟨left, top, right, bottom⟩
    have right : x ≤ clip.right - 1 := by omega
    have bottom : y ≤ clip.bottom - 1 := by omega
    exact ⟨⟨mod_cast left, mod_cast right⟩, mod_cast top, mod_cast bottom⟩

namespace Segment

/-! ### The pixels of a walk inside a clip -/

theorem mem_points_iff (s : Segment) (p : Point) :
    p ∈ s.points ↔ ∃ k ≤ s.steps, s.placeAfter k = p := by
  rw [points_eq, List.mem_map]
  simp only [List.mem_range, Nat.lt_succ_iff]

/-- Whether both ends are pixels inside the clip. -/
def Inside (s : Segment) (clip : Clip) : Prop :=
  clip.Contains s.start.x s.start.y ∧ clip.Contains s.stop.x s.stop.y

instance (s : Segment) (clip : Clip) : Decidable (s.Inside clip) :=
  inferInstanceAs (Decidable (_ ∧ _))

/-- A walk between two pixels inside the clip stays inside. -/
theorem contains_of_mem_points {s : Segment} {clip : Clip} (inside : s.Inside clip) {p : Point}
    (member : p ∈ s.points) : clip.Contains p.x p.y := by
  obtain ⟨start, stop⟩ := inside
  obtain ⟨k, early, rfl⟩ := (s.mem_points_iff p).mp member
  rcases Nat.eq_zero_or_pos s.steps with still | positive
  · rw [still] at early
    simpa only [Nat.le_zero.mp early, placeAfter, axisAfter_zero] using start
  · have x := axisAfter_mem s.start.x s.stop.x positive early
    have y := axisAfter_mem s.start.y s.stop.y positive early
    simp only [Clip.Contains, placeAfter] at *
    omega

/-- The points of a straight segment after whole steps are pixels. -/
theorem Straight.placeAfter_eq {s : Segment} (straight : s.Straight) {k : Nat} (early : k ≤ s.steps) :
    ((s.placeAfter k).x : ℚ) = s.columnAt (k / s.steps) ∧
    ((s.placeAfter k).y : ℚ) = s.rowAt (k / s.steps) := by
  have axis {start stop : Int}
      (extent : (stop - start).natAbs = 0 ∨ (stop - start).natAbs = s.steps) :
      (axisAfter start stop s.steps k : ℚ) = along start stop (k / s.steps) := by
    rcases extent with constant | longest
    · have same : stop - start = 0 := Int.natAbs_eq_zero.mp constant
      rw [along_constant constant, axisAfter, same, Int.sign_zero, zero_mul, add_zero]
    · exact axisAfter_eq_along longest early
  have extents : (s.width = 0 ∨ s.width = s.steps) ∧ (s.height = 0 ∨ s.height = s.steps) := by
    rw [steps_eq]
    rcases straight with vertical | horizontal | diagonal <;> omega
  exact ⟨axis extents.1, axis extents.2⟩

theorem step_inside (s : Segment) {k : Nat} (early : k ≤ s.steps) :
    0 ≤ (k / s.steps : ℚ) ∧ (k / s.steps : ℚ) ≤ 1 :=
  ⟨by positivity, div_le_one_of_le₀ (mod_cast early) (by positivity)⟩

theorem Inside.visible {s : Segment} {clip : Clip} (inside : s.Inside clip) {t : ℚ}
    (within : 0 ≤ t ∧ t ≤ 1) : s.Visible clip t := by
  obtain ⟨start, stop⟩ := inside
  obtain ⟨⟨left, right⟩, top, bottom⟩ := (clip.covers_iff _ _).mpr start
  obtain ⟨⟨left', right'⟩, top', bottom'⟩ := (clip.covers_iff _ _).mpr stop
  obtain ⟨column, column'⟩ := along_mem s.start.x s.stop.x within
  obtain ⟨row, row'⟩ := along_mem s.start.y s.stop.y within
  exact ⟨within, ⟨(le_min left left').trans column, column'.trans (max_le right right')⟩,
    (le_min top top').trans row, row'.trans (max_le bottom bottom')⟩

/-- A pixel inside the clip belongs to a visible point, on a straight segment and on one whose ends
are inside. -/
theorem visible_of_contains {s : Segment} {clip : Clip} (masked : s.Straight ∨ s.Inside clip)
    {k : Nat} (early : k ≤ s.steps)
    (contained : clip.Contains (s.placeAfter k).x (s.placeAfter k).y) :
    s.Visible clip (k / s.steps) := by
  have within := s.step_inside early
  rcases masked with straight | inside
  · obtain ⟨column, row⟩ := straight.placeAfter_eq early
    refine ⟨within, ?_⟩
    rw [← column, ← row]
    exact (clip.covers_iff _ _).mpr contained
  · exact inside.visible within

/-- The ends of the visible part of such a segment need no rounding. -/
theorem VisibleRange.isPixel {s : Segment} {clip : Clip} {range : Range ℚ}
    (visible : s.VisibleRange clip range) (masked : s.Straight ∨ s.Inside clip) :
    s.IsPixel range.enter ∧ s.IsPixel range.leave := by
  rcases masked with straight | inside
  · exact ⟨visible.enter.pixel straight, visible.leave.pixel straight⟩
  · obtain ⟨enter, -⟩ := (visible.contains 0).mpr (inside.visible ⟨le_refl 0, zero_le_one⟩)
    obtain ⟨-, leave⟩ := (visible.contains 1).mpr (inside.visible ⟨zero_le_one, le_refl 1⟩)
    have first := visible.enterVisible.1.1
    have last := visible.leaveVisible.1.2
    rw [le_antisymm enter first, le_antisymm last leave]
    exact ⟨s.isPixel_zero, s.isPixel_one⟩

/-- What is walked instead of the line lies inside the clip. -/
theorem VisibleRange.contains_of_mem_points {s : Segment} {clip : Clip} {range : Range ℚ}
    (visible : s.VisibleRange clip range) {p : Point}
    (member : p ∈ (s.roundedPart range.enter range.leave).points) : clip.Contains p.x p.y :=
  Segment.contains_of_mem_points ⟨visible.enterVisible.2.contains, visible.leaveVisible.2.contains⟩
    member

theorem VisibleRange.exists_alongside {s : Segment} {clip : Clip} {range : Range ℚ}
    (visible : s.VisibleRange clip range) :
    let part := s.roundedPart range.enter range.leave
    ∃ i j, s.Alongside part i j ∧
      (s.IsPixel range.enter → s.IsPixel range.leave → part.points = s.stretch i j) ∧
      ∀ k ≤ s.steps, s.Visible clip (k / s.steps) → i ≤ k ∧ k ≤ j := by
  obtain ⟨i, j, alongside, pixels, within⟩ := Segment.exists_alongside visible.enterVisible.1.1
    visible.nonempty visible.leaveVisible.1.2 visible.enter.onGrid visible.leave.onGrid
  refine ⟨i, j, alongside, pixels, fun k early shown => ?_⟩
  obtain ⟨lower, upper⟩ := (visible.contains _).mpr shown
  exact within k early lower upper

/-- On a straight segment, and on one whose ends are inside, the steps between the ends of the
visible part are those whose pixels the clip contains. -/
theorem Alongside.mem_stretch_iff {s part : Segment} {clip : Clip} {i j : Nat}
    (alongside : s.Alongside part i j) (masked : s.Straight ∨ s.Inside clip)
    (within : ∀ k ≤ s.steps, s.Visible clip (k / s.steps) → i ≤ k ∧ k ≤ j)
    (contained : ∀ p ∈ s.stretch i j, clip.Contains p.x p.y) (p : Point) :
    p ∈ s.stretch i j ↔ p ∈ s.points ∧ clip.Contains p.x p.y := by
  constructor
  · intro member
    exact ⟨List.mem_of_mem_drop (List.mem_of_mem_take member), contained p member⟩
  · rintro ⟨member, inside⟩
    obtain ⟨k, early, rfl⟩ := (s.mem_points_iff p).mp member
    obtain ⟨lower, upper⟩ := within k early (visible_of_contains masked early inside)
    rw [stretch_eq alongside.order alongside.last, List.mem_map]
    refine ⟨k - i, List.mem_range.mpr (by omega), ?_⟩
    rw [Nat.add_sub_cancel' lower]

end Segment

namespace Canvas

/-! ### Drawing a line -/

/-- A line that is clipped with numbers of some kind. -/
def lineBy (α : Type) [Coordinate α] (c : Canvas) (s : Segment) (color : UInt8) : Canvas :=
  let color := c.ram.mapColor color
  match s.clip? α c.clip with
  | none => c
  | some part => part.points.foldl (fun c p => c.put p.x p.y color) c

/-- The pixels of the part that is left are drawn, as far as they are inside the clip. -/
theorem colors_lineBy {α : Type} [Coordinate α] {c : Canvas} {s part : Segment}
    (shown : s.clip? α c.clip = some part) (color : UInt8) :
    Colors (c.ram.mapColor color) ((Shape.line part).within c.clip).bits c
      (c.lineBy α s color) := by
  simp only [lineBy, shown]
  refine (c.colors_points part.points _).congr (Set.ext fun k => ⟨?_, ?_⟩)
  · rintro ⟨p, member, inside, own⟩
    exact ⟨p.x, p.y, ⟨member, inside⟩, own⟩
  · rintro ⟨x, y, ⟨member, inside⟩, own⟩
    exact ⟨⟨x, y⟩, member, inside, own⟩

theorem paints_lineBy {α : Type} [Coordinate α] {c : Canvas} (onScreen : c.clip.OnScreen)
    {s part : Segment} (shown : s.clip? α c.clip = some part) {shape : Shape}
    (same : ∀ x y, (Shape.line part).within c.clip x y ↔ shape x y) (color : UInt8) :
    Paints shape (c.ram.mapColor color) c (c.lineBy α s color) :=
  ((colors_lineBy shown color).congr (Shape.bits_congr same)).paints
    (c.ram.byteBit_mapColor_of_le color) fun x y own => onScreen.contains ((same x y).mpr own).2

theorem paints_nothing {shape : Shape} (none : ∀ x y, ¬ shape x y) (color : UInt8) (c : Canvas) :
    Paints shape color c c where
  clip := rfl
  onScreen x y own := absurd own (none x y)
  painted x y own := absurd own (none x y)
  kept _ _ _ := rfl
  bytes _ _ := rfl

/-! ### Main theorem -/

/-- If no point of the line is visible, nothing is drawn. Otherwise the pixels that are drawn are
those of the walk from the first visible point to the last one, each rounded to the nearest pixel.
They lie inside the clip. One after the other they lie beside the pixels of the line, from its step
`i` to its step `j`: in the same column, or in the same row of a line that is taller than wide, and at
most a pixel apart. All steps whose points are visible are among these. No pixel is moved if the two
ends need no rounding.

If the line is straight or both its ends lie inside the clip, exactly its pixels inside the clip are
drawn. -/
theorem lineBy_clipped (c : Canvas) (onScreen : c.clip.OnScreen) (s : Segment) (color : UInt8) :
    let mapped := c.ram.mapColor color
    let drawn := c.lineBy ℚ s color
    c.line s color = c.lineBy Float s color ∧
    (s.clip? ℚ c.clip = none → drawn = c ∧ ∀ t, ¬ s.Visible c.clip t) ∧
    (∀ part, s.clip? ℚ c.clip = some part →
      Paints (Shape.line part) mapped c drawn ∧
      (∀ p ∈ part.points, c.clip.Contains p.x p.y) ∧
      ∃ enter leave, enter ≤ leave ∧ (∀ t, s.Visible c.clip t ↔ enter ≤ t ∧ t ≤ leave) ∧
        part = s.roundedPart enter leave ∧
        ∃ i j, s.Alongside part i j ∧
          (∀ k ≤ s.steps, s.Visible c.clip (k / s.steps) → i ≤ k ∧ k ≤ j) ∧
          (s.IsPixel enter → s.IsPixel leave → part.points = s.stretch i j)) ∧
    (s.Straight ∨ s.Inside c.clip → Paints ((Shape.line s).within c.clip) mapped c drawn) := by
  intro mapped drawn
  have hidden (nothing : s.clip? ℚ c.clip = none) :
      drawn = c ∧ ∀ t, ¬ s.Visible c.clip t := by
    refine ⟨?_, (s.clip?_eq_none_iff c.clip).mp nothing⟩
    simp only [drawn, lineBy, nothing]
  refine ⟨rfl, hidden, ?shown, ?masked⟩
  case shown =>
    intro part shown
    obtain ⟨range, visible, rfl⟩ := Segment.exists_visibleRange onScreen shown
    have contained := fun p => visible.contains_of_mem_points (p := p)
    obtain ⟨i, j, alongside, pixels, within⟩ := visible.exists_alongside
    refine ⟨paints_lineBy onScreen shown (fun x y => ?_) color, contained, range.enter, range.leave,
      visible.nonempty, fun t => (visible.contains t).symm, rfl, i, j, alongside, within, pixels⟩
    exact and_iff_left_of_imp (contained ⟨x, y⟩)
  case masked =>
    intro masked
    cases shown : s.clip? ℚ c.clip with
    | none =>
      obtain ⟨unchanged, invisible⟩ := hidden shown
      rw [unchanged]
      refine paints_nothing ?_ mapped c
      rintro x y ⟨member, inside⟩
      obtain ⟨k, early, place⟩ := (s.mem_points_iff ⟨x, y⟩).mp member
      exact invisible _ (Segment.visible_of_contains masked early (by rwa [place]))
    | some part =>
      obtain ⟨range, visible, rfl⟩ := Segment.exists_visibleRange onScreen shown
      obtain ⟨i, j, alongside, pixels, within⟩ := visible.exists_alongside
      obtain ⟨first, last⟩ := visible.isPixel masked
      refine paints_lineBy onScreen shown (fun x y => ?_) color
      have contained := fun p => visible.contains_of_mem_points (p := p)
      have member := alongside.mem_stretch_iff masked within (pixels first last ▸ contained) ⟨x, y⟩
      rw [← pixels first last] at member
      exact (and_iff_left_of_imp (contained ⟨x, y⟩)).trans member

/-- A slanted line that leaves the screen, and a level one that runs across it. -/
theorem lineBy_clipped_at_edges :
    let c : Canvas := ⟨.blank, .full⟩
    let slanted : Segment := ⟨⟨2, 1⟩, ⟨-1, 0⟩⟩
    let level : Segment := ⟨⟨-3, 5⟩, ⟨300, 5⟩⟩
    c.clip.OnScreen ∧
    Paints (Shape.line ⟨⟨2, 1⟩, ⟨0, 0⟩⟩) (c.ram.mapColor 7) c (c.lineBy ℚ slanted 7) ∧
    Paints ((Shape.line level).within c.clip) (c.ram.mapColor 7) c (c.lineBy ℚ level 7) := by
  intro c slanted level
  have onScreen : c.clip.OnScreen := Clip.onScreen_full
  have shown : slanted.clip? ℚ c.clip = some ⟨⟨2, 1⟩, ⟨0, 0⟩⟩ := by decide +kernel
  obtain ⟨-, -, drawn, -⟩ := lineBy_clipped c onScreen slanted 7
  obtain ⟨-, -, -, masked⟩ := lineBy_clipped c onScreen level 7
  exact ⟨onScreen, (drawn _ shown).1, masked (.inl (by decide))⟩

/-- The walk along the slanted line takes the pixel in column 1 of row 1. The line leaves the screen
a third of a pixel off row 0, which the rounding takes away, and the walk to that end does not take
the pixel although it is on the screen. -/
theorem slanted_line_not_masked :
    let c : Canvas := ⟨Ram.blank.setByte 120 255, .full⟩
    let s : Segment := ⟨⟨2, 1⟩, ⟨-1, 0⟩⟩
    c.clip.OnScreen ∧ (Shape.line s).within c.clip 1 1 ∧
    ¬ Paints ((Shape.line s).within c.clip) (c.ram.mapColor 7) c (c.lineBy ℚ s 7) := by
  intro c s
  have onScreen : c.clip.OnScreen := Clip.onScreen_full
  have member : (Shape.line s).within c.clip 1 1 := ⟨by decide, by decide⟩
  refine ⟨onScreen, member, fun masked => ?_⟩
  have shown : s.clip? ℚ c.clip = some ⟨⟨2, 1⟩, ⟨0, 0⟩⟩ := by decide +kernel
  have drawn := paints_lineBy onScreen shown (fun _ _ => Iff.rfl) 7
  have missed : ¬ (Shape.line ⟨⟨2, 1⟩, ⟨0, 0⟩⟩).within c.clip 1 1 := fun own =>
    absurd own.1 (by decide)
  have before : c.getPixel 1 1 = 15 := by
    refine (if_pos (by decide)).trans ?_
    rw [Ram.pixel, Ram.packed, Ram.byte_setByte, if_pos (by decide)]
    decide
  have color : c.ram.mapColor 7 = 0 := by
    rw [Ram.mapColor, Ram.packed, Ram.byte_setByte, if_neg (by decide), Ram.byte_blank]
    decide
  have same := (drawn.kept 1 1 missed).symm.trans (masked.painted 1 1 member)
  rw [before, color] at same
  exact absurd same (by decide)

end Canvas

end FantasyConsole
