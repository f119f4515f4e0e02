import FantasyConsole.Frame

/-!
# The pixels of a frame

The view of a frame is `pixel?`: one host pixel at a place, `none` outside the frame. Each operation
is described by what it does to that view, and frames of one size that agree in the view are equal.
-/

namespace FantasyConsole

namespace Frame

theorem index_inj {x y column row width : Nat} (hx : x < width) (hc : column < width) :
    y * width + x = row * width + column ↔ column = x ∧ row = y := by
  constructor
  · intro same
    -- the column is what remains of the index modulo the width
    have first := congrArg (· % width) same
    simp only [Nat.mul_add_mod_of_lt hx, Nat.mul_add_mod_of_lt hc] at first
    subst first
    have positive : 0 < width := Nat.lt_of_le_of_lt (Nat.zero_le _) hx
    have rows : y * width = row * width := Nat.add_right_cancel same
    exact ⟨rfl, (Nat.eq_of_mul_eq_mul_right positive rows).symm⟩
  · rintro ⟨rfl, rfl⟩
    rfl

/-- The indices of one row are those of its first pixel and the pixels that follow. -/
theorem index_mem_row {y column row width : Nat} (hc : column < width) :
    y * width ≤ row * width + column ∧ row * width + column < y * width + width ↔ row = y := by
  constructor
  · rintro ⟨le, lt⟩
    -- an index of the row lies a column behind its first
    have inside : row * width + column - y * width < width := by omega
    have same : y * width + (row * width + column - y * width) = row * width + column := by omega
    exact ((index_inj inside hc).mp same).2
  · rintro rfl
    omega

theorem pixel?_setPixel (f : Frame) (x y : Nat) (color : UInt32) (column row : Nat) :
    (f.setPixel x y color).pixel? column row =
      if column = x ∧ row = y then (f.pixel? column row).map fun _ => color
      else f.pixel? column row := by
  unfold setPixel
  by_cases target : x < f.width ∧ y < f.height
  · rw [if_pos target]
    unfold pixel?
    by_cases shown : column < f.width ∧ row < f.height
    · have bound := index_lt shown.1 shown.2
      simp only [if_pos shown, Vector.getElem?_setIfInBounds, index_inj target.1 shown.1]
      split
      · rw [Vector.getElem?_eq_getElem bound, if_pos (index_lt target.1 target.2)]
        rfl
      · rfl
    · simp only [if_neg shown]
      split <;> rfl
  · rw [if_neg target]
    split
    case isTrue same =>
      obtain ⟨rfl, rfl⟩ := same
      simp only [pixel?, if_neg target]
      rfl
    case isFalse => rfl

/-! ### Rows -/

@[simp] theorem width_setRow (f : Frame) (y : Nat) (color : Nat → UInt32) :
    (f.setRow y color).width = f.width := by
  unfold setRow
  split <;> rfl

@[simp] theorem height_setRow (f : Frame) (y : Nat) (color : Nat → UInt32) :
    (f.setRow y color).height = f.height := by
  unfold setRow
  split <;> rfl

private theorem getElem?_foldRow {size : Nat} (pixels : Vector UInt32 size) (start n : Nat)
    (color : Nat → UInt32) (i : Nat) :
    (n.fold (fun x _ pixels => pixels.setIfInBounds (start + x) (color x)) pixels)[i]? =
      if start ≤ i ∧ i < start + n then pixels[i]?.map fun _ => color (i - start)
      else pixels[i]? := by
  induction n with
  | zero => rw [Nat.fold_zero, if_neg (by omega)]
  | succ n ih =>
    rw [Nat.fold_succ, Vector.getElem?_setIfInBounds]
    by_cases last : start + n = i
    · subst last
      have here : start ≤ start + n ∧ start + n < start + (n + 1) := by omega
      rw [if_pos rfl, if_pos here, Nat.add_sub_cancel_left]
      split
      case isTrue inside => rw [Vector.getElem?_eq_getElem inside]; rfl
      case isFalse outside => rw [Vector.getElem?_eq_none (Nat.le_of_not_lt outside)]; rfl
    · rw [if_neg last, ih]
      by_cases earlier : start ≤ i ∧ i < start + n
      · rw [if_pos earlier, if_pos ⟨earlier.1, by omega⟩]
      · rw [if_neg earlier, if_neg (by omega)]

theorem pixel?_setRow (f : Frame) (y : Nat) (color : Nat → UInt32) (column row : Nat) :
    (f.setRow y color).pixel? column row =
      if row = y then (f.pixel? column row).map fun _ => color column
      else f.pixel? column row := by
  unfold setRow
  by_cases line : y < f.height
  · rw [if_pos line]
    unfold pixel?
    by_cases shown : column < f.width ∧ row < f.height
    · simp only [if_pos shown, getElem?_foldRow, index_mem_row shown.1]
      split
      case isTrue same => rw [same, Nat.add_sub_cancel_left]
      case isFalse => rfl
    · simp only [if_neg shown]
      split <;> rfl
  · rw [if_neg line]
    split
    case isTrue same =>
      subst same
      have hidden : ¬ (column < f.width ∧ row < f.height) := fun shown => line shown.2
      simp only [pixel?, if_neg hidden]
      rfl
    case isFalse => rfl

/-! ### Equality -/

/-- Frames of one size with the same pixels are equal. -/
theorem ext_pixel? {f g : Frame} (width : f.width = g.width) (height : f.height = g.height)
    (pixels : ∀ column row, column < f.width → row < f.height →
      f.pixel? column row = g.pixel? column row) : f = g := by
  obtain ⟨w, h, fs⟩ := f
  obtain ⟨_, _, gs⟩ := g
  obtain rfl : w = _ := width
  obtain rfl : h = _ := height
  congr
  refine Vector.ext fun i inside => ?_
  have positive : 0 < w := by
    rcases Nat.eq_zero_or_pos w with rfl | positive
    · omega
    · exact positive
  have column : i % w < w := Nat.mod_lt i positive
  have row : i / w < h := Nat.div_lt_of_lt_mul inside
  have place : i / w * w + i % w = i := Nat.div_add_mod' i w
  have same := pixels (i % w) (i / w) column row
  simp only [pixel?, if_pos (And.intro column row), place] at same
  rw [Vector.getElem?_eq_getElem inside, Vector.getElem?_eq_getElem inside] at same
  exact Option.some.inj same

theorem width_ensureSize (f : Frame) (width height : Nat) :
    (f.ensureSize width height).width = width := by
  unfold ensureSize
  split
  case isTrue same => exact same.1
  case isFalse => rfl

theorem height_ensureSize (f : Frame) (width height : Nat) :
    (f.ensureSize width height).height = height := by
  unfold ensureSize
  split
  case isTrue same => exact same.2
  case isFalse => rfl

end Frame

end FantasyConsole
