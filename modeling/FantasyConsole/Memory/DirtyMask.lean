import FantasyConsole.Memory.Layout
import FantasyConsole.Word

/-!
# The set of pixels written since the last clear

The overlay pass recomposes only the pixels that its hook wrote. A mask holds one flag for each
visible pixel, 64 flags to a word, the lowest bit first; its view is the ascending list of marked
pixels.
-/

namespace FantasyConsole

/-- Number of words that hold a flag for each pixel. -/
def DirtyMask.wordCount : Nat := (Screen.pixels + 63) / 64

structure DirtyMask where
  words : Vector UInt64 DirtyMask.wordCount
deriving DecidableEq

namespace DirtyMask

/-- The mask with nothing marked. -/
def empty : DirtyMask := ⟨Vector.replicate wordCount 0⟩

/-- The flag of a pixel in the word that holds it. -/
def flag (pixel : Nat) : UInt64 := 1 <<< UInt64.ofNat (pixel % 64)

theorem div_lt_wordCount {pixel : Nat} (onScreen : pixel < Screen.pixels) :
    pixel / 64 < wordCount := by
  simp only [wordCount]
  omega

/-- Whether a pixel is marked. -/
def contains (m : DirtyMask) (pixel : Nat) : Bool :=
  if h : pixel < Screen.pixels then
    have inside := div_lt_wordCount h
    m.words[pixel / 64] &&& flag pixel != 0
  else
    false

/-- Marks a pixel; an index beyond the screen is ignored. -/
def mark (m : DirtyMask) (pixel : Nat) : DirtyMask :=
  if h : pixel < Screen.pixels then
    have inside := div_lt_wordCount h
    ⟨m.words.set (pixel / 64) (m.words[pixel / 64] ||| flag pixel)⟩
  else
    m

/-- Marks `n` pixels in a row. -/
def markRange (m : DirtyMask) (first n : Nat) : DirtyMask :=
  n.fold (fun i _ m => m.mark (first + i)) m

/-- Takes every mark away. -/
def clear (m : DirtyMask) : DirtyMask := ⟨m.words.map fun _ => 0⟩

/-- The places of the flags that are set in a word, ascending. -/
def setFlags (word : UInt64) : List Nat :=
  (List.range 64).filter fun bit => word &&& flag bit != 0

/-- The marked pixels, ascending. -/
def toList (m : DirtyMask) : List Nat :=
  (List.finRange wordCount).flatMap fun (i : Fin wordCount) =>
    (setFlags m.words[i]).map (i * 64 + ·)

/-- Number of marked pixels. -/
def count (m : DirtyMask) : Nat :=
  m.words.foldl (fun found word => found + word.toBitVec.cpop.toNat) 0

/-! ### The flags of a word -/

theorem toNat_flag (pixel : Nat) : (flag pixel).toNat = 1 <<< (pixel % 64) := by
  have below : pixel % 64 < 64 := Nat.mod_lt _ (by decide)
  have small : 2 ^ (pixel % 64) < 2 ^ 64 := Nat.pow_lt_pow_right (by decide) below
  have place : (UInt64.ofNat (pixel % 64)).toNat % 64 = pixel % 64 := by
    rw [UInt64.toNat_ofNat']
    omega
  rw [flag, UInt64.toNat_shiftLeft, UInt64.toNat_one, place, Nat.one_shiftLeft,
    Nat.mod_eq_of_lt small]

theorem testBit_flag (pixel j : Nat) :
    (flag pixel).toNat.testBit j = decide (pixel % 64 = j) := by
  rw [toNat_flag, Nat.one_shiftLeft, Nat.testBit_two_pow]

/-- The flag of a pixel is the bit at the place of the pixel in its word. -/
theorem and_flag_ne_zero (word : UInt64) (pixel : Nat) :
    (word &&& flag pixel != 0) = word.toNat.testBit (pixel % 64) := by
  rw [← and_one_shiftLeft_bne_zero, ← toNat_flag, ← UInt64.toNat_and, Bool.eq_iff_iff, bne_iff_ne,
    bne_iff_ne, ne_eq, ← UInt64.toNat_inj]
  rfl

theorem contains_of_lt (m : DirtyMask) {pixel : Nat} (onScreen : pixel < Screen.pixels)
    (inside : pixel / 64 < wordCount) :
    m.contains pixel = m.words[pixel / 64].toNat.testBit (pixel % 64) := by
  rw [contains, dif_pos onScreen]
  exact and_flag_ne_zero _ _

theorem contains_of_le (m : DirtyMask) {pixel : Nat} (beyond : Screen.pixels ≤ pixel) :
    m.contains pixel = false :=
  dif_neg (Nat.not_lt.mpr beyond)

theorem mul_add_lt_pixels {i bit : Nat} (word : i < wordCount) (low : bit < 64) :
    i * 64 + bit < Screen.pixels := by
  have exact : wordCount * 64 = Screen.pixels := by decide
  omega

/-- There is a pixel for every bit of every word. -/
theorem testBit_word (m : DirtyMask) {i bit : Nat} (word : i < wordCount) (low : bit < 64) :
    m.words[i].toNat.testBit bit = m.contains (i * 64 + bit) := by
  have index : (i * 64 + bit) / 64 = i := by omega
  have place : (i * 64 + bit) % 64 = bit := by omega
  have inside : (i * 64 + bit) / 64 < wordCount := by rwa [index]
  simp only [m.contains_of_lt (mul_add_lt_pixels word low) inside, index, place]

theorem ext_contains {m n : DirtyMask} (same : ∀ p, m.contains p = n.contains p) : m = n := by
  have words : m.words = n.words := by
    refine Vector.ext fun i word => UInt64.toNat_inj.mp (Nat.eq_of_testBit_eq fun bit => ?_)
    by_cases low : bit < 64
    · rw [m.testBit_word word low, n.testBit_word word low, same]
    · have beyond : 2 ^ 64 ≤ 2 ^ bit := Nat.pow_le_pow_right (by decide) (Nat.le_of_not_lt low)
      have small (w : UInt64) : w.toNat < 2 ^ bit := Nat.lt_of_lt_of_le w.toNat_lt beyond
      rw [Nat.testBit_lt_two_pow (small _), Nat.testBit_lt_two_pow (small _)]
  cases m
  cases n
  exact congrArg DirtyMask.mk words

/-! ### What is marked -/

@[simp] theorem contains_empty (p : Nat) : empty.contains p = false := by
  by_cases onScreen : p < Screen.pixels
  · simp [contains_of_lt _ onScreen (div_lt_wordCount onScreen), empty]
  · exact contains_of_le _ (Nat.le_of_not_lt onScreen)

theorem clear_eq_empty (m : DirtyMask) : m.clear = empty :=
  congrArg DirtyMask.mk Vector.map_const

@[simp] theorem contains_clear (m : DirtyMask) (p : Nat) : m.clear.contains p = false := by
  rw [clear_eq_empty, contains_empty]

theorem mark_of_le (m : DirtyMask) {pixel : Nat} (beyond : Screen.pixels ≤ pixel) :
    m.mark pixel = m :=
  dif_neg (Nat.not_lt.mpr beyond)

theorem contains_mark (m : DirtyMask) (p q : Nat) :
    (m.mark p).contains q = ((decide (q = p) && decide (p < Screen.pixels)) || m.contains q) := by
  by_cases onScreen : p < Screen.pixels
  · rw [decide_eq_true onScreen, Bool.and_true]
    by_cases shown : q < Screen.pixels
    · have inside := div_lt_wordCount shown
      rw [contains_of_lt _ shown inside, contains_of_lt m shown inside]
      simp only [mark, dif_pos onScreen, Vector.getElem_set]
      by_cases word : p / 64 = q / 64
      · have same : (p % 64 = q % 64) = (q = p) := propext (by omega)
        simp only [word, ↓reduceIte, UInt64.toNat_or, Nat.testBit_or, testBit_flag, same]
        exact Bool.or_comm ..
      · have other : ¬ q = p := fun same => word (same ▸ rfl)
        rw [if_neg word, decide_eq_false other, Bool.false_or]
    · have other : ¬ q = p := fun same => shown (same ▸ onScreen)
      rw [contains_of_le _ (Nat.le_of_not_lt shown), contains_of_le _ (Nat.le_of_not_lt shown),
        decide_eq_false other, Bool.false_or]
  · rw [m.mark_of_le (Nat.le_of_not_lt onScreen), decide_eq_false onScreen, Bool.and_false,
      Bool.false_or]

@[simp] theorem markRange_zero (m : DirtyMask) (first : Nat) : m.markRange first 0 = m :=
  Nat.fold_zero ..

theorem markRange_succ (m : DirtyMask) (first n : Nat) :
    m.markRange first (n + 1) = (m.markRange first n).mark (first + n) :=
  Nat.fold_succ ..

theorem contains_markRange (m : DirtyMask) (first n q : Nat) :
    (m.markRange first n).contains q =
      ((decide (first ≤ q) && decide (q < first + n) && decide (q < Screen.pixels))
        || m.contains q) := by
  induction n with
  | zero =>
    have outside : ¬ (first ≤ q ∧ q < first + 0) := by omega
    grind [markRange_zero]
  | succ n ih =>
    rw [markRange_succ, contains_mark, ih]
    grind

end DirtyMask

end FantasyConsole
