import FantasyConsole.Memory.DirtyMask

/-!
# The marked pixels as a set

A mask is filled word by word, listed word by word and counted word by word. This module says that
the three agree: a mask is the set of the pixels that were marked since it was last cleared.

## Main result

`DirtyMask.run_exact`: after any marks and clears, what is listed is what was marked since the last
clear, each pixel once and in ascending order, and the count is the number of them.

## Proof strategy

Every flag is a bit of a word, and every bit of every word is the flag of one pixel. What the listing
and the count have in common is the list of set bits of one word.
-/

namespace FantasyConsole

namespace DirtyMask

/-! ### One word -/

theorem mem_setFlags {word : UInt64} {bit : Nat} :
    bit ∈ setFlags word ↔ bit < 64 ∧ word.toNat.testBit bit = true := by
  rw [setFlags, List.mem_filter, List.mem_range]
  refine and_congr_right fun low => ?_
  rw [and_flag_ne_zero, Nat.mod_eq_of_lt low]

theorem pairwise_setFlags (word : UInt64) : (setFlags word).Pairwise (· < ·) :=
  List.pairwise_lt_range.filter _

/-- As many bits of a word are counted as flags are found set in it. -/
theorem toNat_cpop (word : UInt64) : word.toBitVec.cpop.toNat = (setFlags word).length := by
  have below (n : Nat) (word64 : n ≤ 64) : word.toBitVec.cpopNatRec n 0 =
      ((List.range n).filter fun bit => word &&& flag bit != 0).length := by
    induction n with
    | zero => rfl
    | succ n ih =>
      have last : (word &&& flag n != 0) = word.toBitVec.getLsbD n := by
        rw [and_flag_ne_zero, Nat.mod_eq_of_lt word64]
        rfl
      rw [BitVec.cpopNatRec_succ, BitVec.cpopNatRec_add, ih (Nat.le_of_succ_le word64),
        List.range_succ, List.filter_append, List.length_append, List.filter_cons,
        last]
      cases word.toBitVec.getLsbD n <;> rfl
  rw [BitVec.toNat_cpop]
  exact below 64 (Nat.le_refl _)

/-! ### All words -/

theorem mem_toList {m : DirtyMask} {p : Nat} :
    p ∈ m.toList ↔ p < Screen.pixels ∧ m.contains p = true := by
  simp only [toList, List.mem_flatMap, List.mem_map, mem_setFlags, List.mem_finRange, true_and]
  constructor
  · rintro ⟨i, bit, ⟨low, set⟩, rfl⟩
    exact ⟨mul_add_lt_pixels i.isLt low, (m.testBit_word i.isLt low).symm.trans set⟩
  · rintro ⟨onScreen, marked⟩
    refine ⟨⟨p / 64, div_lt_wordCount onScreen⟩, p % 64, ⟨Nat.mod_lt _ (by decide), ?_⟩, ?_⟩
    · exact (m.contains_of_lt onScreen (div_lt_wordCount onScreen)).symm.trans marked
    · exact Nat.div_add_mod' p 64

theorem pairwise_toList (m : DirtyMask) : m.toList.Pairwise (· < ·) := by
  rw [toList, List.pairwise_flatMap]
  constructor
  · intro i _
    rw [List.pairwise_map]
    exact (pairwise_setFlags _).imp fun lower => Nat.add_lt_add_left lower _
  · -- every pixel of a word comes before every pixel of a later word
    refine (List.pairwise_lt_finRange _).imp fun {i j} earlier p first q second => ?_
    obtain ⟨a, own, rfl⟩ := List.mem_map.mp first
    obtain ⟨b, _, rfl⟩ := List.mem_map.mp second
    have low := (mem_setFlags.mp own).1
    have next : (i : Nat) < j := earlier
    omega

theorem toList_eq_map_finRange {α : Type} {n : Nat} (xs : Vector α n) :
    xs.toList = (List.finRange n).map fun i => xs[i] := by
  refine List.ext_getElem ?_ fun i _ _ => ?_
  · rw [Vector.length_toList, List.length_map, List.length_finRange]
  · rw [Vector.getElem_toList, List.getElem_map, List.getElem_finRange]
    rfl

theorem count_eq_length_toList (m : DirtyMask) : m.count = m.toList.length := by
  have folded (words : List UInt64) (found : Nat) :
      words.foldl (fun found word => found + word.toBitVec.cpop.toNat) found =
        found + (words.map fun word => (setFlags word).length).sum := by
    induction words generalizing found with
    | nil => rfl
    | cons word words ih =>
      rw [List.foldl_cons, ih, List.map_cons, List.sum_cons, toNat_cpop, Nat.add_assoc]
  rw [count, ← Vector.foldl_toList, folded, Nat.zero_add, toList_eq_map_finRange, List.map_map,
    toList, List.length_flatMap]
  refine congrArg List.sum (List.map_congr_left fun i _ => ?_)
  rw [Function.comp_apply, List.length_map]

/-! ### Marks and clears -/

/-- What can be done to a mask. -/
inductive Act where
  | mark (pixel : Nat)
  | clear

def apply (m : DirtyMask) : Act → DirtyMask
  | .mark pixel => m.mark pixel
  | .clear => m.clear

/-- The mask after some acts, beginning with nothing marked. -/
def run (acts : List Act) : DirtyMask := acts.foldl apply empty

/-- Whether a pixel index was marked after the last clear. -/
def Marked (acts : List Act) (pixel : Nat) : Prop :=
  ∃ before after, acts = before ++ .mark pixel :: after ∧ .clear ∉ after

theorem not_marked_nil (p : Nat) : ¬ Marked [] p := by
  rintro ⟨before, after, parts, _⟩
  exact List.cons_ne_nil _ _ (List.append_eq_nil_iff.mp parts.symm).2

theorem marked_cons {act : Act} {acts : List Act} {p : Nat} :
    Marked (act :: acts) p ↔ (act = .mark p ∧ .clear ∉ acts) ∨ Marked acts p := by
  constructor
  · rintro ⟨before, after, parts, kept⟩
    rcases List.cons_eq_append_iff.mp parts with ⟨rfl, here⟩ | ⟨before, rfl, later⟩
    · obtain ⟨same, rest⟩ := List.cons.inj here
      exact .inl ⟨same.symm, rest ▸ kept⟩
    · exact .inr ⟨before, after, later, kept⟩
  · rintro (⟨rfl, kept⟩ | ⟨before, after, rfl, kept⟩)
    · exact ⟨[], acts, rfl, kept⟩
    · exact ⟨act :: before, after, rfl, kept⟩

theorem contains_foldl (acts : List Act) (m : DirtyMask) (p : Nat) :
    (acts.foldl apply m).contains p = true ↔
      (p < Screen.pixels ∧ Marked acts p) ∨ (.clear ∉ acts ∧ m.contains p = true) := by
  induction acts generalizing m with
  | nil => simp [not_marked_nil]
  | cons act acts ih =>
    rw [List.foldl_cons, ih, marked_cons]
    cases act with
    | mark q =>
      simp only [apply, contains_mark, Bool.or_eq_true, Bool.and_eq_true, decide_eq_true_eq]
      grind
    | clear => simp [apply, clear_eq_empty]

/-- After any marks and clears the mask lists what was marked since the last clear: each pixel of the
screen once, in ascending order, and no other index. It counts as many pixels as it lists, and an
index beyond the screen changes nothing when it is marked. -/
theorem run_exact (acts : List Act) :
    (∀ p, p ∈ (run acts).toList ↔ p < Screen.pixels ∧ Marked acts p) ∧
    (run acts).toList.Pairwise (· < ·) ∧
    (run acts).count = (run acts).toList.length ∧
    ∀ p, Screen.pixels ≤ p → (run acts).mark p = run acts := by
  refine ⟨fun p => ?_, pairwise_toList _, count_eq_length_toList _, fun p => mark_of_le _⟩
  rw [mem_toList, run, contains_foldl, contains_empty]
  simp

end DirtyMask

end FantasyConsole
