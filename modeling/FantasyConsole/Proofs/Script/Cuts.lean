import FantasyConsole.Script.Metadata

/-!
# Cutting a text to a number of bytes

A save id is cut to a number of bytes, and a character may take up to four of them. Where the limit
falls within a character, the cut steps back to the byte where that character begins.

## Main result

`Metadata.saveId_longest`: the save id is the longest beginning of the value of its tag that has at
most 63 bytes and cuts no character. The byte where it ends is found in at most three steps back,
none of them from byte 0.

## Proof strategy

A byte where no character is cut is the number of bytes of some characters at the beginning of the
text. Taking characters as long as they fit leads to the last such byte below a limit, and less than
one character is missing to the limit.
-/

namespace FantasyConsole

namespace Metadata

/-! ### Bytes of characters -/

theorem byteLength_eq_utf8ByteSize (cs : List Char) :
    byteLength cs = (String.ofList cs).utf8ByteSize := by
  induction cs with
  | nil => rfl
  | cons c cs ih =>
    rw [byteLength, ih, String.ofList_cons, String.utf8ByteSize_append,
      String.utf8ByteSize_singleton]

theorem byteLength_append (cs ds : List Char) :
    byteLength (cs ++ ds) = byteLength cs + byteLength ds := by
  rw [byteLength_eq_utf8ByteSize, String.ofList_append, String.utf8ByteSize_append,
    ← byteLength_eq_utf8ByteSize, ← byteLength_eq_utf8ByteSize]

theorem byteLength_le_of_begins {cs ds : List Char} (begins : cs <+: ds) :
    byteLength cs ≤ byteLength ds := by
  obtain ⟨rest, rfl⟩ := begins
  rw [byteLength_append]
  exact Nat.le_add_right _ _

theorem isBoundary_iff {s : String} {n : Nat} :
    IsBoundary s n ↔ ∃ cs, cs <+: s.toList ∧ byteLength cs = n := by
  rw [IsBoundary, String.Pos.Raw.isValid_iff_exists_take_toList]
  constructor
  · rintro ⟨i, length⟩
    exact ⟨s.toList.take i, List.take_prefix _ _, (byteLength_eq_utf8ByteSize _).trans length.symm⟩
  · rintro ⟨cs, begins, rfl⟩
    refine ⟨cs.length, ?_⟩
    rw [← List.prefix_iff_eq_take.mp begins]
    exact byteLength_eq_utf8ByteSize cs

/-! ### Taking characters while they fit -/

/-- Nothing longer than what is taken fits. -/
theorem begins_takeBytes {cs ds : List Char} {limit : Nat} (begins : cs <+: ds)
    (fits : byteLength cs ≤ limit) : cs <+: takeBytes limit ds := by
  induction cs generalizing ds limit with
  | nil => exact List.nil_prefix
  | cons c cs ih =>
    obtain ⟨rest, rfl⟩ := begins
    simp only [byteLength] at fits
    rw [List.cons_append, takeBytes, if_pos (by omega)]
    exact (List.prefix_cons_inj c).mpr (ih (List.prefix_append _ _) (by omega))

/-- Less than one character is missing to the limit. -/
theorem lt_byteLength_takeBytes_add_four {limit : Nat} {cs : List Char}
    (long : limit ≤ byteLength cs) : limit < byteLength (takeBytes limit cs) + 4 := by
  fun_induction takeBytes limit cs with
  | case1 limit =>
    simp only [byteLength] at long ⊢
    omega
  | case2 limit c cs fits ih =>
    simp only [byteLength] at long ⊢
    have rest := ih (by omega)
    omega
  | case3 limit c cs large =>
    have four := c.utf8Size_le_four
    simp only [byteLength]
    omega

theorem isBoundary_takeBytes (s : String) (limit : Nat) :
    IsBoundary s (byteLength (takeBytes limit s.toList)) :=
  isBoundary_iff.mpr ⟨_, takeBytes_begins _ _, rfl⟩

theorem le_takeBytes {s : String} {n limit : Nat} (boundary : IsBoundary s n)
    (fits : n ≤ limit) : n ≤ byteLength (takeBytes limit s.toList) := by
  obtain ⟨cs, begins, rfl⟩ := isBoundary_iff.mp boundary
  exact byteLength_le_of_begins (begins_takeBytes begins fits)

/-! ### The search -/

/-- From byte `first` to byte `last` in some steps back, each from a byte where a character is cut,
until none is. -/
structure StepsBack (s : String) (first last steps : Nat) : Prop where
  back : last + steps = first
  cuts : ∀ n, last < n → n ≤ first → ¬ IsBoundary s n
  ends : IsBoundary s last

theorem boundaryBefore?_eq (s : String) (len : Nat) :
    boundaryBefore? s len = some (byteLength (takeBytes len s.toList)) := by
  fun_induction boundaryBefore? s len with
  | case1 len boundary =>
    exact congrArg some
      (Nat.le_antisymm (le_takeBytes boundary (Nat.le_refl _)) (byteLength_takeBytes_le _ _))
  | case2 cut => exact absurd String.Pos.Raw.isValid_zero cut
  | case3 len cut ih =>
    -- byte `len + 1` is no boundary, so the limits `len + 1` and `len` lead to the same byte
    have here := isBoundary_takeBytes s (len + 1)
    have other : byteLength (takeBytes (len + 1) s.toList) ≠ len + 1 := by
      intro same
      rw [same] at here
      exact cut here
    have upper := byteLength_takeBytes_le (len + 1) s.toList
    have lower := byteLength_takeBytes_le len s.toList
    have small : byteLength (takeBytes (len + 1) s.toList) ≤ len := by omega
    have large : byteLength (takeBytes len s.toList) ≤ len + 1 := by omega
    rw [ih]
    exact congrArg some (Nat.le_antisymm (le_takeBytes (isBoundary_takeBytes s len) large)
      (le_takeBytes here small))

theorem stepsBack_takeBytes {s : String} {len : Nat} (inside : len ≤ s.utf8ByteSize) :
    ∃ steps ≤ 3, StepsBack s len (byteLength (takeBytes len s.toList)) steps := by
  have upper := byteLength_takeBytes_le len s.toList
  have long : len ≤ byteLength s.toList := by
    rwa [byteLength_eq_utf8ByteSize, String.ofList_toList]
  have near := lt_byteLength_takeBytes_add_four long
  refine ⟨len - byteLength (takeBytes len s.toList), by omega, by omega, ?_, ?_⟩
  · intro n beyond fits boundary
    exact Nat.not_le.mpr beyond (le_takeBytes boundary fits)
  · exact isBoundary_takeBytes s len

/-! ### The cut -/

theorem toByteArray_of_begins {s : String} {cs : List Char} (begins : cs <+: s.toList) :
    (String.ofList cs).toByteArray = s.toByteArray.extract 0 (byteLength cs) := by
  obtain ⟨rest, parts⟩ := begins
  have whole : s = String.ofList cs ++ String.ofList rest := by
    rw [← String.ofList_append, parts, String.ofList_toList]
  have size : byteLength cs = (String.ofList cs).toByteArray.size := byteLength_eq_utf8ByteSize cs
  rw [whole, String.toByteArray_append, ByteArray.extract_append_eq_left size]

theorem firstBytes?_byteLength {s : String} {cs : List Char} (begins : cs <+: s.toList) :
    firstBytes? s (byteLength cs) = some (String.ofList cs) := by
  have boundary : IsBoundary s (byteLength cs) := isBoundary_iff.mpr ⟨cs, begins, rfl⟩
  rw [firstBytes?, dif_pos boundary]
  refine congrArg some (String.toByteArray_inj.mp ?_)
  rw [toByteArray_of_begins begins]
  exact String.toByteArray_extract

theorem takeBytes_of_le {limit : Nat} {cs : List Char} (fits : byteLength cs ≤ limit) :
    takeBytes limit cs = cs :=
  (takeBytes_begins limit cs).eq_of_length_le (begins_takeBytes (List.prefix_refl cs) fits).length_le

/-- Bytes past the end of a text do not count. -/
theorem takeBytes_min (limit : Nat) (s : String) :
    takeBytes (min s.utf8ByteSize limit) s.toList = takeBytes limit s.toList := by
  have size : byteLength s.toList = s.utf8ByteSize := by
    rw [byteLength_eq_utf8ByteSize, String.ofList_toList]
  by_cases fits : s.utf8ByteSize ≤ limit
  · rw [Nat.min_eq_left fits, takeBytes_of_le (Nat.le_of_eq size), takeBytes_of_le (size ▸ fits)]
  · rw [Nat.min_eq_right (Nat.le_of_not_le fits)]

/-- A text can always be cut. -/
theorem cut?_eq (limit : Nat) (s : String) :
    cut? limit s = some (String.ofList (takeBytes limit s.toList)) := by
  rw [cut?, boundaryBefore?_eq, takeBytes_min]
  exact firstBytes?_byteLength (takeBytes_begins _ _)

example : cut? 4 "aéé€" = some "aé" := by decide +kernel

theorem saveId_eq_takeBytes (code comment : String) :
    saveId code comment =
      String.ofList (takeBytes saveIdBytes ((tag? code "saveid" comment).getD "").toList) := by
  rw [saveId, cut?_eq]
  rfl

/-- The save id of a program is the beginning of the value of its tag, which is empty if there is
none. The search for its last byte begins at the limit, or where a shorter value ends, steps back at
most three times, each time from a byte within a character, and ends where no character is cut. The
save id consists of the bytes before that one, no other such byte up to the limit is further on, and
a value that fits is kept as it is. -/
theorem saveId_longest (code comment : String) :
    let value := (tag? code "saveid" comment).getD ""
    let first := min value.utf8ByteSize saveIdBytes
    (∃ last, boundaryBefore? value first = some last ∧
      (∃ steps ≤ 3, StepsBack value first last steps) ∧
      firstBytes? value last = some (saveId code comment) ∧
      (saveId code comment).toByteArray = value.toByteArray.extract 0 last ∧
      last ≤ saveIdBytes ∧ ∀ n ≤ saveIdBytes, IsBoundary value n → n ≤ last) ∧
    (value.utf8ByteSize ≤ saveIdBytes → saveId code comment = value) := by
  intro value first
  have cut : saveId code comment = String.ofList (takeBytes saveIdBytes value.toList) :=
    saveId_eq_takeBytes code comment
  have begins := takeBytes_begins saveIdBytes value.toList
  have same : takeBytes first value.toList = takeBytes saveIdBytes value.toList :=
    takeBytes_min saveIdBytes value
  rw [cut]
  refine ⟨⟨byteLength (takeBytes saveIdBytes value.toList), ?_, ?_, ?_, ?_, ?_, ?_⟩, ?_⟩
  · rw [boundaryBefore?_eq, same]
  · rw [← same]
    exact stepsBack_takeBytes (Nat.min_le_left _ _)
  · exact firstBytes?_byteLength begins
  · exact toByteArray_of_begins begins
  · exact byteLength_takeBytes_le _ _
  · exact fun n fits boundary => le_takeBytes boundary fits
  · intro fits
    have size : byteLength value.toList ≤ saveIdBytes := by
      rwa [byteLength_eq_utf8ByteSize, String.ofList_toList]
    rw [takeBytes_of_le size, String.ofList_toList]

end Metadata

end FantasyConsole
