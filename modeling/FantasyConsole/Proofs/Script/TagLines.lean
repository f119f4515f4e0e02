import FantasyConsole.Proofs.Machine.Session
import FantasyConsole.Proofs.Script.Cuts
import Mathlib.Data.List.Infix

/-!
# The line of a tag

A tag is looked for in a program as a text, from the first character to the last. This module says
what that means for the lines of the program.

## Main result

`Metadata.tags_by_line`: the value of a tag stands on the first line that has the key of the tag
anywhere. Where that line begins with the key, the value is that of the first line that begins with
it, and the interpreter, the devices and the save id of a program are those that its lines name.

## Proof strategy

The key has no newline, so an occurrence in the program is one within a line. Both the search in the
text and the search in its lines follow the characters of the program, by induction.
-/

namespace FantasyConsole

namespace Metadata

/-! ### Lines that are closed -/

/-- The lines of a text that end with a newline, without it. -/
def closedLines (cs : List Char) : List (List Char) := (cs.splitOn '\n').dropLast

theorem closedLines_cons_newline (cs : List Char) :
    closedLines ('\n' :: cs) = [] :: closedLines cs := by
  rw [closedLines, List.splitOn, List.splitOnP_cons_eq_if_modifyHead, if_pos (beq_self_eq_true _),
    List.dropLast_cons_of_ne_nil (List.splitOnP_ne_nil _ _)]
  rfl

theorem closedLines_cons {c : Char} (inside : c ≠ '\n') (cs : List Char) :
    closedLines (c :: cs) = (closedLines cs).modifyHead (c :: ·) := by
  rw [closedLines, closedLines, List.splitOn, List.splitOnP_cons_eq_if_modifyHead,
    if_neg (mt eq_of_beq inside), List.splitOn]
  -- the character goes to the first piece of the rest, which is a closed line unless it is the last
  cases List.splitOnP (· == '\n') cs with
  | nil => rfl
  | cons first others => cases others <;> rfl

theorem closedLines_eq_nil {cs : List Char} (absent : closedLines cs = []) : '\n' ∉ cs := by
  induction cs with
  | nil => exact List.not_mem_nil
  | cons c cs ih =>
    by_cases newline : c = '\n'
    · subst newline
      rw [closedLines_cons_newline] at absent
      cases absent
    · rw [closedLines_cons newline, List.modifyHead_eq_nil_iff] at absent
      rw [List.mem_cons, not_or]
      exact ⟨Ne.symm newline, ih absent⟩

theorem closedLines_eq_cons {cs line : List Char} {lines : List (List Char)}
    (present : closedLines cs = line :: lines) :
    '\n' ∉ line ∧ ∃ rest, cs = line ++ '\n' :: rest := by
  induction cs generalizing line lines with
  | nil => cases present
  | cons c cs ih =>
    by_cases newline : c = '\n'
    · subst newline
      rw [closedLines_cons_newline] at present
      cases present
      exact ⟨List.not_mem_nil, cs, rfl⟩
    · rw [closedLines_cons newline] at present
      cases tail : closedLines cs with
      | nil =>
        rw [tail] at present
        cases present
      | cons first others =>
        rw [tail] at present
        cases present
        obtain ⟨single, rest, rfl⟩ := ih tail
        refine ⟨?_, rest, rfl⟩
        rw [List.mem_cons, not_or]
        exact ⟨Ne.symm newline, single⟩

/-! ### The first occurrence of a key -/

theorem after?_of_start {key cs : List Char} (begins : key <+: cs) :
    after? key cs = some (cs.drop key.length) := by
  cases cs with
  | nil =>
    obtain rfl := List.prefix_nil.mp begins
    rfl
  | cons c cs => rw [after?, if_pos (List.isPrefixOf_iff_prefix.mpr begins)]

theorem after?_cons_of_other {key : List Char} {c : Char} {cs : List Char}
    (starts : ¬ key <+: c :: cs) : after? key (c :: cs) = after? key cs := by
  rw [after?, if_neg (mt List.isPrefixOf_iff_prefix.mp starts)]

theorem after?_eq_none_iff {key cs : List Char} : after? key cs = none ↔ ¬ key <:+: cs := by
  induction cs with
  | nil => cases key <;> simp [after?]
  | cons c cs ih =>
    rw [List.infix_cons_iff, not_or]
    by_cases begins : key <+: c :: cs
    · rw [after?_of_start begins]
      simp [begins]
    · rw [after?_cons_of_other begins, ih]
      simp [begins]

/-- Text `head` stands before the first occurrence of a key, and `value` after it. -/
structure FirstAt (key cs head value : List Char) : Prop where
  parts : cs = head ++ key ++ value
  first : ∀ head' value', cs = head' ++ key ++ value' → head.length ≤ head'.length

theorem firstAt_of_after? {key cs value : List Char} (found : after? key cs = some value) :
    ∃ head, FirstAt key cs head value := by
  induction cs with
  | nil =>
    cases key with
    | nil =>
      cases found
      exact ⟨[], rfl, fun _ _ _ => Nat.zero_le _⟩
    | cons => cases found
  | cons c cs ih =>
    by_cases begins : key <+: c :: cs
    · rw [after?_of_start begins] at found
      obtain ⟨rest, parts⟩ := begins
      rw [← parts, List.drop_left] at found
      cases found
      exact ⟨[], parts.symm, fun _ _ _ => Nat.zero_le _⟩
    · rw [after?_cons_of_other begins] at found
      obtain ⟨head, here⟩ := ih found
      refine ⟨c :: head, congrArg (c :: ·) here.parts, ?_⟩
      -- no occurrence is at this character, and further on `head` is the shortest
      intro head' value' parts
      cases head' with
      | nil => exact absurd ⟨value', parts.symm⟩ begins
      | cons d head' =>
        exact Nat.succ_le_succ (here.first head' value' (List.cons.inj parts).2)

theorem FirstAt.value_eq {key cs head value head' value' : List Char}
    (one : FirstAt key cs head value) (other : FirstAt key cs head' value') : value = value' := by
  have length : head.length = head'.length :=
    Nat.le_antisymm (one.first head' value' other.parts) (other.first head value one.parts)
  have parts : head ++ (key ++ value) = head' ++ (key ++ value') := by
    rw [← List.append_assoc, ← List.append_assoc, ← one.parts, other.parts]
  exact List.append_cancel_left (List.append_inj_right parts length)

theorem after?_eq_some_iff {key cs value : List Char} :
    after? key cs = some value ↔ ∃ head, FirstAt key cs head value := by
  constructor
  · exact firstAt_of_after?
  · rintro ⟨head, here⟩
    cases found : after? key cs with
    | none => exact absurd ⟨head, value, here.parts.symm⟩ (after?_eq_none_iff.mp found)
    | some value' =>
      obtain ⟨_, there⟩ := firstAt_of_after? found
      rw [there.value_eq here]

/-! ### Occurrences in the text and in its lines -/

theorem line?_of_closed {cs line rest : List Char} (single : '\n' ∉ line)
    (parts : cs = line ++ '\n' :: rest) : line? cs = some line := by
  have inside : ∀ c ∈ line, (c != '\n') = true :=
    fun c member => bne_iff_ne.mpr fun newline => single (newline ▸ member)
  rw [line?, if_pos (by simp [parts]), parts, List.takeWhile_append_of_pos inside]
  simp

theorem line?_of_open {cs : List Char} (single : '\n' ∉ cs) : line? cs = none := by
  rw [line?, if_neg (by simpa using single)]

/-- A key within one line that begins a text begins its first line. -/
theorem prefix_of_line {key line rest : List Char} (keyLine : '\n' ∉ key)
    (begins : key <+: line ++ '\n' :: rest) : key <+: line := by
  have short : key.length ≤ line.length := by
    refine Nat.le_of_not_lt fun long => ?_
    -- the newline behind the line would be a character of the key
    obtain ⟨value, parts⟩ := begins
    have same := congrArg (·[line.length]?) parts
    have newline : key[line.length]? = some '\n' := by
      simpa [List.getElem?_append_left long] using same
    exact keyLine (List.mem_of_getElem? newline)
  exact List.prefix_of_prefix_length_le begins (List.prefix_append _ _) short

theorem line?_after?_of_start {key cs : List Char} (keyLine : '\n' ∉ key) (begins : key <+: cs) :
    (after? key cs).bind line? = (closedLines cs).findSome? (after? key) := by
  rw [after?_of_start begins]
  cases lines : closedLines cs with
  | nil =>
    exact line?_of_open fun member => closedLines_eq_nil lines (List.mem_of_mem_drop member)
  | cons line others =>
    obtain ⟨single, rest, rfl⟩ := closedLines_eq_cons lines
    have within := prefix_of_line keyLine begins
    rw [List.findSome?_cons, after?_of_start within]
    have single : '\n' ∉ line.drop key.length := fun member => single (List.mem_of_mem_drop member)
    exact line?_of_closed single (List.drop_append_of_le_length within.length_le)

theorem line?_after? {key : List Char} (keyLine : '\n' ∉ key) (nonempty : key ≠ [])
    (cs : List Char) :
    (after? key cs).bind line? = (closedLines cs).findSome? (after? key) := by
  have unlike : after? key [] = none := if_neg (by simpa using nonempty)
  induction cs with
  | nil =>
    rw [unlike]
    rfl
  | cons c cs ih =>
    by_cases begins : key <+: c :: cs
    · exact line?_after?_of_start keyLine begins
    · rw [after?_cons_of_other begins, ih]
      by_cases newline : c = '\n'
      · subst newline
        rw [closedLines_cons_newline, List.findSome?_cons, unlike]
      · rw [closedLines_cons newline]
        cases lines : closedLines cs with
        | nil => rfl
        | cons line others =>
          -- the key does not begin at the first character of the line either
          obtain ⟨_, rest, rfl⟩ := closedLines_eq_cons lines
          have later : ¬ key <+: c :: line :=
            fun within => begins (within.trans ⟨'\n' :: rest, rfl⟩)
          rw [List.modifyHead_cons, List.findSome?_cons, List.findSome?_cons,
            after?_cons_of_other later]

/-! ### The line of a tag -/

/-- The value of a tag on the first closed line that begins with its key, without the blanks around
it. -/
def lineTag? (code tag comment : String) : Option String :=
  ((closedLines code.toList).find? ((key comment tag).isPrefixOf ·)).map fun line =>
    String.ofList (Text.trim (line.drop (key comment tag).length))

/-- Whether the first closed line with the key of a tag in it, if there is one, begins with it. -/
def Leads (code tag comment : String) : Prop :=
  ∀ line ∈ (closedLines code.toList).find? (key comment tag <:+: ·), key comment tag <+: line

/-- Whether neither a comment mark nor a tag has a newline. -/
def OneLine (comment tag : String) : Prop := '\n' ∉ comment.toList ∧ '\n' ∉ tag.toList

instance (code tag comment : String) : Decidable (Leads code tag comment) :=
  inferInstanceAs (Decidable (∀ line ∈ _, key comment tag <+: line))

instance (comment tag : String) : Decidable (OneLine comment tag) :=
  inferInstanceAs (Decidable (_ ∧ _))

theorem key_ne_nil (comment tag : String) : key comment tag ≠ [] := by simp [key]

theorem OneLine.key {comment tag : String} (oneLine : OneLine comment tag) :
    '\n' ∉ key comment tag := by
  have marks : '\n' ≠ ' ' ∧ '\n' ≠ ':' := by decide
  simp [Metadata.key, oneLine.1, oneLine.2, marks]

/-- The value of a tag stands on the first closed line with the key in it, after the key. -/
theorem tag?_eq_findSome? {comment tag : String} (oneLine : OneLine comment tag) (code : String) :
    tag? code tag comment =
      ((closedLines code.toList).findSome? (after? (key comment tag))).map fun value =>
        String.ofList (Text.trim value) := by
  rw [← line?_after? oneLine.key (key_ne_nil comment tag)]
  unfold tag?
  cases after? (key comment tag) code.toList with
  | none => rfl
  | some rest => exact (Option.map_eq_bind ..).symm

theorem findSome?_after? {key : List Char} {lines : List (List Char)}
    (leads : ∀ line ∈ lines.find? (key <:+: ·), key <+: line) :
    lines.findSome? (after? key) =
      (lines.find? (key.isPrefixOf ·)).map fun line => line.drop key.length := by
  induction lines with
  | nil => rfl
  | cons line lines ih =>
    rw [List.findSome?_cons, List.find?_cons]
    by_cases within : key <:+: line
    · -- this is the first line with the key, so it begins with it
      have begins : key <+: line := leads line (by simp [within])
      rw [after?_of_start begins, List.isPrefixOf_iff_prefix.mpr begins]
      rfl
    · have starts : key.isPrefixOf line = false :=
        Bool.eq_false_iff.mpr fun begins => within (List.isPrefixOf_iff_prefix.mp begins).isInfix
      rw [after?_eq_none_iff.mpr within, starts]
      exact ih fun line found => leads line (by simpa [within] using found)

theorem tag?_eq_lineTag? {code comment tag : String} (oneLine : OneLine comment tag)
    (leads : Leads code tag comment) : tag? code tag comment = lineTag? code tag comment := by
  rw [tag?_eq_findSome? oneLine, findSome?_after? leads, Option.map_map]
  rfl

theorem lineTag?_eq_some_iff {code comment tag v : String} :
    lineTag? code tag comment = some v ↔
      ∃ before value later,
        closedLines code.toList = before ++ (key comment tag ++ value) :: later ∧
        (∀ line ∈ before, ¬ key comment tag <+: line) ∧ String.ofList (Text.trim value) = v := by
  rw [lineTag?, Option.map_eq_some_iff]
  constructor
  · rintro ⟨line, found, trimmed⟩
    obtain ⟨begins, before, later, parts, others⟩ := List.find?_eq_some_iff_append.mp found
    obtain ⟨value, rfl⟩ := List.isPrefixOf_iff_prefix.mp begins
    rw [List.drop_left] at trimmed
    refine ⟨before, value, later, parts, ?_, trimmed⟩
    intro line member starts
    simpa [List.isPrefixOf_iff_prefix.mpr starts] using others line member
  · rintro ⟨before, value, later, parts, others, trimmed⟩
    have begins := List.isPrefixOf_iff_prefix.mpr (List.prefix_append (key comment tag) value)
    refine ⟨key comment tag ++ value,
      List.find?_eq_some_iff_append.mpr ⟨begins, before, later, parts, ?_⟩, ?_⟩
    · intro line member
      have starts := Bool.eq_false_iff.mpr (mt List.isPrefixOf_iff_prefix.mp (others line member))
      simpa using starts
    · rw [List.drop_left]
      exact trimmed

theorem tag?_eq_some_iff {code comment tag v : String} (oneLine : OneLine comment tag) :
    tag? code tag comment = some v ↔
      ∃ before line later head value, closedLines code.toList = before ++ line :: later ∧
        (∀ other ∈ before, ¬ key comment tag <:+: other) ∧
        FirstAt (key comment tag) line head value ∧ String.ofList (Text.trim value) = v := by
  rw [tag?_eq_findSome? oneLine, Option.map_eq_some_iff]
  constructor
  · rintro ⟨value, found, trimmed⟩
    obtain ⟨before, line, later, parts, here, others⟩ := List.findSome?_eq_some_iff.mp found
    obtain ⟨head, first⟩ := after?_eq_some_iff.mp here
    exact ⟨before, line, later, head, value, parts,
      fun other member => after?_eq_none_iff.mp (others other member), first, trimmed⟩
  · rintro ⟨before, line, later, head, value, parts, others, first, trimmed⟩
    refine ⟨value, List.findSome?_eq_some_iff.mpr ⟨before, line, later, parts, ?_, ?_⟩, trimmed⟩
    · exact after?_eq_some_iff.mpr ⟨head, first⟩
    · exact fun other member => after?_eq_none_iff.mpr (others other member)

/-! ### What the tags of a program decide -/

variable {σ : Type}

theorem findIdx?_congr {α : Type} {xs : Array α} {p q : α → Bool} (same : ∀ x ∈ xs, p x = q x) :
    xs.findIdx? p = xs.findIdx? q := by
  obtain ⟨xs⟩ := xs
  rw [List.findIdx?_toArray, List.findIdx?_toArray]
  induction xs with
  | nil => rfl
  | cons x xs ih =>
    rw [List.findIdx?_cons, List.findIdx?_cons, same x (by simp)]
    rw [ih fun y member => same y (by simp at member ⊢; exact .inr member)]

/-- The interpreter for a program: the first that a line of the program asks for, else the first of
all. -/
def lineSelect? (interpreters : Array (Interpreter σ)) (code : String) : Option Nat :=
  if interpreters.isEmpty then none
  else some ((interpreters.findIdx? fun interp =>
    (lineTag? code "script" interp.comment).any interp.names.contains).getD 0)

theorem select?_eq_lineSelect? {interpreters : Array (Interpreter σ)} {code : String}
    (leads : ∀ interp ∈ interpreters,
      OneLine interp.comment "script" ∧ Leads code "script" interp.comment) :
    Interpreter.select? interpreters code = lineSelect? interpreters code := by
  have asked : interpreters.findIdx? (·.isNamedBy code) = interpreters.findIdx? fun interp =>
      (lineTag? code "script" interp.comment).any interp.names.contains := by
    refine findIdx?_congr fun interp member => ?_
    obtain ⟨oneLine, first⟩ := leads interp member
    rw [Interpreter.isNamedBy, tag?_eq_lineTag? oneLine first]
  rw [Interpreter.select?, lineSelect?, asked]

/-- For a comment mark and a tag without a newline: the value of a tag is what follows the first
occurrence of its key on the first closed line that has the key anywhere. If that line begins with
the key, the value is what follows the key on the first closed line that begins with it, and there
is no value without such a line. If that holds for the tags that choose the interpreter, the devices
and the save id, these are the ones that the lines of the program name. -/
theorem tags_by_line (code : String) :
    (∀ tag comment v, OneLine comment tag →
      (tag? code tag comment = some v ↔
        ∃ before line later head value, closedLines code.toList = before ++ line :: later ∧
          (∀ other ∈ before, ¬ key comment tag <:+: other) ∧
          FirstAt (key comment tag) line head value ∧ String.ofList (Text.trim value) = v)) ∧
    (∀ tag comment v, OneLine comment tag → Leads code tag comment →
      (tag? code tag comment = some v ↔
        ∃ before value later,
          closedLines code.toList = before ++ (key comment tag ++ value) :: later ∧
          (∀ other ∈ before, ¬ key comment tag <+: other) ∧
          String.ofList (Text.trim value) = v)) ∧
    (∀ interpreters : Array (Interpreter σ),
      (∀ interp ∈ interpreters,
        OneLine interp.comment "script" ∧ Leads code "script" interp.comment) →
      Interpreter.select? interpreters code = lineSelect? interpreters code) ∧
    (∀ comment c, OneLine comment "input" → Leads code "input" comment →
      (Machine.selectDevices code comment c).state.devices =
        .ofTag (lineTag? code "input" comment)) ∧
    (∀ comment, OneLine comment "saveid" → Leads code "saveid" comment →
      saveId code comment = String.ofList
        (takeBytes saveIdBytes ((lineTag? code "saveid" comment).getD "").toList)) := by
  refine ⟨fun tag comment v => tag?_eq_some_iff, ?_, fun _ => select?_eq_lineSelect?, ?_, ?_⟩
  · intro tag comment v oneLine leads
    rw [tag?_eq_lineTag? oneLine leads, lineTag?_eq_some_iff]
  · intro comment c oneLine leads
    rw [← tag?_eq_lineTag? oneLine leads]
    rfl
  · intro comment oneLine leads
    rw [saveId_eq_takeBytes, tag?_eq_lineTag? oneLine leads]

/-- A program whose header names the second of two interpreters and a save id, and that has the key
of a tag in a text further down. -/
theorem tags_by_line_header :
    let code := "-- script: js\n-- saveid:  game \nprint('-- script: lua')\n"
    let lua := { Machine.restless with names := ["lua"] }
    let js := { Machine.restless with names := ["js"] }
    tag? code "script" "--" = some "js" ∧ Interpreter.select? #[lua, js] code = some 1 ∧
      saveId code "--" = "game" := by
  intro code lua js
  have script : OneLine "--" "script" ∧ Leads code "script" "--" := by decide +kernel
  have named : OneLine "--" "saveid" ∧ Leads code "saveid" "--" := by decide +kernel
  have lines : closedLines code.toList = (key "--" "script" ++ " js".toList) ::
      ["-- saveid:  game ".toList, "print('-- script: lua')".toList] := by
    decide +kernel
  obtain ⟨_, value, select, _, saved⟩ := @tags_by_line Unit code
  refine ⟨?_, ?_, ?_⟩
  · refine (value "script" "--" "js" script.1 script.2).mpr ⟨[], " js".toList, _, lines, ?_, ?_⟩
    · exact fun _ member => absurd member List.not_mem_nil
    · decide
  · rw [select #[lua, js] (by simp [lua, js, Machine.restless, script])]
    decide +kernel
  · rw [saved "--" named.1 named.2]
    decide +kernel

/-- A key behind other text on its line gives a value to a tag that no line begins with, and the
program runs on another interpreter. -/
theorem tag_within_line :
    let code := "x = 1 -- script: js\n"
    let lua := { Machine.restless with names := ["lua"] }
    let js := { Machine.restless with names := ["js"] }
    OneLine "--" "script" ∧ (∀ line ∈ closedLines code.toList, ¬ key "--" "script" <+: line) ∧
      tag? code "script" "--" = some "js" ∧
      Interpreter.select? #[lua, js] code = some 1 ∧ lineSelect? #[lua, js] code = some 0 := by
  intro code lua js
  refine ⟨?_, ?_, ?_, ?_, ?_⟩ <;> decide +kernel

end Metadata

end FantasyConsole
