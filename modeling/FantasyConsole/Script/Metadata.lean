import FantasyConsole.Text.Blank

/-!
# Metadata tags

A program says things about itself in comments: after the comment mark and a blank come the name of
a tag, a colon and the value, which runs to the end of the line.
-/

namespace FantasyConsole

namespace Metadata

/-- What follows the first occurrence of a key in a text. -/
def after? (key : List Char) : List Char → Option (List Char)
  | [] => if key.isEmpty then some [] else none
  | c :: cs => if key.isPrefixOf (c :: cs) then some ((c :: cs).drop key.length) else after? key cs

/-- The part of a text before the first newline; `none` when there is no newline. -/
def line? (cs : List Char) : Option (List Char) :=
  if cs.contains '\n' then some (cs.takeWhile (· != '\n')) else none

/-- The characters that introduce a tag. -/
def key (comment tag : String) : List Char := comment.toList ++ ' ' :: tag.toList ++ [':']

/-- The value of a tag in a program, without the blanks around it. The line must end with a
newline. -/
def tag? (code tag comment : String) : Option String := do
  let rest ← after? (key comment tag) code.toList
  let value ← line? rest
  return String.ofList (Text.trim value)

/-- The longest part at the beginning of a text that has at most `limit` bytes. -/
def takeBytes (limit : Nat) : List Char → List Char
  | [] => []
  | c :: cs => if c.utf8Size ≤ limit then c :: takeBytes (limit - c.utf8Size) cs else []

/-- Whether a text can be cut at byte `n`: a character begins there, or the text ends. -/
abbrev IsBoundary (s : String) (n : Nat) : Prop := (String.Pos.Raw.mk n).IsValid s

/-- The last byte at or before byte `len` where a text can be cut, found byte by byte backwards. Fails
where there is no byte left to step back over. -/
def boundaryBefore? (s : String) (len : Nat) : Option Nat :=
  if IsBoundary s len then some len
  else
    match len with
    | 0 => none
    | len + 1 => boundaryBefore? s len

/-- The first `len` bytes of a text. Fails where they would end within a character. -/
def firstBytes? (s : String) (len : Nat) : Option String :=
  if h : IsBoundary s len then some (String.extract s.startPos (s.pos ⟨len⟩ h)) else none

/-- Cuts a text to at most `limit` bytes, and to fewer where a character would be cut. -/
def cut? (limit : Nat) (s : String) : Option String :=
  (boundaryBefore? s (min s.utf8ByteSize limit)).bind (firstBytes? s)

/-- Number of bytes kept of a save id. -/
def saveIdBytes : Nat := 63

/-- The id under which a program's persistent memory is kept, empty if it names none. -/
def saveId (code comment : String) : String :=
  -- a text can always be cut
  (cut? saveIdBytes ((tag? code "saveid" comment).getD "")).getD ""

/-- The number of bytes of a text. -/
def byteLength : List Char → Nat
  | [] => 0
  | c :: cs => c.utf8Size + byteLength cs

theorem takeBytes_begins (limit : Nat) (cs : List Char) : takeBytes limit cs <+: cs := by
  fun_induction takeBytes limit cs with
  | case1 => exact List.prefix_refl _
  | case2 limit c cs _ ih => exact (List.prefix_cons_inj c).mpr ih
  | case3 => exact List.nil_prefix

theorem byteLength_takeBytes_le (limit : Nat) (cs : List Char) :
    byteLength (takeBytes limit cs) ≤ limit := by
  fun_induction takeBytes limit cs with
  | case1 => exact Nat.zero_le _
  | case2 limit c cs fits ih =>
    simp only [byteLength] at ih ⊢
    omega
  | case3 => exact Nat.zero_le _

end Metadata

end FantasyConsole
