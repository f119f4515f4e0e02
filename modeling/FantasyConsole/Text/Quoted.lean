import FantasyConsole.Text.Printable

/-!
# Quoted texts

A quoted text stands between double quotes. Quotes and backslashes are escaped, and so is every
character that is not printable.
-/

namespace FantasyConsole

namespace Text

/-- A character of a quoted text. -/
def quoteChar (c : Char) : String :=
  match c with
  | '"' => "\\\""
  | '\\' => "\\\\"
  | '\t' => "\\t"
  | '\r' => "\\r"
  | '\n' => "\\n"
  | '\x00' => "\\0"
  | c =>
    if isPrintable c then String.singleton c
    else "\\u\x7b" ++ String.ofList (Nat.toDigits 16 c.toNat) ++ "\x7d"

/-- A text between quotes. -/
def quoted (s : String) : String := "\"" ++ String.join (s.toList.map quoteChar) ++ "\""

/-- A text between quotes, or the word for its absence. -/
def quotedOption : Option String → String
  | some s => "Some(" ++ quoted s ++ ")"
  | none => "None"

end Text

end FantasyConsole
