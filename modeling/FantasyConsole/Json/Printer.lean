import FantasyConsole.Json.Value

/-!
# Writing JSON

A value is written as a list of pieces of text, one after the other and without blanks between them.
In a text only quotes, backslashes and control characters are escaped.
-/

namespace FantasyConsole

namespace Json

/-- A hexadecimal digit. -/
def hexDigit (n : Nat) : Char := Nat.digitChar (n % 16)

/-- A character of a text, escaped if it has to be. -/
def escapeChar (c : Char) : String :=
  if c = '"' then "\\\""
  else if c = '\\' then "\\\\"
  else if c.toNat < 0x20 then
    "\\u00" ++ String.ofList [hexDigit (c.toNat / 16), hexDigit c.toNat]
  else String.singleton c

/-- A string as a text, quotes included. -/
def renderString (s : String) : String := "\"" ++ String.join (s.toList.map escapeChar) ++ "\""

/-- A text, quotes included. A text that denotes no string is written as one half of a pair. -/
def renderText : JsonText → String
  | some s => renderString s
  | none => "\"\\ud800\""

mutual

/-- The pieces of a value. A number whose value plays no part is written as one such number. -/
def pieces : Json → List String
  | .null => ["null"]
  | .bool b => [toString b]
  | .int n => [toString n]
  | .fraction => ["0.5"]
  | .str s => [renderText s]
  | .arr [] => ["[]"]
  | .arr (item :: items) => "[" :: pieces item ++ piecesOfItems items ++ ["]"]
  | .obj [] => ["\x7b\x7d"]
  | .obj ((name, value) :: members) =>
    "\x7b" :: renderText name :: ":" :: pieces value ++ piecesOfMembers members ++ ["\x7d"]

/-- The pieces of the items after the first. -/
def piecesOfItems : List Json → List String
  | [] => []
  | item :: items => "," :: pieces item ++ piecesOfItems items

/-- The pieces of the members after the first. -/
def piecesOfMembers : List (JsonText × Json) → List String
  | [] => []
  | (name, value) :: members =>
    "," :: renderText name :: ":" :: pieces value ++ piecesOfMembers members

end

/-- A value as a document. -/
def render (j : Json) : String := String.join j.pieces

end Json

end FantasyConsole
