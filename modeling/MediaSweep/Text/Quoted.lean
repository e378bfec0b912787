import MediaSweep.Text.Hidden

/-!
# Texts in messages

A message shows a text between double quotes, with escapes for what could not be seen: the quote
and the backslash get a backslash before them, the tab, the line ends and the character with code
zero have short escapes, and every other character that cannot be seen by itself is shown by its code.
-/

namespace MediaSweep.Text

set_option autoImplicit false

/-- How a character is shown between quotes. -/
def shown (c : Char) : String :=
  match c with
  | '\x00' => "\\0"
  | '\t' => "\\t"
  | '\r' => "\\r"
  | '\n' => "\\n"
  | '"' => "\\\""
  | '\\' => "\\\\"
  | c =>
    if isHidden c then
      "\\u\x7b" ++ String.ofList (Nat.toDigits 16 c.toNat) ++ "\x7d"
    else c.toString

/-- A text as messages show it. -/
def quoted (text : String) : String :=
  "\"" ++ String.join (text.toList.map shown) ++ "\""

end MediaSweep.Text
