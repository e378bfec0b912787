/-!
# JSON

A value is printed over several lines: each item of an array and each member of an object stands on
a line of its own, two blanks further to the right than what it lies in.  Empty arrays and objects
take no line.  In strings the quote, the backslash and the control characters are escaped, and every
other character stands as it is.
-/

namespace MediaSweep

set_option autoImplicit false

/-- A value of the format; numbers are whole. -/
inductive JsonValue where
  | boolean (flag : Bool)
  | integer (number : Int)
  | string (text : String)
  | array (items : List JsonValue)
  | object (members : List (String × JsonValue))
  deriving Repr

namespace JsonValue

/-- How a character stands in a string. -/
def escapeChar (c : Char) : List Char :=
  match c with
  | '"' => ['\\', '"']
  | '\\' => ['\\', '\\']
  | '\x08' => ['\\', 'b']
  | '\x0c' => ['\\', 'f']
  | '\n' => ['\\', 'n']
  | '\r' => ['\\', 'r']
  | '\t' => ['\\', 't']
  | c =>
    if c < ' ' then
      ['\\', 'u', '0', '0', Nat.digitChar (c.toNat / 16), Nat.digitChar (c.toNat % 16)]
    else [c]

/-- A string, with its quotes. -/
def quoteChars (text : List Char) : List Char :=
  '"' :: text.flatMap escapeChar ++ ['"']

/-- A new line at some depth. -/
def lineAt (depth : Nat) : List Char :=
  '\n' :: List.replicate (2 * depth) ' '

mutual

/-- The text of a value that lies at some depth. -/
def printAt (depth : Nat) : JsonValue → List Char
  | boolean flag => (if flag then "true" else "false").toList
  | integer number => (toString number).toList
  | string text => quoteChars text.toList
  | array [] => ['[', ']']
  | array (item :: items) =>
    '[' :: lineAt (depth + 1) ++ printAt (depth + 1) item ++ printItems (depth + 1) items
      ++ lineAt depth ++ [']']
  | object [] => ['\x7b', '\x7d']
  | object ((name, value) :: members) =>
    '\x7b' :: lineAt (depth + 1) ++ quoteChars name.toList ++ [':', ' ']
      ++ printAt (depth + 1) value ++ printMembers (depth + 1) members ++ lineAt depth ++ ['\x7d']

/-- The text of the items after the first one. -/
def printItems (depth : Nat) : List JsonValue → List Char
  | [] => []
  | item :: items => ',' :: lineAt depth ++ printAt depth item ++ printItems depth items

/-- The text of the members after the first one. -/
def printMembers (depth : Nat) : List (String × JsonValue) → List Char
  | [] => []
  | (name, value) :: members =>
    ',' :: lineAt depth ++ quoteChars name.toList ++ [':', ' '] ++ printAt depth value
      ++ printMembers depth members

end

/-- The text of a value that lies in no other one. -/
def print (value : JsonValue) : String :=
  String.ofList (printAt 0 value)

end JsonValue

end MediaSweep
