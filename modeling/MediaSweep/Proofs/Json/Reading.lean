import Mathlib.Algebra.Field.Rat
import MediaSweep.Toml.Numeral

/-!
# Reading JSON

The program only writes JSON; this is the reader that other programs have for it.  A text stands for
one value with blank space around it.  Arrays and objects list their items with commas between them
and not behind the last one, and may be empty.  Names and texts stand between double quotes; control
characters must be escaped in them, and every character may be, one beyond sixteen bits by the two
halves of a surrogate pair.  Numbers are decimal, with no zero in front of other digits and at least
one digit on both sides of the point and in an exponent; what is read is their value, so that `10`,
`1e1` and `10.0` are one number.

Each reader takes the characters that are left and gives what it read with those that are left after
it, or nothing when they do not fit.  Two bounds, on the items in a row and on the depth of values
in values, are the number of characters: every item takes at least one, and so does every bracket.
-/

namespace MediaSweep

set_option autoImplicit false

/-- What a text of the format stands for. -/
inductive JsonTerm where
  | null
  | boolean (flag : Bool)
  | number (value : Rat)
  | string (text : String)
  | array (items : List JsonTerm)
  | object (members : List (String × JsonTerm))

namespace JsonTerm

/-- Blank space between the words of a text. -/
def isSpace (c : Char) : Bool :=
  c = ' ' || c = '\t' || c = '\n' || c = '\r'

/-- Leave out the blank space at the beginning. -/
def skipSpace (cs : List Char) : List Char :=
  cs.dropWhile isSpace

/-! ## Texts between quotes -/

/-- Read the character of an escape with four hexadecimal digits, behind the sign before them.  Half
of a surrogate pair stands for a character only with the other half, escaped like it. -/
def readCoded (cs : List Char) : Option (Char × List Char) := do
  let (code, rest) ← Toml.readHex 4 0 cs
  if 0xD800 ≤ code ∧ code < 0xDC00 then
    match rest with
    | '\\' :: 'u' :: rest => do
      let (low, left) ← Toml.readHex 4 0 rest
      if 0xDC00 ≤ low ∧ low < 0xE000 then
        some (Char.ofNat (0x10000 + (code - 0xD800) * 0x400 + (low - 0xDC00)), left)
      else none
    | _ => none
  else if code.isValidChar then some (Char.ofNat code, rest)
  else none

/-- Read what follows the backslash of an escape. -/
def readEscape : List Char → Option (Char × List Char)
  | '"' :: rest => some ('"', rest)
  | '\\' :: rest => some ('\\', rest)
  | '/' :: rest => some ('/', rest)
  | 'b' :: rest => some ('\x08', rest)
  | 'f' :: rest => some ('\x0c', rest)
  | 'n' :: rest => some ('\n', rest)
  | 'r' :: rest => some ('\r', rest)
  | 't' :: rest => some ('\t', rest)
  | 'u' :: rest => readCoded rest
  | _ => none

/-- Put a character before the text that was read. -/
def before (c : Char) (read : Option (List Char × List Char)) : Option (List Char × List Char) :=
  read.map fun (text, rest) => (c :: text, rest)

/-- Read a text behind its opening quote; `fuel` bounds its length. -/
def readQuoted (fuel : Nat) (cs : List Char) : Option (List Char × List Char) :=
  match fuel, cs with
  | _, '"' :: rest => some ([], rest)
  | fuel + 1, '\\' :: rest => do
    let (c, after) ← readEscape rest
    before c (readQuoted fuel after)
  | fuel + 1, c :: rest => if c < ' ' then none else before c (readQuoted fuel rest)
  | _, _ => none

/-! ## Numbers -/

/-- Read all digits that come first; there must be some. -/
def readDigits (cs : List Char) : Option (List Char × List Char) :=
  match cs.takeWhile Char.isDigit with
  | [] => none
  | digits => some (digits, cs.dropWhile Char.isDigit)

/-- Read the digits before the point; a zero stands alone. -/
def readWhole : List Char → Option (List Char × List Char)
  | '0' :: rest => some (['0'], rest)
  | cs => readDigits cs

/-- Read the point and the digits behind it, if there is one. -/
def readFraction : List Char → Option (List Char × List Char)
  | '.' :: rest => readDigits rest
  | cs => some ([], cs)

/-- Read an exponent, if there is one. -/
def readExponent (cs : List Char) : Option (Int × List Char) :=
  match cs with
  | [] => some (0, [])
  | c :: rest =>
    if c = 'e' ∨ c = 'E' then do
      let (negative, rest) := Toml.readSign rest
      let (digits, left) ← readDigits rest
      let size : Int := Nat.ofDigitChars 10 digits 0
      some (if negative then -size else size, left)
    else some (0, cs)

/-- Read a number behind its sign. -/
def readUnsigned (negative : Bool) (cs : List Char) : Option (JsonTerm × List Char) := do
  let (whole, rest) ← readWhole cs
  let (fraction, rest) ← readFraction rest
  let (exponent, rest) ← readExponent rest
  let digits : Int := Nat.ofDigitChars 10 (whole ++ fraction) 0
  let scale : Rat := 10 ^ (exponent - fraction.length)
  some (.number ((if negative then -digits else digits) * scale), rest)

/-- Read a number, perhaps with the sign of negative ones. -/
def readNumber : List Char → Option (JsonTerm × List Char)
  | '-' :: rest => readUnsigned true rest
  | cs => readUnsigned false cs

/-! ## Arrays and objects -/

section

variable {α : Type}

/-- Read items with commas between them, up to the closing sign behind the last one; `fuel` bounds
their number. -/
def readRow (close : Char) (item : List Char → Option (α × List Char)) (fuel : Nat)
    (cs : List Char) : Option (List α × List Char) :=
  match fuel with
  | 0 => none
  | fuel + 1 => do
    let (first, rest) ← item (skipSpace cs)
    match skipSpace rest with
    | [] => none
    | c :: rest =>
      if c = close then some ([first], rest)
      else if c = ',' then do
        let (others, left) ← readRow close item fuel rest
        some (first :: others, left)
      else none

/-- Read items behind the opening sign; there may be none. -/
def readGroup (close : Char) (item : List Char → Option (α × List Char)) (fuel : Nat)
    (cs : List Char) : Option (List α × List Char) :=
  match skipSpace cs with
  | [] => none
  | c :: rest => if c = close then some ([], rest) else readRow close item fuel (c :: rest)

end

/-- Read a name, a colon and a value. -/
def readMember (value : List Char → Option (JsonTerm × List Char)) (cs : List Char) :
    Option ((String × JsonTerm) × List Char) :=
  match cs with
  | '"' :: rest => do
    let (name, rest) ← readQuoted rest.length rest
    match skipSpace rest with
    | ':' :: rest => do
      let (term, left) ← value (skipSpace rest)
      some ((String.ofList name, term), left)
    | _ => none
  | _ => none

/-- Read a value that holds others at most `depth` deep; `fuel` bounds the number of items in each
of them. -/
def readNested (fuel depth : Nat) (cs : List Char) : Option (JsonTerm × List Char) :=
  match depth, cs with
  | _, 'n' :: 'u' :: 'l' :: 'l' :: rest => some (.null, rest)
  | _, 't' :: 'r' :: 'u' :: 'e' :: rest => some (.boolean true, rest)
  | _, 'f' :: 'a' :: 'l' :: 's' :: 'e' :: rest => some (.boolean false, rest)
  | _, '"' :: rest =>
    (readQuoted rest.length rest).map fun (text, left) => (.string (String.ofList text), left)
  | depth + 1, '[' :: rest =>
    (readGroup ']' (readNested fuel depth) fuel rest).map fun (items, left) => (.array items, left)
  | depth + 1, '\x7b' :: rest =>
    (readGroup '\x7d' (readMember (readNested fuel depth)) fuel rest).map
      fun (members, left) => (.object members, left)
  | _, cs => readNumber cs

/-- The value that a text stands for. -/
def ofText? (text : String) : Option JsonTerm := do
  let cs := text.toList
  let (term, rest) ← readNested cs.length cs.length (skipSpace cs)
  if skipSpace rest = [] then some term else none

end JsonTerm

end MediaSweep
