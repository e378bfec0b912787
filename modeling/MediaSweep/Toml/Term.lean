import MediaSweep.Toml.Assembly
import MediaSweep.Toml.Key
import MediaSweep.Toml.Moment
import MediaSweep.Toml.Numeral

/-!
# Reading values

The first character of a value tells what kind it is of.  Items of an array are divided by commas,
with a comma after the last one if one likes, and may be spread over lines with comments; entries of
a table between braces stay on one line and have no comma after the last one.  Arrays and such
tables hold each other up to a fixed depth.

A list of items is read by a loop with a bound.  The number of characters left is always enough,
because every item takes at least one.
-/

namespace MediaSweep.Toml

set_option autoImplicit false

/-- Read items up to the closing bracket, which may come first; `fuel` bounds their number. -/
def readItems {α : Type} (item : List Char → Option (α × List Char)) (fuel : Nat)
    (cs : List Char) : Option (List α × List Char) :=
  match fuel with
  | 0 => none
  | fuel + 1 => do
    match ← skipFiller false cs with
    | ']' :: rest => some ([], rest)
    | start =>
      let (first, rest) ← item start
      match ← skipFiller false rest with
      | ']' :: left => some ([first], left)
      | ',' :: more => do
        let (others, left) ← readItems item fuel more
        some (first :: others, left)
      | _ => none

/-- Read entries up to the closing brace, which may not come first; `fuel` bounds their number. -/
def readEntries {α : Type} (entry : List Char → Option (α × List Char)) (fuel : Nat)
    (cs : List Char) : Option (List α × List Char) :=
  match fuel with
  | 0 => none
  | fuel + 1 => do
    let (first, rest) ← entry cs
    match skipGaps rest with
    | '\x7d' :: left => some ([first], left)
    | ',' :: more => do
      let (others, left) ← readEntries entry fuel more
      some (first :: others, left)
    | _ => none

/-- Read a path, an equals sign and a value. -/
def readEntry (value : List Char → Option (Value × List Char)) (cs : List Char) :
    Option ((List String × Value) × List Char) := do
  let (path, rest) ← readKeyPath cs
  match rest with
  | '=' :: rest => do
    let (v, left) ← value (skipGaps rest)
    some ((path, v), left)
  | _ => none

/-- Read an array behind its opening bracket. -/
def readArray (value : List Char → Option (Value × List Char)) (fuel : Nat) (cs : List Char) :
    Option (Value × List Char) :=
  (readItems value fuel cs).map fun (items, rest) => (.array items, rest)

/-- Read a table behind its opening brace. -/
def readInlineTable (value : List Char → Option (Value × List Char)) (fuel : Nat)
    (cs : List Char) : Option (Value × List Char) :=
  match skipGaps cs with
  | '\x7d' :: rest => some (.table (.empty .inlined), rest)
  | _ => do
    let (entries, rest) ← readEntries (readEntry value) fuel cs
    let content ← Table.ofInline entries
    some (.table content, rest)

/-- Read a date, a time or a number. -/
def readScalar (cs : List Char) : Option (Value × List Char) :=
  match readMoment cs with
  | .read rest => some (.moment, rest)
  | .broken => none
  | .absent => readNumber cs

/-- Read a value that holds others at most `depth` deep; `fuel` bounds the number of items in each
of them. -/
def readNested (fuel depth : Nat) (cs : List Char) : Option (Value × List Char) :=
  match depth, cs with
  | _, '"' :: _ => (readText cs).map fun (text, rest) => (.string (String.ofList text), rest)
  | _, '\'' :: _ => (readText cs).map fun (text, rest) => (.string (String.ofList text), rest)
  | _, 't' :: 'r' :: 'u' :: 'e' :: rest => some (.boolean true, rest)
  | _, 'f' :: 'a' :: 'l' :: 's' :: 'e' :: rest => some (.boolean false, rest)
  | depth + 1, '[' :: rest => readArray (readNested fuel depth) fuel rest
  | depth + 1, '\x7b' :: rest => readInlineTable (readNested fuel depth) fuel rest
  | _, _ => readScalar cs

/-- Read a value with at most `fuel` items in each of its arrays and tables. -/
def readValue (fuel : Nat) (cs : List Char) : Option (Value × List Char) :=
  readNested fuel (depthLimit - 1) cs

end MediaSweep.Toml
