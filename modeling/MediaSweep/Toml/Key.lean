import MediaSweep.Toml.QuotedText

/-!
# Keys

A key is a bare word of letters, digits, hyphens and underscores, or a text quoted on one line.
Keys joined by points form a path; blanks may stand around each of them.  A path has fewer than
eighty parts.
-/

namespace MediaSweep.Toml

set_option autoImplicit false

/-- Whether a character can be part of a bare key. -/
def isBareKeyChar (c : Char) : Bool :=
  c.isAlphanum || c = '_' || c = '-'

/-- How deep paths and values may go: this is too deep. -/
def depthLimit : Nat := 80

/-- Read one key; a bare one has at least one character. -/
def readKey (cs : List Char) : Reading :=
  match cs with
  | '"' :: _ => readShortText cs
  | '\'' :: _ => readShortText cs
  | _ =>
    match cs.takeWhile isBareKeyChar with
    | [] => none
    | word => some (word, cs.dropWhile isBareKeyChar)

/-- Read a path of at most `most` parts, with blanks around the parts. -/
def readPath (most : Nat) (cs : List Char) : Option (List String × List Char) :=
  match most with
  | 0 => none
  | most + 1 => do
    let (key, rest) ← readKey (skipGaps cs)
    match skipGaps rest with
    | '.' :: more => do
      let (path, left) ← readPath most more
      some (String.ofList key :: path, left)
    | left => some ([String.ofList key], left)

/-- Read the path of a value or a header. -/
def readKeyPath (cs : List Char) : Option (List String × List Char) :=
  readPath (depthLimit - 1) cs

end MediaSweep.Toml
