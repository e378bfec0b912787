import MediaSweep.Toml.Term

/-!
# Documents

A document is a sequence of lines: entries, headers of tables, headers of repeated tables, and
lines without content.  Entries belong to the table of the last header before them, or to the
document itself.

The table of the last header is open: it is kept aside, with its path, and only put into the
document when the next header or the end comes.  A header whose table is there already, because
longer headers passed through it, takes it out of its place and puts it back behind the others.
-/

namespace MediaSweep.Toml

set_option autoImplicit false

/-! ## Lines -/

/-- A line with content. -/
inductive Line where
  | entry (path : List String) (value : Value)
  | header (path : List String)
  /-- The header of one more table of the same name. -/
  | repeated (path : List String)
  deriving Repr

/-- Read the path and the closing brackets of a header. -/
def readHeader (closing : List Char) (cs : List Char) : Option (List String × List Char) := do
  let (path, rest) ← readKeyPath cs
  if closing.isPrefixOf rest then do
    let left ← readLineEnd (rest.drop closing.length)
    some (path, left)
  else none

/-- Read one line that has content; `fuel` bounds the number of items in its value. -/
def readLine (fuel : Nat) (cs : List Char) : Option (Line × List Char) :=
  match cs with
  | '[' :: '[' :: rest => (readHeader [']', ']'] rest).map fun (path, left) => (.repeated path, left)
  | '[' :: rest => (readHeader [']'] rest).map fun (path, left) => (.header path, left)
  | _ => do
    let ((path, value), rest) ← readEntry (readValue fuel) cs
    let left ← readLineEnd rest
    some (.entry path value, left)

/-- Read all lines; `fuel` bounds their number, and that of the items in each of them. -/
def readLines (fuel : Nat) (cs : List Char) : Option (List Line) :=
  match fuel with
  | 0 => none
  | fuel + 1 =>
    match skipGaps cs with
    | [] => some []
    | c :: rest =>
      if c = '#' ∨ c = '\n' ∨ c = '\r' then
        (readLineEnd (c :: rest)).bind (readLines fuel)
      else do
        let (line, left) ← readLine fuel (c :: rest)
        let lines ← readLines fuel left
        some (line :: lines)

/-! ## Assembly -/

/-- A document under construction. -/
structure Draft where
  /-- What is finished. -/
  document : Table Value
  /-- The open table. -/
  current : Table Value
  /-- Where the open table belongs; the empty path is the document itself. -/
  path : List String
  /-- Whether the open table is one of several of the same name. -/
  isRepeated : Bool

namespace Draft

/-- The draft before the first line: the document itself is open. -/
def start : Draft :=
  ⟨.empty .header, .empty .header, [], false⟩

/-- Put the open table into the document. -/
def finish (d : Draft) : Option (Table Value) :=
  match d.path.getLast? with
  | none => some d.current
  | some key =>
    Table.changeAt .header
      (fun parent =>
        if d.isRepeated then
          match parent.find? key with
          | some (.tables last earlier) =>
            some (parent.replace key (.tables d.current (last :: earlier)))
          | some _ => none
          | none => some (parent.push key (.tables d.current []))
        else some (parent.push key (.table d.current)))
      d.path.dropLast d.document

/-- A table that is there already, opened by a header; only tables that were passed through can be
opened. -/
def opened? : Value → Option (Table Value)
  | .table t => if t.origin = .passed then some { t with origin := .header } else none
  | _ => none

/-- Take the table that a header opens out of its parent; a new one if there is none. -/
def takeOut (key : String) (parent : Table Value) : Option (Table Value × Table Value) :=
  match parent.find? key with
  | none => some (.empty .header, parent)
  | some value => (opened? value).map fun t => (t, parent.erase key)

/-- Go on with the table of a header. -/
def openTable (d : Draft) (path : List String) : Option Draft := do
  let document ← d.finish
  let key ← path.getLast?
  let (current, document) ← Table.visitAt .header (takeOut key) path.dropLast document
  some { document, current, path, isRepeated := false }

/-- Whether a key is free for one more of several tables. -/
def admitsRepeated (key : String) (parent : Table Value) : Bool :=
  match parent.find? key with
  | none => true
  | some (.tables _ _) => true
  | some _ => false

/-- Go on with one more of the tables of a repeated header. -/
def openRepeated (d : Draft) (path : List String) : Option Draft := do
  let document ← d.finish
  let key ← path.getLast?
  let document ← Table.changeAt .header
    (fun parent => if admitsRepeated key parent then some parent else none) path.dropLast document
  some { document, current := .empty .header, path, isRepeated := true }

/-- Take up one more line. -/
def add (d : Draft) : Line → Option Draft
  | .entry path value => (d.current.defineAt path value).map fun current => { d with current }
  | .header path => d.openTable path
  | .repeated path => d.openRepeated path

end Draft

/-- The mark that may stand before the first line. -/
def byteOrderMark : Char := '\ufeff'

/-- Leave out a byte order mark at the beginning. -/
def skipMark : List Char → List Char
  | [] => []
  | c :: rest => if c = byteOrderMark then rest else c :: rest

/-- The document with the given lines. -/
def ofLines (lines : List Line) : Option (Table Value) :=
  (lines.foldlM Draft.add .start).bind Draft.finish

/-- Read the text of a document.  Every line takes at least one character, and so does every item,
so the fuel is enough for all of them. -/
def readDocument (text : String) : Option (Table Value) :=
  let cs := skipMark text.toList
  (readLines (cs.length + 1) cs).bind ofLines

end MediaSweep.Toml
