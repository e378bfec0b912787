/-!
# Paths

A path is kept as the text it was given as, because that is how it is shown.  What it means is read
off its pieces between slashes: empty pieces and single points inside a path say nothing, a slash
or a point at the very beginning does.  Two texts with the same parts are the same path, and paths
are ordered by their parts, from the left.

Cutting a path short or joining paths changes the text as little as possible, so the pieces that
say nothing stay where they are except at the edge that was cut.
-/

namespace MediaSweep

set_option autoImplicit false

/-- A path, as it is written. -/
structure Path where
  text : String
  deriving DecidableEq, Repr, Inhabited

/-- One step of a path. -/
inductive PathPart where
  /-- The root of the file system. -/
  | root
  /-- The point at the beginning of a path. -/
  | here
  /-- The directory above. -/
  | up
  | name (text : String)
  deriving DecidableEq, Repr

namespace PathPart

/-- What a piece between slashes says; nothing for empty pieces and points. -/
def ofPiece? (piece : String) : Option PathPart :=
  if piece = "" ∨ piece = "." then none
  else if piece = ".." then some .up
  else some (.name piece)

/-- The rank of the kind of a part in the order of paths. -/
def rank : PathPart → Nat
  | root => 0
  | here => 1
  | up => 2
  | name _ => 3

/-- The order of parts: by kind, and names by their characters. -/
def before : PathPart → PathPart → Bool
  | name a, name b => a < b
  | a, b => a.rank < b.rank

end PathPart

/-- Whether a piece between slashes says nothing. -/
def isIdlePiece (piece : String) : Bool :=
  (PathPart.ofPiece? piece).isNone

/-- Leave out the pieces at the end that say nothing. -/
def dropIdleEnd (pieces : List String) : List String :=
  (pieces.reverse.dropWhile isIdlePiece).reverse

/-- How a path begins. -/
inductive PathStart where
  /-- With a slash. -/
  | root
  /-- With a point. -/
  | here
  /-- With its first name. -/
  | plain
  deriving DecidableEq, Repr

namespace Path

/-- A text divided at its slashes. -/
def pieces (text : String) : List String :=
  (text.toList.splitOn '/').map String.ofList

/-- The beginning of a path and the pieces after it. -/
def divide (p : Path) : PathStart × List String :=
  match pieces p.text with
  | "" :: rest => if rest = [] then (.plain, []) else (.root, rest)
  | "." :: rest => (.here, rest)
  | all => (.plain, all)

/-- The path with a beginning and the pieces after it. -/
def assemble (start : PathStart) (body : List String) : Path :=
  match start with
  | .root => ⟨"/" ++ String.intercalate "/" body⟩
  | .here => ⟨String.intercalate "/" ("." :: body)⟩
  | .plain => ⟨String.intercalate "/" body⟩

/-- What the pieces of a path say, from the left. -/
def parts (p : Path) : List PathPart :=
  match p.divide with
  | (.root, body) => .root :: body.filterMap PathPart.ofPiece?
  | (.here, body) => .here :: body.filterMap PathPart.ofPiece?
  | (.plain, body) => body.filterMap PathPart.ofPiece?

/-- Whether two texts are the same path. -/
def same (p q : Path) : Bool :=
  p.parts = q.parts

/-- Whether some parts come before others: at the first difference, or because they end first. -/
def partsBefore : List PathPart → List PathPart → Bool
  | _, [] => false
  | [], _ :: _ => true
  | a :: as, b :: bs => a.before b || (a = b && partsBefore as bs)

/-- The order of paths, which is the one of their parts. -/
def before (p q : Path) : Bool :=
  partsBefore p.parts q.parts

/-- Whether a path starts at the root of the file system. -/
def isAbsolute (p : Path) : Bool :=
  p.divide.1 = .root

/-- The path without its last part; nothing for the root and for the empty path. -/
def parent? (p : Path) : Option Path :=
  let (start, body) := p.divide
  match dropIdleEnd body, start with
  | [], .here => some ⟨""⟩
  | [], _ => none
  | body, start => some (assemble start (dropIdleEnd body.dropLast))

/-- The last part of a path if it is a name.  The root, a point alone and a path that ends with two
points have none. -/
def fileName? (p : Path) : Option String :=
  (dropIdleEnd p.divide.2).getLast?.filter (· ≠ "..")

/-- A path inside a directory; an absolute one stays as it is. -/
def join (p : Path) (inner : String) : Path :=
  if (Path.mk inner).isAbsolute then ⟨inner⟩
  else if p.text = "" ∨ p.text.toList.getLast? = some '/' then ⟨p.text ++ inner⟩
  else ⟨p.text ++ "/" ++ inner⟩

/-- The path with another last name, or with a name added if it has none. -/
def withFileName (p : Path) (name : String) : Path :=
  if p.fileName?.isSome then (p.parent?.getD ⟨""⟩).join name else p.join name

/-- What stands behind the last point of the file name.  A name without a point, or with one only at
its beginning, has no extension. -/
def extension? (p : Path) : Option String :=
  p.fileName?.bind fun name =>
    match ((name.toList.splitOn '.').map String.ofList).reverse with
    | _ :: [] => none
    | _ :: [""] => none
    | last :: _ => some last
    | [] => none

/-- Remove parts from the front of some pieces. -/
def dropParts : List PathPart → List String → Option (List String)
  | [], pieces => some pieces
  | _ :: _, [] => none
  | part :: base, piece :: rest =>
    match PathPart.ofPiece? piece with
    | none => dropParts (part :: base) rest
    | some found => if found = part then dropParts base rest else none

/-- The path as seen from a directory that it lies in.  Seen from the empty path it only loses what
says nothing at its end. -/
def relativeTo? (p base : Path) : Option Path :=
  let (start, body) := p.divide
  match base.parts with
  | [] => some (assemble start (dropIdleEnd body))
  | first :: others =>
    let rest : Option (List String) :=
      match start with
      | .root => if first = PathPart.root then dropParts others body else none
      | .here => if first = PathPart.here then dropParts others body else none
      | .plain => dropParts (first :: others) body
    rest.map fun inner => assemble .plain (dropIdleEnd (inner.dropWhile isIdlePiece))

end Path

end MediaSweep
