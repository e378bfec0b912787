import MediaSweep.Storage.FileSystem

/-!
# A modelled disk

A disk is a tree: a directory keeps its entries by name, in the order in which it lists them.  A
location is the list of names on the way from the root down, so everything inside a directory has
the location of the directory as the beginning of its own, and the root has the empty location.

Files and directories carry the rights of their owner.  Looking something up in a directory needs
the right to search it, changing what it holds the right to write it as well.

A path is resolved piece by piece.  Whatever follows a piece needs that piece to be a directory, so
a slash behind the name of a file is a fault; names and whole paths have a greatest length.  What
was passed on the way is remembered, because two points lead back to it.
-/

namespace MediaSweep

set_option autoImplicit false

/-- The names from the root to an entry. -/
abbrev Location := List String

/-- What the owner may do. -/
structure Rights where
  read : Bool := true
  write : Bool := true
  search : Bool := true
  deriving DecidableEq, Repr

/-- A file, or a directory with all it holds. -/
inductive Node where
  | file (rights : Rights) (content : ByteArray)
  | directory (rights : Rights) (entries : List (String × Node))

namespace Node

/-- What kind of thing a node is. -/
def kind : Node → FileKind
  | .file _ _ => .file
  | .directory _ _ => .directory

/-- What is at a location inside a node. -/
def at? : Location → Node → Option Node
  | [], node => some node
  | name :: inner, .directory _ entries => (entries.lookup name).bind (at? inner)
  | _ :: _, .file _ _ => none

/-- Put a node among entries, in place of what had its name or behind everything. -/
def putEntry (name : String) (node : Node) (entries : List (String × Node)) :
    List (String × Node) :=
  if (entries.lookup name).isSome then
    entries.map fun e => if e.1 = name then (name, node) else e
  else entries ++ [(name, node)]

/-- Put a node at a location among entries.  Only directories can be put into, so nothing is put
where a directory on the way is missing. -/
def putAt (node : Node) : Location → List (String × Node) → List (String × Node)
  | [], entries => entries
  | [name], entries => putEntry name node entries
  | name :: inner, entries =>
    match entries.lookup name with
    | some (.directory rights held) =>
      putEntry name (.directory rights (putAt node inner held)) entries
    | _ => entries

theorem lookup_map_replace (name key : String) (node : Node) (entries : List (String × Node)) :
    (entries.map fun e => if e.1 = name then (name, node) else e).lookup key =
      if key = name then (entries.lookup name).map fun _ => node else entries.lookup key := by
  induction entries with
  | nil => simp
  | cons e rest ih =>
    obtain ⟨found, held⟩ := e
    by_cases here : found = name
    · subst here
      by_cases same : key = found
      · subst same
        simp
      · have other : (key == found) = false := by simpa using same
        simp [List.lookup_cons, other, ih, same]
    · have passed : (name == found) = false := by simpa using Ne.symm here
      by_cases same : key = name
      · subst same
        simp [List.lookup_cons, here, passed, ih]
      · simp [List.lookup_cons, here, ih, same]

/-- What was put is found at its name, and nothing else has changed. -/
theorem lookup_putEntry (name key : String) (node : Node) (entries : List (String × Node)) :
    (putEntry name node entries).lookup key =
      if key = name then some node else entries.lookup key := by
  rw [putEntry]
  split
  · rename_i present
    obtain ⟨held, found⟩ := Option.isSome_iff_exists.1 present
    rw [lookup_map_replace, found, Option.map_some]
  · rename_i absent
    have absent : entries.lookup name = none := Option.not_isSome_iff_eq_none.1 absent
    rw [List.lookup_append]
    by_cases same : key = name
    · subst same
      simp [absent]
    · have other : (key == name) = false := by simpa using same
      simp [List.lookup_cons, other, same]

end Node

/-- A disk: the entries of its root, and the directory that relative paths start from. -/
structure Disk where
  entries : List (String × Node)
  current : Location

/-- The way to a node: the nodes on it with their names, from the last one back to the root, which
has no name and is left out. -/
abbrev Trail := List (String × Node)

namespace Trail

/-- The location at the end of a trail. -/
def location (trail : Trail) : Location :=
  (trail.map Prod.fst).reverse

/-- Go on from the node at the end of a trail to a location inside; nothing when it is missing. -/
def extend (trail : Trail) : Location → Node → Option Trail
  | [], _ => some trail
  | name :: inner, .directory _ entries =>
    (entries.lookup name).bind fun node => extend ((name, node) :: trail) inner node
  | _ :: _, .file _ _ => none

end Trail

namespace Disk

/-- The greatest length of a name, in bytes. -/
def nameLimit : Nat := 255

/-- A path of this many bytes is too long. -/
def pathLimit : Nat := 4096

/-- The root, which always is a directory with all rights. -/
def root (d : Disk) : Node :=
  .directory {} d.entries

/-- What is at a location of the disk. -/
def node? (d : Disk) (location : Location) : Option Node :=
  d.root.at? location

/-- Put a node at a location, in place of what was there or behind everything in its directory. -/
def put (d : Disk) (location : Location) (node : Node) : Disk :=
  { d with entries := Node.putAt node location d.entries }

/-! ## Resolving paths -/

/-- The node at the end of a trail. -/
def last (d : Disk) : Trail → Node
  | [] => d.root
  | (_, node) :: _ => node

/-- Look a name up in a directory that can be searched. -/
def step (trail : Trail) (entries : List (String × Node)) (name : String) : Attempt Trail :=
  if name = "." then .ok trail
  else if name = ".." then .ok trail.tail
  else if nameLimit < name.utf8ByteSize then .error .nameTooLong
  else
    match entries.lookup name with
    | some node => .ok ((name, node) :: trail)
    | none => .error .missing

/-- Follow pieces from the end of a trail. -/
def walk (d : Disk) (trail : Trail) : List String → Attempt Trail
  | [] => .ok trail
  | piece :: rest =>
    match d.last trail with
    | .file _ _ => .error .notDirectory
    | .directory rights entries =>
      if piece = "" then d.walk trail rest
      else if rights.search then (step trail entries piece).bind (d.walk · rest)
      else .error .permission

/-- Where a path starts, and the pieces to follow from there.  Paths that can lead nowhere are
refused at once. -/
def begin (d : Disk) (path : Path) : Attempt (Trail × List String) :=
  if path.text.contains '\x00' then .error .nulInPath
  else if path.text = "" then .error .missing
  else if pathLimit ≤ path.text.utf8ByteSize then .error .nameTooLong
  else
    match Trail.extend [] (if path.isAbsolute then [] else d.current) d.root with
    | some trail => .ok (trail, Path.pieces path.text)
    | none => .error .missing

/-- The trail that a path leads along. -/
def follow (d : Disk) (path : Path) : Attempt Trail := do
  let (start, pieces) ← d.begin path
  d.walk start pieces

/-- The node that a path leads to. -/
def resolve (d : Disk) (path : Path) : Attempt Node := do
  let trail ← d.follow path
  .ok (d.last trail)

/-- Where something is made. -/
structure Place where
  /-- The location of the directory. -/
  parent : Location
  /-- The rights of the directory. -/
  rights : Rights
  /-- What the directory holds. -/
  entries : List (String × Node)
  /-- The last piece of the path, which may be none, a point or two. -/
  name : String
  /-- Whether slashes follow the name. -/
  slashed : Bool

/-- The place of the last piece of a path, in a directory that can be searched. -/
def place (d : Disk) (path : Path) : Attempt Place := do
  let (start, pieces) ← d.begin path
  let backwards := pieces.reverse.dropWhile (· = "")
  let trail ← d.walk start backwards.tail.reverse
  match d.last trail with
  | .file _ _ => .error .notDirectory
  | .directory rights entries =>
    if rights.search then
      .ok
        { parent := Trail.location trail
          rights
          entries
          name := backwards.headD ""
          slashed := pieces.getLast? = some "" }
    else .error .permission

namespace Place

/-- Whether the last piece of a path does not name an entry of its directory. -/
def isDirectoryItself (p : Place) : Bool :=
  p.name = "" || p.name = "." || p.name = ".."

/-- The location of the entry that the place is for. -/
def location (p : Place) : Location :=
  p.parent ++ [p.name]

/-- What is there already. -/
def node? (p : Place) : Option Node :=
  p.entries.lookup p.name

end Place

/-! ## Operations -/

/-- The content of the file that a path leads to.  Rights are looked at before the kind of what is
there. -/
def readBytes (d : Disk) (path : Path) : Attempt ByteArray := do
  match ← d.resolve path with
  | .file rights content => if rights.read then .ok content else .error .permission
  | .directory rights _ => if rights.read then .error .isDirectory else .error .permission

/-- The location where a file is to be written, and its rights if there is one already. -/
def writable (d : Disk) (path : Path) : Attempt (Location × Option Rights) := do
  let place ← d.place path
  if place.isDirectoryItself ∨ place.slashed then .error .isDirectory
  else if nameLimit < place.name.utf8ByteSize then .error .nameTooLong
  else
    match place.node? with
    | some (.directory _ _) => .error .isDirectory
    | some (.file rights _) =>
      if rights.write then .ok (place.location, some rights) else .error .permission
    | none => if place.rights.write then .ok (place.location, none) else .error .permission

/-- The rights of a file that is made: those of a directory without the right to search. -/
def newFile : Rights := { search := false }

/-- Replace the content of a file, or make the file. -/
def writeBytes (d : Disk) (path : Path) (content : ByteArray) : Attempt Disk := do
  let (location, rights?) ← d.writable path
  .ok (d.put location (.file (rights?.getD newFile) content))

/-- Copy a file with its rights, which the copy takes on even in place of a file with others. -/
def copyFile (d : Disk) (source target : Path) : Attempt Disk := do
  let content ← d.readBytes source
  let (location, _) ← d.writable target
  let rights :=
    match d.resolve source with
    | .ok (.file rights _) => rights
    | _ => newFile
  .ok (d.put location (.file rights content))

/-- Make an empty directory where nothing stands. -/
def makeDir (d : Disk) (path : Path) : Attempt Disk := do
  let place ← d.place path
  if place.isDirectoryItself then .error .exists
  else if nameLimit < place.name.utf8ByteSize then .error .nameTooLong
  else if place.node?.isSome then .error .exists
  else if place.rights.write then .ok (d.put place.location (.directory {} []))
  else .error .permission

/-- The entries of the directory at a path. -/
def list (d : Disk) (path : Path) : Attempt (List (String × FileKind)) := do
  match ← d.resolve path with
  | .file _ _ => .error .notDirectory
  | .directory rights entries =>
    if rights.read then .ok (entries.map fun (name, node) => (name, node.kind))
    else .error .permission

/-- What is found at a path. -/
def kind? (d : Disk) (path : Path) : Option FileKind :=
  (d.resolve path).toOption.map Node.kind

/-! ## The disk as a file system -/

/-- Programs that run on a modelled disk. -/
abbrev Run := StateM Disk

/-- Make a change, or leave the disk as it is when the change is refused. -/
def change (f : Disk → Attempt Disk) : Run (Attempt Unit) := fun d =>
  match f d with
  | .ok changed => (.ok (), changed)
  | .error fault => (.error fault, d)

/-- The operations on a modelled disk.  Looking leaves the disk alone, and what is refused leaves it
as it was. -/
instance : FileSystem Run where
  readBytes path := fun d => (d.readBytes path, d)
  writeBytes path content := change (·.writeBytes path content)
  copyFile source target := change (·.copyFile source target)
  makeDir path := change (·.makeDir path)
  list path := fun d => (d.list path, d)
  kind? path := fun d => (d.kind? path, d)

end Disk

end MediaSweep
