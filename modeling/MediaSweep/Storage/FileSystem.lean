import MediaSweep.Storage.Fault
import MediaSweep.Storage.Path

/-!
# File systems

What is done with files is said once, for every monad that offers the few operations below.  A run
on a real disk and a run on a modelled one are then the same program.

Operations do not throw: whether one was refused is part of its result, because most refusals are
told and passed over.
-/

namespace MediaSweep

set_option autoImplicit false

/-- What is found at a path. -/
inductive FileKind where
  | file
  | directory
  deriving DecidableEq, Repr

/-- The result of an operation that can be refused. -/
abbrev Attempt (α : Type) := Except FileFault α

/-- The operations on files. -/
class FileSystem (m : Type → Type) where
  /-- The content of a file. -/
  readBytes : Path → m (Attempt ByteArray)
  /-- Replace the content of a file; make the file if it is missing. -/
  writeBytes : Path → ByteArray → m (Attempt Unit)
  /-- Copy the content and the rights of a file. -/
  copyFile : Path → Path → m (Attempt Unit)
  /-- Make one directory in a directory that exists. -/
  makeDir : Path → m (Attempt Unit)
  /-- What a directory holds, by name. -/
  list : Path → m (Attempt (List (String × FileKind)))
  /-- What is found at a path, if anything can be found. -/
  kind? : Path → m (Option FileKind)

namespace FileSystem

variable {m : Type → Type} [Monad m] [FileSystem m]

/-- Whether a path leads to something. -/
def isPresent (path : Path) : m Bool := do
  return (← kind? path).isSome

/-- Whether a path leads to a directory. -/
def isDirectory (path : Path) : m Bool := do
  return (← kind? path) = some .directory

/-- Whether a path leads to a file. -/
def isFile (path : Path) : m Bool := do
  return (← kind? path) = some .file

/-- The text of some bytes. -/
def decode (bytes : ByteArray) : Attempt String :=
  match String.fromUTF8? bytes with
  | some text => .ok text
  | none => .error .notText

/-- The text of a file, whose bytes have to be one. -/
def readText (path : Path) : m (Attempt String) := do
  return (← readBytes path).bind decode

/-- Replace the content of a file by a text. -/
def writeText (path : Path) (text : String) : m (Attempt Unit) :=
  writeBytes path text.toUTF8

/-- A refusal to make a directory does not matter when there is one. -/
def unlessDirectory (path : Path) (fault : FileFault) : m (Attempt Unit) := do
  if ← isDirectory path then return .ok () else return .error fault

/-- Make a directory.  The one that it lies in is only made when it turns out to be missing; `most`
bounds how far up that goes. -/
def makeDirsWithin (most : Nat) (path : Path) : m (Attempt Unit) := do
  if path.text = "" then return .ok ()
  match ← makeDir path with
  | .ok () => return .ok ()
  | .error .missing =>
    match most, path.parent? with
    | most + 1, some above =>
      match ← makeDirsWithin most above with
      | .error fault => return .error fault
      | .ok () =>
        match ← makeDir path with
        | .ok () => return .ok ()
        | .error fault => unlessDirectory path fault
    | _, _ => return .error (.other "failed to create whole tree")
  | .error fault => unlessDirectory path fault

/-- Make a directory and those that it lies in. -/
def makeDirs (path : Path) : m (Attempt Unit) :=
  makeDirsWithin path.parts.length path

end FileSystem

end MediaSweep
