import MediaSweep.Storage.Failure
import MediaSweep.Storage.FileSystem

/-!
# Snapshots of a directory

Before stylesheets are rewritten, their root is copied to a directory beside it.  Its name is the
name of the root with the time of the copy; a root without a name, such as the directory above,
gets its copy inside, under a name of its own.  A copy made in the same second as another one is
merged into it.
-/

namespace MediaSweep

set_option autoImplicit false

/-- A time by the local clock, down to the second. -/
structure Stamp where
  year : Int
  month : Nat
  day : Nat
  hour : Nat
  minute : Nat
  second : Nat
  deriving DecidableEq, Repr

namespace Stamp

/-- A number with zeros before it, up to a width. -/
def padded (width : Nat) (n : Nat) : String :=
  let digits := toString n
  "".pushn '0' (width - digits.length) ++ digits

/-- A year with at least four digits, and with its sign unless it lies between 0 and 9999. -/
def yearText (year : Int) : String :=
  let sign := if year < 0 then "-" else if 9999 < year then "+" else ""
  sign ++ padded 4 year.natAbs

/-- The date and the time of day with an underscore between them, as they stand in the names of
copies. -/
def text (s : Stamp) : String :=
  yearText s.year ++ padded 2 s.month ++ padded 2 s.day ++ "_" ++ padded 2 s.hour
    ++ padded 2 s.minute ++ padded 2 s.second

end Stamp

/-- The name that stands for the name of a root without one. -/
def namelessRoot : String := "backup"

/-- Where the copy of a directory made at some time is put. -/
def snapshotPath (root : Path) (stamp : Stamp) : Path :=
  root.withFileName (root.fileName?.getD namelessRoot ++ ".backup." ++ stamp.text)

/-- How many directories can lie in each other: their path gets too long before. -/
def nestingLimit : Nat := 4096

variable {m : Type → Type} [Monad m] [FileSystem m]

/-- Copy the entries of a directory one after the other. -/
def copyEntries (copyDirectory : Path → Path → m (Attempt Unit)) (source target : Path) :
    List (String × FileKind) → m (Attempt Unit)
  | [] => return .ok ()
  | (name, kind) :: rest => do
    let copied ←
      match kind with
      | .directory => copyDirectory (source.join name) (target.join name)
      | .file => FileSystem.copyFile (source.join name) (target.join name)
    match copied with
    | .error fault => return .error fault
    | .ok () => copyEntries copyDirectory source target rest

/-- Copy a directory with all it holds, at most `depth` directories deep. -/
def copyTree (depth : Nat) (source target : Path) : m (Attempt Unit) :=
  match depth with
  | 0 => return .error .nameTooLong
  | depth + 1 => do
    match ← FileSystem.makeDirs target with
    | .error fault => return .error fault
    | .ok () =>
      match ← FileSystem.list source with
      | .error fault => return .error fault
      | .ok entries => copyEntries (copyTree depth) source target entries

/-- Copy a root beside itself and tell where the copy is. -/
def takeSnapshot (root : Path) (stamp : Stamp) : m (Except Failure Path) := do
  let target := snapshotPath root stamp
  match ← copyTree nestingLimit root target with
  | .ok () => return .ok target
  | .error fault => return .error (.backup root fault)

end MediaSweep
