import MediaSweep.Storage.Failure
import MediaSweep.Storage.FileSystem

/-!
# Which stylesheets are taken up

A selection names some subdirectories and an extension.  Under a root it takes up the files with
that extension that lie directly in the root or directly in one of the subdirectories, and nothing
deeper.  Subdirectories that do not exist are passed over; the root has to exist.

The files come in the order of their paths.  Several subdirectories can lead to the same directory;
of paths that are the same only the one found first is kept.
-/

namespace MediaSweep

set_option autoImplicit false

/-- Which files under a root are stylesheets. -/
structure Selection where
  /-- The subdirectories, as seen from the root. -/
  subdirectories : List String
  /-- The extension, without a point before it. -/
  extension : String
  deriving DecidableEq, Repr

/-- Paths in their order, and of same ones only the first. -/
def dropRepeats : List Path → List Path
  | [] => []
  | [p] => [p]
  | p :: q :: rest =>
    if p.same q then dropRepeats (p :: rest) else p :: dropRepeats (q :: rest)

/-- Bring paths into their order; of same ones the first stays. -/
def orderPaths (paths : List Path) : List Path :=
  dropRepeats (paths.mergeSort fun p q => !q.before p)

namespace Selection

/-- The selection for an extension that may be given with points before it. -/
def of (subdirectories : List String) (extension : String) : Selection :=
  ⟨subdirectories, String.ofList (extension.toList.dropWhile (· = '.'))⟩

/-- Whether a path has the extension. -/
def admits (s : Selection) (path : Path) : Bool :=
  path.extension? = some s.extension

variable {m : Type → Type} [Monad m] [FileSystem m]

/-- The paths that lead to files, in their order; what else is there is passed over, and so is what
cannot be looked at. -/
def keepFiles : List Path → m (List Path)
  | [] => return []
  | path :: rest => do
    let isFile ← FileSystem.isFile path
    let others ← keepFiles rest
    return if isFile then path :: others else others

/-- The files with the extension that lie directly in a directory. -/
def inDirectory (s : Selection) (directory : Path) : m (Except Failure (List Path)) := do
  match ← FileSystem.list directory with
  | .error fault => return .error (.listing directory fault)
  | .ok entries =>
    return .ok (← keepFiles ((entries.map fun e => directory.join e.1).filter s.admits))

/-- The files in some directories, where those that do not exist are passed over. -/
def inDirectories (s : Selection) : List Path → m (Except Failure (List Path))
  | [] => return .ok []
  | directory :: others => do
    if ← FileSystem.isDirectory directory then
      match ← s.inDirectory directory with
      | .error failure => return .error failure
      | .ok files =>
        return (← s.inDirectories others).map (files ++ ·)
    else s.inDirectories others

/-- The files that are taken up under a root, in the order of their paths.  The root comes first, so
of same paths the one through the root is kept. -/
def find (s : Selection) (root : Path) : m (Except Failure (List Path)) := do
  if ← FileSystem.isDirectory root then
    return (← s.inDirectories (root :: s.subdirectories.map root.join)).map orderPaths
  else return .error (.noSuchRoot root)

end Selection

end MediaSweep
