import MediaSweep.Settings.Basic
import MediaSweep.Storage.Selection
import MediaSweep.Storage.Snapshot
import MediaSweep.Task.Report
import MediaSweep.Task.Sweep

/-!
# Cleaning all stylesheets under a root

The stylesheets are looked up first; if that fails, nothing is done.  Then the root is copied, unless
the settings or the request forbid it or this is a dry run; when the copy fails, that is told and the
work goes on.  Files that cannot be swept are counted, and the task still comes to its end.
-/

namespace MediaSweep

set_option autoImplicit false

/-- What is asked for; what is left open comes from the settings. -/
structure BlanketRequest where
  root : Option Path
  subdirs : List String
  extension : Option String
  noBackup : Bool
  maxBlankLines : Option Nat
  dryRun : Bool
  deriving DecidableEq, Repr

namespace BlanketRequest

/-- The settings with what is asked for in their place. -/
def settle (request : BlanketRequest) (usual : BlanketSettings) : BlanketSettings :=
  { root := request.root.getD usual.root
    subdirs := if request.subdirs = [] then usual.subdirs else request.subdirs
    extension := request.extension.getD usual.extension
    backup := usual.backup && !request.noBackup && !request.dryRun
    maxBlankLines := request.maxBlankLines.getD usual.maxBlankLines }

end BlanketRequest

/-- What is told at the end of a sweep. -/
def Sweep.totals (dryRun : Bool) (sweep : Sweep) : List Notice :=
  let ending := if dryRun then "Dry run complete, no files written" else "Cleanup complete"
  [.blank, .success ending, .detail s!"Media queries removed: {sweep.blocks}",
    .detail s!"Lines removed: {sweep.lines}",
    .detail s!"Files changed: {sweep.cleaned} of {sweep.length}"]
    ++ if sweep.failed = [] then []
      else [.warning s!"   ! {sweep.failed.length} file(s) failed"]

variable {m : Type → Type} [Monad m] [FileSystem m]

/-- Copy the root, if it is to be copied, and tell of it. -/
def backUp (settings : BlanketSettings) (stamp : Stamp) : m (List Notice) := do
  if settings.backup then
    match ← takeSnapshot settings.root stamp with
    | .ok path => return [.detail s!"Backup created in {path.text}"]
    | .error failure =>
      return [.warning s!"   ! {failure.message}; continuing without backup"]
  else return []

/-- Clean all stylesheets under the root.  They are looked up before the root is copied. -/
def runBlanket (request : BlanketRequest) (usual : Settings) (stamp : Stamp) : m Report := do
  let settings := request.settle usual.blanket
  let options : SweepOptions := ⟨settings.maxBlankLines, request.dryRun⟩
  let opening : List Notice :=
    [.info s!"Removing all media queries under {settings.root.text}", .blank]
  match ← (Selection.of settings.subdirs settings.extension).find settings.root with
  | .error failure =>
    return .stopped opening (.about s!"Cannot scan {settings.root.text}" failure)
  | .ok files =>
    let copied ← backUp settings stamp
    let found : List Notice := [.info s!"{files.length} stylesheets found", .blank]
    let sweep ← sweepFiles options files
    return .done (opening ++ copied ++ found ++ sweep.notices settings.root request.dryRun
      ++ sweep.totals request.dryRun)

end MediaSweep
