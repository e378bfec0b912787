import MediaSweep.Sheet.BlankRun
import MediaSweep.Storage.FileSystem
import MediaSweep.Task.Report
import MediaSweep.Text.Lines

/-!
# Cutting the blank runs of files

Each file in turn is compacted and written back if that made it shorter.  A file that cannot be read
or written is told of and passed over.
-/

namespace MediaSweep

set_option autoImplicit false

/-- What is told of blank lines that are taken out. -/
def tellCollapsed (collapsed : Nat) (dryRun : Bool) : Notice :=
  let verb := if dryRun then "would be removed" else "removed"
  .detail s!"✓ {collapsed} blank lines {verb}"

/-- What is told of a file that is passed over. -/
def tellFailure (failure : Failure) : Notice :=
  .error s!"   ✗ Error: {failure.message}"

variable {m : Type → Type} [Monad m] [FileSystem m]

/-- Cut the blank runs of a file and tell what came of it.  The file is only written when lines are
gone and this is no dry run. -/
def compactFile (mostBlank : Nat) (dryRun : Bool) (path : Path) : m Notice := do
  match ← FileSystem.readText path with
  | .error fault => return tellFailure (.read path fault)
  | .ok content =>
    let lines := Text.toLines content
    let kept := compactRuns mostBlank lines
    let collapsed := lines.length - kept.length
    if collapsed = 0 then return .detail "✓ Already compact"
    else if dryRun then return tellCollapsed collapsed dryRun
    else
      match ← FileSystem.writeText path (Text.ofLines kept) with
      | .error fault => return tellFailure (.write path fault)
      | .ok () => return tellCollapsed collapsed dryRun

/-- Cut the blank runs of files one after the other, and tell of each under its name. -/
def compactFiles (mostBlank : Nat) (dryRun : Bool) : List Path → m (List Notice)
  | [] => return []
  | path :: rest => do
    let outcome ← compactFile mostBlank dryRun path
    let others ← compactFiles mostBlank dryRun rest
    return .info path.text :: outcome :: others

/-- Cut the blank runs of the files that are named.  The task comes to its end whatever came of
them. -/
def runCompact (files : List Path) (mostBlank : Nat) (dryRun : Bool) : m Report := do
  return .done (← compactFiles mostBlank dryRun files)

end MediaSweep
