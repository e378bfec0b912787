import MediaSweep.Settings.Basic
import MediaSweep.Sheet.Cleanup
import MediaSweep.Storage.FileSystem
import MediaSweep.Task.Report

/-!
# Taking out the blocks at given lines

The stylesheet and the line numbers come with the request, or else from the settings.  The file is
written back only if some block was found and this is no dry run; no copy of it is made.
-/

namespace MediaSweep

set_option autoImplicit false

/-- What is asked for. -/
structure TargetedRequest where
  file : Option Path
  lines : List Nat
  dryRun : Bool
  deriving DecidableEq, Repr

namespace TargetedCleanup

/-- What is told before anything is written. -/
def notices (c : TargetedCleanup) (file : Path) : List Notice :=
  .info s!"{file.text}: {c.linesBefore} lines"
    :: c.skipped.map (fun n =>
        .warning s!"   ! Line {n} is out of range (1-{c.linesBefore}), skipped")
    ++ c.unmatched.map (fun n => .warning s!"   ! No @media at or after line {n}, skipped")
    ++ c.located.flatMap (fun b =>
        .detail s!"Removing @media block at lines {b.span.text}"
          :: (if b.onMediaLine then []
            else
              [.warning (s!"   ! Line {b.lineNumber} does not contain @media; "
                ++ "the line number may be stale")]))
    ++ [.info s!"Total lines to remove: {c.removedLines}"]

/-- What is told at the end. -/
def totals (c : TargetedCleanup) : List Notice :=
  [.detail s!"Lines before: {c.linesBefore}", .detail s!"Lines after: {c.linesAfter}",
    .detail s!"Reduction: {c.removedLines} lines"]

end TargetedCleanup

variable {m : Type → Type} [Monad m] [FileSystem m]

/-- Take the blocks at some lines out of a file. -/
def cleanAt (file : Path) (lines : List Nat) (dryRun : Bool) : m Report := do
  match ← FileSystem.readText file with
  | .error fault => return .failed [] (.read file fault)
  | .ok content =>
    let cleanup := removeBlocksAt content lines
    let told := cleanup.notices file
    if cleanup.located = [] then
      return .done (told ++ [.info "Nothing to remove, file left untouched"])
    else if dryRun then
      return .done (told ++ [.info "Dry run: file not written"] ++ cleanup.totals)
    else
      match ← FileSystem.writeText file cleanup.text with
      | .error fault => return .failed told (.write file fault)
      | .ok () => return .done (told ++ [.success "File cleaned"] ++ cleanup.totals)

/-- Do what is asked for, with the settings for what is left open. -/
def runTargeted (request : TargetedRequest) (settings : Settings) : m Report :=
  match request.file.or settings.targeted.file with
  | none =>
    return .refused "No stylesheet given: pass FILE or set [targeted].file in the config"
  | some file =>
    let lines := if request.lines = [] then settings.targeted.lines else request.lines
    if lines = [] then
      return .refused "No line numbers given: pass --line or set [targeted].lines in the config"
    else cleanAt file lines request.dryRun

end MediaSweep
