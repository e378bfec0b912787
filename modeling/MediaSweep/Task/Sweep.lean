import MediaSweep.Number.ByteSize
import MediaSweep.Output.Notice
import MediaSweep.Sheet.Cleanup
import MediaSweep.Storage.Failure
import MediaSweep.Storage.FileSystem

/-!
# Sweeping files

Sweeping a file takes every media block out of it and writes it back; a file without media blocks is
left alone, whatever its blank lines are like.  Files are swept one after the other, and one that
cannot be read or written does not keep the others from being swept.

What came of each file is a value of its own, and both the totals and what is told are read off the
list of these values.
-/

namespace MediaSweep

set_option autoImplicit false

/-- How files are swept. -/
structure SweepOptions where
  maxBlankLines : Nat
  dryRun : Bool
  deriving DecidableEq, Repr

/-- What came of a file that can be swept. -/
inductive SweepOutcome where
  /-- It has no media blocks. -/
  | nothingToDo
  | cleaned (blocks linesBefore linesAfter bytesBefore bytesAfter : Nat)
  deriving DecidableEq, Repr

/-- What sweeping makes of a content. -/
def SweepOutcome.ofCleanup (content : String) (c : BlanketCleanup) : SweepOutcome :=
  if c.removed = [] then .nothingToDo
  else
    .cleaned c.removed.length c.linesBefore c.linesAfter content.utf8ByteSize c.text.utf8ByteSize

section

variable {m : Type → Type} [Monad m] [FileSystem m]

/-- Sweep one file, which is only written when a block was found and this is no dry run. -/
def sweepFile (options : SweepOptions) (path : Path) : m (Except Failure SweepOutcome) := do
  match ← FileSystem.readText path with
  | .error fault => return .error (.read path fault)
  | .ok content =>
    let cleanup := removeAllMedia content options.maxBlankLines
    let outcome := SweepOutcome.ofCleanup content cleanup
    if outcome = .nothingToDo ∨ options.dryRun then return .ok outcome
    else
      match ← FileSystem.writeText path cleanup.text with
      | .error fault => return .error (.write path fault)
      | .ok () => return .ok outcome

/-- What came of some files, each with its path. -/
abbrev Sweep := List (Path × Except Failure SweepOutcome)

/-- Sweep files one after the other, whatever comes of each. -/
def sweepFiles (options : SweepOptions) : List Path → m Sweep
  | [] => return []
  | path :: rest => do
    let outcome ← sweepFile options path
    let others ← sweepFiles options rest
    return (path, outcome) :: others

end

/-! ## Totals -/

namespace SweepOutcome

/-- The number of media blocks of a file. -/
def blocks : SweepOutcome → Nat
  | nothingToDo => 0
  | cleaned blocks _ _ _ _ => blocks

/-- The number of lines by which a file gets shorter. -/
def lines : SweepOutcome → Nat
  | nothingToDo => 0
  | cleaned _ before after _ _ => before - after

end SweepOutcome

namespace Sweep

/-- The outcomes of the files that could be swept. -/
def outcomes (sweep : Sweep) : List SweepOutcome :=
  sweep.filterMap fun (_, outcome) => outcome.toOption

/-- The number of files that could be swept and have media blocks. -/
def cleaned (sweep : Sweep) : Nat :=
  sweep.outcomes.countP (· ≠ .nothingToDo)

/-- The files that could not be swept. -/
def failed (sweep : Sweep) : List Path :=
  sweep.filterMap fun (path, outcome) =>
    match outcome with
    | .error _ => some path
    | .ok _ => none

/-- The number of media blocks taken out of all files. -/
def blocks (sweep : Sweep) : Nat :=
  (sweep.outcomes.map SweepOutcome.blocks).foldr (· + ·) 0

/-- The number of lines by which all files together get shorter. -/
def lines (sweep : Sweep) : Nat :=
  (sweep.outcomes.map SweepOutcome.lines).foldr (· + ·) 0

/-! ## What is told -/

/-- What is told of one file. -/
def tellOutcome (dryRun : Bool) : Except Failure SweepOutcome → List Notice
  | .ok .nothingToDo => [.detail "✓ No media queries"]
  | .ok (.cleaned blocks linesBefore linesAfter bytesBefore bytesAfter) =>
    let verb := if dryRun then "would be removed" else "removed"
    let lines := linesBefore - linesAfter
    let sizes := Number.byteSize bytesBefore ++ " → " ++ Number.byteSize bytesAfter
    [.detail s!"✓ {blocks} media queries {verb}",
      .detail s!"{linesBefore} → {linesAfter} lines ({lines} removed), {sizes}"]
  | .error failure => [.error s!"   ✗ Error: {failure.message}"]

/-- What is told of all files; their paths are shown as seen from the root. -/
def notices (root : Path) (dryRun : Bool) (sweep : Sweep) : List Notice :=
  sweep.flatMap fun (path, outcome) =>
    .info ((path.relativeTo? root).getD path).text :: tellOutcome dryRun outcome

end Sweep

end MediaSweep
