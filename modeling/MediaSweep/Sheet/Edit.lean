import MediaSweep.Sheet.BlankRun
import MediaSweep.Sheet.Strip

/-!
# Edits and tools

An edit is one of the three changes that can be made to the lines of a sheet, with its
parameters.  Applying it gives the lines that stay and a report.

A tool is an edit together with the report of its last use.  It can be used on one sheet after
the other; every use replaces the whole report, so a tool tells of its last use and of nothing
before it.
-/

namespace MediaSweep

set_option autoImplicit false

/-- A change to the lines of a sheet. -/
inductive Edit where
  /-- Take out every media block. -/
  | stripMedia
  /-- Take out the blocks at the given line numbers. -/
  | stripAt (lineNumbers : List Nat)
  /-- Cut runs of blank lines down to the given number. -/
  | compact (most : Nat)
  deriving DecidableEq, Repr

/-- What an edit tells about its use. -/
inductive EditReport where
  | stripped (removed : List MediaBlock)
  | strippedAt (located : List LocatedBlock) (skipped unmatched : List Nat) (removedLines : Nat)
  | compacted (collapsed : Nat)
  deriving DecidableEq, Repr

namespace Edit

/-- The report before any use: nothing was done. -/
def unused : Edit → EditReport
  | stripMedia => .stripped []
  | stripAt _ => .strippedAt [] [] [] 0
  | compact _ => .compacted 0

/-- The lines that stay, and the report. -/
def apply (lines : List String) : Edit → List String × EditReport
  | stripMedia =>
    let result := MediaSweep.stripMedia lines
    (result.kept, .stripped result.removed)
  | stripAt lineNumbers =>
    let result := MediaSweep.stripAt lineNumbers lines
    (result.kept,
      .strippedAt result.located result.skipped result.unmatched result.removedLines)
  | compact most =>
    let kept := compactRuns most lines
    (kept, .compacted (lines.length - kept.length))

end Edit

/-- An edit and the report of its last use. -/
structure Tool where
  edit : Edit
  report : EditReport
  deriving DecidableEq, Repr

namespace Tool

/-- A tool that has not been used. -/
def new (edit : Edit) : Tool :=
  ⟨edit, edit.unused⟩

/-- Use a tool on some lines. -/
def use (tool : Tool) (lines : List String) : Tool × List String :=
  let (kept, report) := tool.edit.apply lines
  ({ tool with report }, kept)

end Tool

end MediaSweep
