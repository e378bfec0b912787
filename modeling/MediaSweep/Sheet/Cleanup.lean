import MediaSweep.Sheet.Edit
import MediaSweep.Text.Lines

/-!
# Cleaning the text of a sheet

The edits of lines, made on whole texts: split, edit, join.  Taking out every media block is
followed by compaction, which bounds the blank runs that the blocks leave behind; taking out
requested blocks is not.
-/

namespace MediaSweep

set_option autoImplicit false

/-- The text without the requested blocks, and the account of it. -/
structure TargetedCleanup where
  text : String
  located : List LocatedBlock
  skipped : List Nat
  unmatched : List Nat
  linesBefore : Nat
  linesAfter : Nat
  deriving DecidableEq, Repr

/-- How many lines fewer the text has; a line in two blocks counts once. -/
def TargetedCleanup.removedLines (c : TargetedCleanup) : Nat :=
  c.linesBefore - c.linesAfter

/-- Take the media blocks at the given line numbers out of a text. -/
def removeBlocksAt (text : String) (lineNumbers : List Nat) : TargetedCleanup :=
  let lines := Text.toLines text
  let result := stripAt lineNumbers lines
  { text := Text.ofLines result.kept
    located := result.located
    skipped := result.skipped
    unmatched := result.unmatched
    linesBefore := lines.length
    linesAfter := result.kept.length }

/-- The text without its media blocks, and the account of it. -/
structure BlanketCleanup where
  text : String
  removed : List MediaBlock
  collapsedBlankLines : Nat
  linesBefore : Nat
  linesAfter : Nat
  deriving DecidableEq, Repr

/-- How many lines fewer the text has, those of cut blank runs included. -/
def BlanketCleanup.removedLines (c : BlanketCleanup) : Nat :=
  c.linesBefore - c.linesAfter

/-- Take every media block out of a text, then cut the blank runs. -/
def removeAllMedia (text : String) (mostBlank : Nat) : BlanketCleanup :=
  let lines := Text.toLines text
  let stripped := stripMedia lines
  let kept := compactRuns mostBlank stripped.kept
  { text := Text.ofLines kept
    removed := stripped.removed
    collapsedBlankLines := stripped.kept.length - kept.length
    linesBefore := lines.length
    linesAfter := kept.length }

/-- Cut the runs of blank lines of a text. -/
def compactBlankLines (text : String) (mostBlank : Nat) : String :=
  Text.ofLines (compactRuns mostBlank (Text.toLines text))

end MediaSweep
