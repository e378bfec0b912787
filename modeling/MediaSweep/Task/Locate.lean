import MediaSweep.Json.Printer
import MediaSweep.Sheet.MediaBlock
import MediaSweep.Storage.FileSystem
import MediaSweep.Task.Report
import MediaSweep.Text.Lines

/-!
# Listing the media blocks of a file

The blocks are listed for people, one in a line with its span set to the right in a column, or for
programs, as an array with an object for each block.  Line numbers count from one.  The file is only
read.
-/

namespace MediaSweep

set_option autoImplicit false

/-- A block for programs, as an object. -/
def MediaBlock.toJson (b : MediaBlock) : JsonValue :=
  .object
    [("start_line", .integer b.span.firstLine), ("end_line", .integer b.span.lastLine),
      ("lines", .integer b.span.size), ("query", .string b.query), ("depth", .integer b.depth),
      ("closed", .boolean b.closed)]

/-- The blocks of a file for programs. -/
def blockListing (blocks : List MediaBlock) : String :=
  (JsonValue.array (blocks.map MediaBlock.toJson)).print

/-- A text set to the right in a column. -/
def alignRight (width : Nat) (text : String) : String :=
  "".pushn ' ' (width - text.length) ++ text

/-- The width of the column of spans. -/
def spanColumn : Nat := 11

/-- A block for people, in one line; one that is never closed is a warning. -/
def MediaBlock.notice (b : MediaBlock) : Notice :=
  let line := alignRight spanColumn b.span.text ++ "  " ++ b.query
  if b.closed then .detail line else .warning s!"   {line}  (never closed)"

variable {m : Type → Type} [Monad m] [FileSystem m]

/-- List the blocks of a file for people or for programs. -/
def runLocate (file : Path) (asJson : Bool) : m Report := do
  match ← FileSystem.readText file with
  | .error fault => return .failed [] (.read file fault)
  | .ok content =>
    let lines := Text.toLines content
    let blocks := mediaBlocks lines
    if asJson then return .done [.raw (blockListing blocks)]
    else
      return .done (.info s!"{file.text}: {blocks.length} media blocks in {lines.length} lines"
        :: blocks.map MediaBlock.notice)

end MediaSweep
