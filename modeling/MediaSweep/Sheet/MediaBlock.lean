import MediaSweep.Sheet.Braces
import MediaSweep.Sheet.Span
import MediaSweep.Text.Blank

/-!
# Finding the media blocks of a sheet

One pass over the lines finds every media block.  Outside a block, a line with `@media` in it
enters one, and the depth of the place is kept as the baseline of the block.  From then on,
starting with the entering line itself, each line moves the depth, and the block is over as soon
as

* the depth is below the baseline, or
* some line of the block has opened a brace and the depth is back at the baseline.

So a block nested in another rule ends before the brace of that rule, an `@media` inside a block
is part of it, and a prelude may run over several lines.  Nothing here can fail: a block that the
sheet never ends reaches its last line and says so.
-/

namespace MediaSweep

set_option autoImplicit false

/-- A media block of a sheet. -/
structure MediaBlock where
  /-- The lines of the block, from the one with `@media` to the one that closes it. -/
  span : Span
  /-- The line with `@media`, without the blanks at its ends. -/
  query : String
  /-- The depth of the place where the block starts. -/
  depth : Int
  /-- Whether the block ends before the sheet does. -/
  closed : Bool
  deriving DecidableEq, Repr

/-- A block that has been entered and has not ended yet. -/
structure OpenBlock where
  first : Nat
  baseline : Int
  opened : Bool
  query : String
  deriving DecidableEq, Repr

namespace OpenBlock

/-- Whether the block is over at this depth. -/
def isOver (b : OpenBlock) (depth : Int) : Bool :=
  depth < b.baseline || (b.opened && depth ≤ b.baseline)

/-- The block that ends with the line of this index. -/
def endAt (b : OpenBlock) (last : Nat) (closed : Bool) : MediaBlock :=
  ⟨Span.between b.first last, b.query, b.baseline, closed⟩

end OpenBlock

/-- What is known between two lines of the pass: the index of the next line, the depth reached
and the block entered. -/
structure BlockScan where
  index : Nat
  depth : Int
  current : Option OpenBlock
  deriving DecidableEq, Repr

namespace BlockScan

/-- Before the first line. -/
def start : BlockScan :=
  ⟨0, 0, none⟩

/-- The block that the next line belongs to: the one entered before, or the one it enters. -/
def blockFor (s : BlockScan) (line : String) : Option OpenBlock :=
  match s.current with
  | some block => some block
  | none =>
    if isMediaLine line then some ⟨s.index, s.depth, false, Text.trim line⟩ else none

/-- Take one line, and tell the block that ends with it. -/
def feed (s : BlockScan) (line : String) : BlockScan × Option MediaBlock :=
  let tally := BraceTally.ofLine line
  let depth := s.depth + tally.delta
  match s.blockFor line with
  | none => (⟨s.index + 1, depth, none⟩, none)
  | some entered =>
    let block := { entered with opened := entered.opened || tally.hasOpen }
    if block.isOver depth then (⟨s.index + 1, depth, none⟩, some (block.endAt s.index true))
    else (⟨s.index + 1, depth, some block⟩, none)

/-- The block that the end of the sheet leaves open. -/
def unfinished (s : BlockScan) : Option MediaBlock :=
  s.current.map fun block => block.endAt (s.index - 1) false

/-- The blocks that end in the remaining lines or are left open after them. -/
def blocks (s : BlockScan) : List String → List MediaBlock
  | [] => s.unfinished.toList
  | line :: rest =>
    match s.feed line with
    | (next, none) => next.blocks rest
    | (next, some block) => block :: next.blocks rest

end BlockScan

/-- The media blocks of a sheet, from top to bottom. -/
def mediaBlocks (lines : List String) : List MediaBlock :=
  BlockScan.start.blocks lines

end MediaSweep
