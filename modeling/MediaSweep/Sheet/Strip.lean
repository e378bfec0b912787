import MediaSweep.Sheet.BlockEnd
import MediaSweep.Sheet.LineSet
import MediaSweep.Sheet.MediaBlock

/-!
# Taking media blocks out of a sheet

Two ways to take blocks out.  `stripMedia` takes out every block that `mediaBlocks` finds.
`stripAt` takes out the blocks that start at requested lines: every request is looked up in the
sheet as it is given, all lines found are marked, and the marked lines go in one step.  Requests
may therefore overlap or repeat, and their order shows in the report only.

A request is out of range when it is zero or past the last line, and unmatched when no line from
it on has `@media` in it.  A request whose own line has no `@media` is probably out of date; the
lines from it up to the block go with the block, and the report says so.
-/

namespace MediaSweep

set_option autoImplicit false

/-! ## Every block -/

/-- What taking out every block leaves and what it took. -/
structure Stripped where
  kept : List String
  removed : List MediaBlock
  deriving DecidableEq, Repr

/-- Take out every media block. -/
def stripMedia (lines : List String) : Stripped :=
  let removed := mediaBlocks lines
  ⟨(LineSet.ofSpans (removed.map MediaBlock.span)).remove lines, removed⟩

/-! ## The blocks at requested lines -/

/-- A block found for a request. -/
structure LocatedBlock where
  /-- The requested line number, counted from one. -/
  lineNumber : Nat
  /-- The lines from the requested one to the end of the block. -/
  span : Span
  /-- Whether the requested line itself has `@media` in it. -/
  onMediaLine : Bool
  deriving DecidableEq, Repr

/-- How a request comes out. -/
inductive Request where
  | outOfRange
  | unmatched
  | located (block : LocatedBlock)
  deriving DecidableEq, Repr

/-- The ends of a list, from the whole list to the empty one. -/
def listEnds {α : Type} : List α → List (List α)
  | [] => [[]]
  | item :: rest => (item :: rest) :: listEnds rest

/-- The ends of a list are what is left when elements are dropped. -/
theorem getElem?_listEnds {α : Type} (items : List α) (count : Nat) :
    ((listEnds items)[count]?).getD [] = items.drop count := by
  induction items generalizing count with
  | nil => cases count <;> simp [listEnds]
  | cons item rest ih =>
    match count with
    | 0 => simp [listEnds]
    | count + 1 => simpa [listEnds] using ih count

/-- Look up the block for a requested line number; the sheet is given from each of its lines on. -/
def lookUpFrom (tails : Array (List String)) (lineNumber : Nat) : Request :=
  match lineNumber with
  | 0 => .outOfRange
  | start + 1 =>
    let tail := tails[start]?.getD []
    match blockEndFrom? start tail with
    | none => .outOfRange
    | some stop =>
      match stop.index? with
      | none => .unmatched
      | some last =>
        .located ⟨start + 1, Span.between start last, (tail.head?.map isMediaLine).getD false⟩

/-- Look up the block for a requested line number. -/
def lookUp (lines : List String) (lineNumber : Nat) : Request :=
  lookUpFrom (listEnds lines).toArray lineNumber

/-- A request is answered by the block that starts at or after its line. -/
theorem lookUp_succ (lines : List String) (start : Nat) :
    lookUp lines (start + 1) =
      match blockEnd? lines start with
      | none => .outOfRange
      | some stop =>
        match stop.index? with
        | none => .unmatched
        | some last =>
          .located ⟨start + 1, Span.between start last,
            (lines[start]?.map isMediaLine).getD false⟩ := by
  simp only [lookUp, lookUpFrom, blockEnd?, List.getElem?_toArray, getElem?_listEnds,
    List.head?_drop]

/-- What taking out requested blocks leaves, and how each request came out. -/
structure StrippedAt where
  kept : List String
  located : List LocatedBlock
  /-- Requests that were zero or past the last line. -/
  skipped : List Nat
  /-- Requests with no `@media` from their line on. -/
  unmatched : List Nat
  /-- The number of different lines taken out. -/
  removedLines : Nat
  deriving DecidableEq, Repr

/-- The block of a request that found one. -/
def Request.block? : Request → Option LocatedBlock
  | located block => some block
  | _ => none

/-- Take out the blocks at the requested line numbers. -/
def stripAt (requests : List Nat) (lines : List String) : StrippedAt :=
  let tails := (listEnds lines).toArray
  let outcomes := requests.map fun lineNumber => (lineNumber, lookUpFrom tails lineNumber)
  let located := outcomes.filterMap fun outcome => outcome.2.block?
  let marked := LineSet.ofSpans (located.map LocatedBlock.span)
  { kept := marked.remove lines
    located
    skipped := (outcomes.filter fun outcome => outcome.2 = .outOfRange).map Prod.fst
    unmatched := (outcomes.filter fun outcome => outcome.2 = .unmatched).map Prod.fst
    removedLines := marked.size }

end MediaSweep
