import MediaSweep.Proofs.Sheet.Blanket
import MediaSweep.Proofs.Sheet.BlankRun
import MediaSweep.Proofs.Sheet.Machine
import MediaSweep.Proofs.Sheet.Outcomes
import MediaSweep.Proofs.Steps

/-!
# Edits with machine numbers

The edits of a text, and what is told about them, repeated with the operations of a machine: the
searches for blocks, the one look at a requested line, the counters that go along with the lines,
and the differences of line counts.

On a text of less than `2 ^ 63` bytes no operation fails, whatever line numbers are requested and
however many blank lines are kept, and the outcome is that of the unbounded numbers
(`machine_edits`).  Three facts from other places are what makes the unchecked steps safe: a
requested line that is not out of range is there, a block that is reported ends in the sheet, and
an edit does not add lines.
-/

namespace MediaSweep

set_option autoImplicit false

variable {lines : List String}

namespace Machine

/-! ## Blocks at requested lines -/

/-- Look up the block for a requested line number. -/
def lookUp (lines : List String) (lineNumber : Nat) : Option Request :=
  match lineNumber with
  | 0 => some .outOfRange
  | start + 1 => do
    match ← blockEnd lines start with
    | none => some .outOfRange
    | some stop =>
      match stop.index? with
      | none => some .unmatched
      | some last =>
        let line ← lines[start]?
        some (.located ⟨start + 1, Span.between start last, isMediaLine line⟩)

/-- Take out the blocks at the requested line numbers. -/
def stripAt (requests : List Nat) (lines : List String) : Option StrippedAt := do
  let outcomes ← requests.mapM fun lineNumber => do
    let outcome ← lookUp lines lineNumber
    some (lineNumber, outcome)
  let located := outcomes.filterMap fun outcome => outcome.2.block?
  let marked := LineSet.ofSpans (located.map LocatedBlock.span)
  let removedLines ← word marked.size
  let kept ← retain marked.contains 0 lines
  some
    { kept
      located
      skipped := (outcomes.filter fun outcome => outcome.2 = .outOfRange).map Prod.fst
      unmatched := (outcomes.filter fun outcome => outcome.2 = .unmatched).map Prod.fst
      removedLines }

theorem lookUp_eq (fits : room lines ≤ counterBound) (lineNumber : Nat) :
    lookUp lines lineNumber = some (MediaSweep.lookUp lines lineNumber) := by
  cases lineNumber with
  | zero => rfl
  | succ start =>
    rw [lookUp, blockEnd_eq fits, some_bind, lookUp_succ]
    cases search : blockEnd? lines start with
    | none => rfl
    | some stop =>
      dsimp only
      cases stop.index? with
      | none => rfl
      | some last =>
        have within : start < lines.length := by
          refine Nat.lt_of_not_le fun behind => ?_
          rw [(blockEnd?_eq_none_iff lines start).2 behind] at search
          exact absurd search (by simp)
        dsimp only
        rw [List.getElem?_eq_getElem within]
        rfl

theorem retain_lines {marked : LineSet} (fits : room lines ≤ counterBound) :
    retain marked.contains 0 lines = some (marked.remove lines) := by
  have few := length_le_room lines
  have below := counterBound_lt_wordBound
  rw [retain_eq (by omega), LineSet.remove_eq_keepUnless]

/-- **Requested blocks are taken out without a failure.** -/
theorem stripAt_eq (fits : room lines ≤ counterBound) (requests : List Nat) :
    stripAt requests lines = some (MediaSweep.stripAt requests lines) := by
  have few := length_le_room lines
  have below := counterBound_lt_wordBound
  have total := length_kept_stripAt_add requests lines
  have counted : (MediaSweep.stripAt requests lines).removedLines < Text.wordBound := by omega
  have outcomes : (requests.mapM fun lineNumber => do
      let outcome ← lookUp lines lineNumber
      some (lineNumber, outcome)) = some (requests.map fun lineNumber =>
        (lineNumber, lookUpFrom (listEnds lines).toArray lineNumber)) :=
    mapM_eq_pure fun lineNumber _ => by
      rw [lookUp_eq fits, some_bind]
      rfl
  rw [MediaSweep.stripAt] at counted ⊢
  dsimp only at counted ⊢
  rw [stripAt, outcomes, some_bind]
  dsimp only
  rw [word_eq counted, some_bind, retain_lines fits, some_bind]

/-- Take out every media block. -/
def stripMedia (lines : List String) : Option Stripped := do
  let removed ← blocks .start lines
  let kept ← retain (LineSet.ofSpans (removed.map MediaBlock.span)).contains 0 lines
  some ⟨kept, removed⟩

theorem ahead_start (fits : room lines ≤ counterBound) :
    Ahead BlockScan.start.index BlockScan.start.depth lines := by
  simp only [BlockScan.start]
  exact ⟨by omega, by omega⟩

/-- **Every media block is taken out without a failure.** -/
theorem stripMedia_eq (fits : room lines ≤ counterBound) :
    stripMedia lines = some (MediaSweep.stripMedia lines) := by
  rw [stripMedia, blocks_eq (ahead_start fits), some_bind, retain_lines fits, some_bind]
  rfl

/-! ## Runs of blank lines -/

/-- Keep at most `bound` lines of each blank run; `run` blank lines stand directly before. -/
def cutRuns (bound run : Nat) : List String → Option (List String)
  | [] => some []
  | line :: rest =>
    if Text.isBlankLine line then do
      let run ← word (run + 1)
      let kept ← cutRuns bound run rest
      some (if run ≤ bound then line :: kept else kept)
    else do
      let kept ← cutRuns bound 0 rest
      some (line :: kept)

/-- The lines that stay when runs of blank lines are cut, and the number of those that do not. -/
def compactRuns (most : Nat) (lines : List String) : Option (List String × Nat) := do
  let kept ← cutRuns (runBound most) 0 lines
  let collapsed ← minus lines.length kept.length
  some (kept, collapsed)

theorem cutRuns_eq {bound run : Nat} (fits : run + lines.length < Text.wordBound) :
    cutRuns bound run lines = some (MediaSweep.cutRuns bound run lines) := by
  induction lines generalizing run with
  | nil => rfl
  | cons line rest ih =>
    rw [List.length_cons] at fits
    rw [cutRuns, MediaSweep.cutRuns]
    split
    · rw [word_eq (by omega), some_bind, ih (by omega), some_bind]
      rfl
    · rw [ih (by omega), some_bind]

/-- **Runs of blank lines are cut without a failure.** -/
theorem compactRuns_eq (fits : lines.length < Text.wordBound) (most : Nat) :
    compactRuns most lines = some (MediaSweep.compactRuns most lines,
      lines.length - (MediaSweep.compactRuns most lines).length) := by
  have shorter : (MediaSweep.cutRuns (runBound most) 0 lines).length ≤ lines.length :=
    (compactRuns_sublist most lines).length_le
  rw [compactRuns, cutRuns_eq (by omega), some_bind, minus_eq shorter, some_bind]
  rfl

/-! ## Texts -/

/-- Find the media blocks of a text, and tell their spans. -/
def mediaBlocks (text : String) : Option (List MediaBlock × List (Nat × Nat × Nat)) := do
  let found ← blocks .start (Text.toLines text)
  let told ← found.mapM fun b => numbers b.span
  some (found, told)

/-- Take the media blocks at the given line numbers out of a text, and tell the number of lines
removed and the spans. -/
def removeBlocksAt (text : String) (lineNumbers : List Nat) :
    Option (TargetedCleanup × Nat × List (Nat × Nat × Nat)) := do
  let lines := Text.toLines text
  let result ← stripAt lineNumbers lines
  let removedLines ← minus lines.length result.kept.length
  let told ← result.located.mapM fun b => numbers b.span
  let cleanup : TargetedCleanup :=
    { text := Text.ofLines result.kept
      located := result.located
      skipped := result.skipped
      unmatched := result.unmatched
      linesBefore := lines.length
      linesAfter := result.kept.length }
  some (cleanup, removedLines, told)

/-- Take every media block out of a text and cut the blank runs, and tell the number of lines
removed and the spans. -/
def removeAllMedia (text : String) (most : Nat) :
    Option (BlanketCleanup × Nat × List (Nat × Nat × Nat)) := do
  let lines := Text.toLines text
  let stripped ← stripMedia lines
  let (kept, collapsed) ← compactRuns most stripped.kept
  let removedLines ← minus lines.length kept.length
  let told ← stripped.removed.mapM fun b => numbers b.span
  let cleanup : BlanketCleanup :=
    { text := Text.ofLines kept
      removed := stripped.removed
      collapsedBlankLines := collapsed
      linesBefore := lines.length
      linesAfter := kept.length }
  some (cleanup, removedLines, told)

/-- Cut the runs of blank lines of a text. -/
def compactBlankLines (text : String) (most : Nat) : Option String := do
  let (kept, _) ← compactRuns most (Text.toLines text)
  some (Text.ofLines kept)

/-- The spans of blocks in a sheet can be told. -/
theorem mapM_numbers {β : Type} {span : β → Span} {found : List β}
    (fits : room lines ≤ counterBound) (within : ∀ b ∈ found, (span b).last < lines.length) :
    (found.mapM fun b => numbers (span b)) = some (found.map fun b => (span b).told) := by
  have few := length_le_room lines
  have below := counterBound_lt_wordBound
  refine mapM_eq_pure fun b mem => ?_
  have last := within b mem
  exact numbers_eq (by rw [Span.lastLine]; omega)

end Machine

namespace Machine

variable {text : String}

theorem mediaBlocks_eq (fits : room (Text.toLines text) ≤ counterBound) :
    mediaBlocks text = some (MediaSweep.mediaBlocks (Text.toLines text),
      (MediaSweep.mediaBlocks (Text.toLines text)).map fun b => b.span.told) := by
  have found : blocks .start (Text.toLines text) =
      some (MediaSweep.mediaBlocks (Text.toLines text)) := blocks_eq (ahead_start fits)
  rw [mediaBlocks, found, some_bind, mapM_numbers fits fun b mem =>
    (isBlock_of_mem_mediaBlocks mem).last_lt_length, some_bind]

theorem removeBlocksAt_eq (fits : room (Text.toLines text) ≤ counterBound) (requests : List Nat) :
    removeBlocksAt text requests = some (MediaSweep.removeBlocksAt text requests,
      (MediaSweep.removeBlocksAt text requests).removedLines,
      (MediaSweep.removeBlocksAt text requests).located.map fun b => b.span.told) := by
  have total := length_kept_stripAt_add requests (Text.toLines text)
  rw [removeBlocksAt, stripAt_eq fits, some_bind, minus_eq (by omega), some_bind,
    mapM_numbers fits fun b mem => (answers_of_mem_located mem).within, some_bind]
  rfl

theorem removeAllMedia_eq (fits : room (Text.toLines text) ≤ counterBound) (most : Nat) :
    removeAllMedia text most = some (MediaSweep.removeAllMedia text most,
      (MediaSweep.removeAllMedia text most).removedLines,
      (MediaSweep.removeAllMedia text most).removed.map fun b => b.span.told) := by
  have few := length_le_room (Text.toLines text)
  have below := counterBound_lt_wordBound
  have total := length_kept_stripMedia_add (Text.toLines text)
  have shorter := (compactRuns_stripMedia_sublist most (Text.toLines text)).length_le
  rw [removeAllMedia, stripMedia_eq fits, some_bind, compactRuns_eq (by omega), some_bind]
  dsimp only
  have within : ∀ b ∈ (MediaSweep.stripMedia (Text.toLines text)).removed,
      b.span.last < (Text.toLines text).length :=
    fun b mem => (isBlock_of_mem_mediaBlocks mem).last_lt_length
  rw [minus_eq shorter, some_bind, mapM_numbers fits within, some_bind]
  rfl

theorem compactBlankLines_eq (fits : room (Text.toLines text) ≤ counterBound) (most : Nat) :
    compactBlankLines text most = some (MediaSweep.compactBlankLines text most) := by
  have few := length_le_room (Text.toLines text)
  have below := counterBound_lt_wordBound
  rw [compactBlankLines, compactRuns_eq (by omega), some_bind]
  rfl

end Machine

/-- **Machine numbers are enough for a text that is not too large.**  On a text of less than
`2 ^ 63` bytes no operation of a machine fails in finding the media blocks, in taking out the blocks
at any line numbers or all of them, or in cutting runs of blank lines down to any number of lines,
nor in telling the number of lines removed and the spans; and what comes out is the same. -/
theorem machine_edits {text : String} (small : text.utf8ByteSize ≤ Nat.pow 2 63 - 1) :
    Machine.mediaBlocks text = some (mediaBlocks (Text.toLines text),
      (mediaBlocks (Text.toLines text)).map fun b => b.span.told) ∧
    (∀ requests : List Nat, Machine.removeBlocksAt text requests = some
      (removeBlocksAt text requests, (removeBlocksAt text requests).removedLines,
        (removeBlocksAt text requests).located.map fun b => b.span.told)) ∧
    (∀ most : Nat, Machine.removeAllMedia text most = some
      (removeAllMedia text most, (removeAllMedia text most).removedLines,
        (removeAllMedia text most).removed.map fun b => b.span.told)) ∧
    ∀ most : Nat, Machine.compactBlankLines text most = some (compactBlankLines text most) := by
  have fits : room (Text.toLines text) ≤ Machine.counterBound :=
    (room_toLines_le text).trans (Nat.add_le_of_le_sub (by decide) small)
  exact ⟨Machine.mediaBlocks_eq fits, Machine.removeBlocksAt_eq fits,
    Machine.removeAllMedia_eq fits, Machine.compactBlankLines_eq fits⟩

/-- The theorem at a text with a block that its end cuts off. -/
theorem machine_edits_cutOffText :
    "@media p \x7b\n".utf8ByteSize ≤ Nat.pow 2 63 - 1 ∧
      ∀ requests : List Nat, Machine.removeBlocksAt "@media p \x7b\n" requests = some
        (removeBlocksAt "@media p \x7b\n" requests,
          (removeBlocksAt "@media p \x7b\n" requests).removedLines,
          (removeBlocksAt "@media p \x7b\n" requests).located.map fun b => b.span.told) :=
  have small : "@media p \x7b\n".utf8ByteSize ≤ Nat.pow 2 63 - 1 := by decide
  ⟨small, (machine_edits small).2.1⟩

end MediaSweep
