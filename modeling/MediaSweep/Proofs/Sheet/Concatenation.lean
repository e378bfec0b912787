import MediaSweep.Proofs.Sheet.Pass

/-!
# Sheets put together

Where a block starts and where it ends hangs on its own lines and on the depth as seen from its
baseline, not on what stands before it.  So the blocks of a sheet that is put behind another one are
the same blocks further down and at another depth (`BlockScan.blocks_moved`), provided that no block
of the sheet before is still open.  If one is, it starts as it did, and only where it ends can
change (`BlockScan.exists_current`).

`mediaBlocks_append` says both for two sheets put together, and what is left of them when their
blocks are taken out.
-/

namespace MediaSweep

set_option autoImplicit false

/-! ## Blocks that have moved -/

/-- The span further down by some lines. -/
def Span.moved (s : Span) (count : Nat) : Span :=
  ⟨s.first + count, s.last + count, Nat.add_le_add_right s.first_le_last count⟩

/-- The block further down and deeper. -/
def MediaBlock.moved (b : MediaBlock) (count : Nat) (rise : Int) : MediaBlock :=
  { b with span := b.span.moved count, depth := b.depth + rise }

namespace OpenBlock

variable {count : Nat} {rise : Int}

/-- The open block further down and deeper. -/
def moved (b : OpenBlock) (count : Nat) (rise : Int) : OpenBlock :=
  { b with first := b.first + count, baseline := b.baseline + rise }

/-- A block is over at a depth as seen from its baseline. -/
theorem isOver_moved (b : OpenBlock) (depth : Int) :
    (b.moved count rise).isOver (depth + rise) = b.isOver depth := by
  simp only [isOver, moved, Int.add_lt_add_iff_right, Int.add_le_add_iff_right]

theorem endAt_moved (b : OpenBlock) {last later : Nat} (closed : Bool)
    (lasts : max (b.first + count) later = max b.first last + count) :
    (b.moved count rise).endAt later closed = (b.endAt last closed).moved count rise := by
  simp only [endAt, moved, MediaBlock.moved, Span.moved, Span.between, lasts]

end OpenBlock

namespace BlockScan

variable {count : Nat} {rise : Int} {line : String}

/-- The same knowledge of a place further down and deeper. -/
def moved (s : BlockScan) (count : Nat) (rise : Int) : BlockScan :=
  ⟨s.index + count, s.depth + rise, s.current.map (·.moved count rise)⟩

theorem blockFor_moved (s : BlockScan) (line : String) :
    (s.moved count rise).blockFor line = (s.blockFor line).map (·.moved count rise) := by
  simp only [blockFor, moved]
  cases s.current with
  | some block => rfl
  | none =>
    simp only [Option.map_none]
    split <;> rfl

/-- **One line does the same further down and deeper.** -/
theorem feed_moved (s : BlockScan) (line : String) :
    (s.moved count rise).feed line =
      ((s.feed line).1.moved count rise, (s.feed line).2.map (·.moved count rise)) := by
  have deeper : (s.moved count rise).depth + lineDelta line = s.depth + lineDelta line + rise := by
    simp only [moved]
    omega
  have later : (s.moved count rise).index + 1 = s.index + 1 + count := by
    simp only [moved]
    omega
  have entered : (s.moved count rise).blockFor line =
      (s.blockFor line).map (·.moved count rise) := s.blockFor_moved line
  cases here : s.blockFor line with
  | none =>
    rw [here, Option.map_none] at entered
    rw [feed_of_blockFor_eq_none here, feed_of_blockFor_eq_none entered, deeper, later]
    rfl
  | some block =>
    rw [here, Option.map_some] at entered
    rw [feed_of_blockFor_eq_some here, feed_of_blockFor_eq_some entered, deeper, later]
    have ends : ((block.moved count rise).after line).isOver (s.depth + lineDelta line + rise) =
        (block.after line).isOver (s.depth + lineDelta line) :=
      (block.after line).isOver_moved _
    rw [ends]
    split
    · have ended : ((block.moved count rise).after line).endAt (s.moved count rise).index true =
          ((block.after line).endAt s.index true).moved count rise :=
        (block.after line).endAt_moved true (Nat.add_max_add_right _ _ _)
      rw [ended]
      rfl
    · rfl

/-- **The blocks further down and deeper are the same blocks, moved.** -/
theorem blocks_moved (s : BlockScan) (lines : List String) :
    (s.moved count rise).blocks lines = (s.blocks lines).map (·.moved count rise) := by
  induction lines generalizing s with
  | nil =>
    cases current : s.current with
    | none => simp [blocks, unfinished, moved, current]
    | some block =>
      -- the last line is the one before the index, and the first one when there is none before
      have ended : (block.moved count rise).endAt (s.index + count - 1) false =
          (block.endAt (s.index - 1) false).moved count rise :=
        block.endAt_moved false (by omega)
      simp [blocks, unfinished, moved, current, ended]
  | cons line rest ih =>
    rw [blocks_cons, blocks_cons, feed_moved, ih, List.map_append]
    cases (s.feed line).2 <;> rfl

/-- The lines left further down and deeper are the same lines. -/
theorem left_moved (s : BlockScan) (lines : List String) :
    (s.moved count rise).left lines = s.left lines := by
  induction lines generalizing s with
  | nil => rfl
  | cons line rest ih => rw [left, left, feed_moved, ih, blockFor_moved, Option.isSome_map]

/-! ## What is behind a part -/

variable {s : BlockScan} {lines : List String}

/-- A block that has ended is closed. -/
theorem closed_of_mem_told {b : MediaBlock} (mem : b ∈ s.told lines) : b.closed = true := by
  induction lines generalizing s with
  | nil => cases mem
  | cons line rest ih =>
    rcases List.mem_append.1 mem with here | behind
    · cases entered : s.blockFor line with
      | none =>
        rw [feed_of_blockFor_eq_none entered] at here
        cases here
      | some block =>
        rw [feed_of_blockFor_eq_some entered] at here
        split at here
        · rw [List.mem_singleton.1 here]
          rfl
        · cases here
    · exact ih behind

/-- **The block that the pass is in is the next one that it tells**, whatever lines follow. -/
theorem exists_current {block : OpenBlock} (current : s.current = some block)
    (lines : List String) :
    ∃ b later, s.blocks lines = b :: later ∧ b.span.first = block.first ∧
      b.query = block.query ∧ b.depth = block.baseline := by
  induction lines generalizing s block with
  | nil =>
    refine ⟨block.endAt (s.index - 1) false, [], ?_, rfl, rfl, rfl⟩
    rw [blocks, unfinished, current]
    rfl
  | cons line rest ih =>
    have entered : s.blockFor line = some block := by rw [blockFor, current]
    rw [blocks_cons, feed_of_blockFor_eq_some entered]
    split
    · exact ⟨_, _, rfl, rfl, rfl, rfl⟩
    · have goesOn : (⟨s.index + 1, s.depth + lineDelta line, some (block.after line)⟩ :
          BlockScan).current = some (block.after line) := rfl
      -- A line after its first one leaves the query and the baseline of a block as they are.
      obtain ⟨b, later, told, sameStart⟩ := ih goesOn
      exact ⟨b, later, told, sameStart⟩

/-- Behind lines that leave no block open, the pass stands as at the start of a sheet. -/
theorem after_eq_moved (ended : (start.after lines).current = none) :
    start.after lines = start.moved lines.length (depthAfter lines) := by
  have index := start.index_after lines
  have depth := start.depth_after lines
  cases stands : start.after lines with
  | mk i d current =>
    rw [stands] at ended index depth
    simp only at ended index depth
    rw [ended, index, depth]
    rfl

/-- The pass is in no block behind lines whose blocks are all closed. -/
theorem current_after_eq_none (closed : ∀ b ∈ mediaBlocks lines, b.closed = true) :
    (start.after lines).current = none := by
  cases current : (start.after lines).current with
  | none => rfl
  | some block =>
    have unended : block.endAt ((start.after lines).index - 1) false ∈ mediaBlocks lines := by
      rw [mediaBlocks, blocks_eq_told_append, unfinished, current]
      simp
    exact absurd (closed _ unended) Bool.false_ne_true

/-- The pass is in the block that lines leave open, and has told the others. -/
theorem exists_current_after {earlier : List MediaBlock} {b : MediaBlock}
    (found : mediaBlocks lines = earlier ++ [b]) (opened : b.closed = false) :
    ∃ block, (start.after lines).current = some block ∧ start.told lines = earlier ∧
      block.first = b.span.first ∧ block.query = b.query ∧ block.baseline = b.depth := by
  rw [mediaBlocks, blocks_eq_told_append, unfinished] at found
  cases current : (start.after lines).current with
  | none =>
    rw [current] at found
    have mem : b ∈ start.told lines := by
      rw [← List.append_nil (start.told lines)]
      exact found ▸ List.mem_append_right _ (List.mem_singleton_self b)
    rw [closed_of_mem_told mem] at opened
    cases opened
  | some block =>
    rw [current] at found
    obtain ⟨told, last⟩ := List.append_inj' found rfl
    obtain rfl := List.singleton_inj.1 last
    exact ⟨block, rfl, told, rfl, rfl, rfl⟩

end BlockScan

/-! ## Two sheets -/

/-- **Two sheets put together.**  When the first one leaves no block open, its blocks are followed
by those of the second one, further down by its lines and deeper by its depth; and what is left of
both is what is left of the one and of the other.  When the first one leaves a block open, the
blocks before it stay, and the next one starts as that one did. -/
theorem mediaBlocks_append (xs ys : List String) :
    ((∀ b ∈ mediaBlocks xs, b.closed = true) →
      mediaBlocks (xs ++ ys) =
          mediaBlocks xs ++ (mediaBlocks ys).map (·.moved xs.length (depthAfter xs)) ∧
        (stripMedia (xs ++ ys)).kept = (stripMedia xs).kept ++ (stripMedia ys).kept) ∧
    ∀ earlier b, mediaBlocks xs = earlier ++ [b] → b.closed = false →
      ∃ b' later, mediaBlocks (xs ++ ys) = earlier ++ b' :: later ∧
        b'.span.first = b.span.first ∧ b'.query = b.query ∧ b'.depth = b.depth := by
  constructor
  · intro closed
    have ended := BlockScan.current_after_eq_none closed
    have whole := BlockScan.start.blocks_eq_told_append xs
    rw [BlockScan.unfinished, ended, Option.map_none, Option.toList_none, List.append_nil] at whole
    constructor
    · rw [mediaBlocks, BlockScan.blocks_append, BlockScan.after_eq_moved ended,
        BlockScan.blocks_moved, ← whole]
      rfl
    · simp only [BlockScan.kept_stripMedia_eq_left]
      rw [BlockScan.left_append, BlockScan.after_eq_moved ended, BlockScan.left_moved]
  · intro earlier b found opened
    obtain ⟨block, current, told, first, query, depth⟩ :=
      BlockScan.exists_current_after found opened
    obtain ⟨b', later, blocks, first', query', depth'⟩ := BlockScan.exists_current current ys
    refine ⟨b', later, ?_, first'.trans first, query'.trans query, depth'.trans depth⟩
    rw [mediaBlocks, BlockScan.blocks_append, told, blocks]

/-- A sheet that closes more braces than it opens and leaves no block open. -/
def closedLines : List String := ["@media a \x7b", "\x7d", "\x7d"]

/-- A sheet that leaves a block open. -/
def openLines : List String := [".b \x7b", " @media b", "\x7b"]

/-- Behind the first sheet, the block of the second one stands three lines further down and one step
higher up; behind the second one, a sheet ends the block that it left open. -/
theorem mediaBlocks_append_closedLines :
    (∀ b ∈ mediaBlocks closedLines, b.closed = true) ∧
    (mediaBlocks (closedLines ++ openLines)).map (fun b => (b.span.text, b.query, b.depth)) =
      [("1-2", "@media a \x7b", 0), ("5-6", "@media b", 0)] ∧
    (stripMedia (closedLines ++ openLines)).kept = ["\x7d", ".b \x7b"] ∧
    ∃ b' later, mediaBlocks (openLines ++ closedLines) = b' :: later ∧
      b'.span.first = 1 ∧ b'.query = "@media b" ∧ b'.depth = 1 := by
  have closed : ∀ b ∈ mediaBlocks closedLines, b.closed = true := by decide
  obtain ⟨blocks, kept⟩ := (mediaBlocks_append closedLines openLines).1 closed
  refine ⟨closed, ?_, ?_, ?_⟩
  · rw [blocks]
    decide
  · rw [kept]
    decide
  · exact (mediaBlocks_append openLines closedLines).2 [] ⟨⟨1, 2, by decide⟩, "@media b", 1, false⟩
      (by decide) rfl

end MediaSweep
