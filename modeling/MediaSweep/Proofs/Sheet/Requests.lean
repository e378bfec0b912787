import Mathlib.Data.List.Forall2
import MediaSweep.Proofs.Sheet.BlockEnd
import MediaSweep.Proofs.Sheet.Places
import MediaSweep.Proofs.Sheet.Strip
import MediaSweep.Sheet.Cleanup

/-!
# Requests for the blocks of a sheet

The line numbers of the blocks that the pass finds can be given back as requests.  Every one of them
is answered by a block that starts at the same line (`IsBlock.lookUp_firstLine`), and by the same
block when it comes back to its own depth or ends with the sheet (`IsBlock.reach_eq_iff`).  A block
that ends below its own depth, because its last line closes the enclosing rule as well, is answered
by more lines.

So taking out the requested blocks leaves the same text as taking out every block exactly when the
further lines that the answers cover belong to blocks as well.
-/

namespace MediaSweep

set_option autoImplicit false

variable {lines : List String} {b : MediaBlock}

/-! ## Asking for the first lines of blocks -/

/-- The last line that the search from the first line of a block reaches. -/
def reach (lines : List String) (b : MediaBlock) : Nat :=
  ((blockEnd? lines b.span.first).bind BlockEnd.index?).getD b.span.last

/-- What a request for the first line of a block is answered with. -/
def answerFor (lines : List String) (b : MediaBlock) : LocatedBlock :=
  ⟨b.span.firstLine, Span.between b.span.first (reach lines b), true⟩

namespace IsBlock

/-- The search stops with the last line of the block or with a later one. -/
theorem blockEnd?_cases (block : IsBlock lines b) :
    ∃ stop last, blockEnd? lines b.span.first = some stop ∧ stop.index? = some last ∧
      b.span.last ≤ last ∧ last < lines.length ∧
      (last = b.span.last ↔
        depthAt lines (b.span.last + 1) = b.depth ∨ b.span.last + 1 = lines.length) := by
  have within := block.last_lt_length
  cases closed : b.closed with
  | false =>
    have ends := (block.open_ends closed).2
    exact ⟨_, _, block.blockEnd?_of_open closed, rfl, by omega, by omega, by omega⟩
  | true =>
    rcases Int.lt_or_eq_of_le (block.depthAt_last_le closed) with below | level
    · rcases block.blockEnd?_of_below below with ⟨last, later, inside, found⟩ | found
      · exact ⟨_, _, found, rfl, by omega, by omega, by omega⟩
      · exact ⟨_, _, found, rfl, by omega, by omega, by omega⟩
    · exact ⟨_, _, block.blockEnd?_of_level closed level, rfl, by omega, by omega, by omega⟩

theorem last_le_reach (block : IsBlock lines b) : b.span.last ≤ reach lines b := by
  obtain ⟨stop, last, found, index, low, _⟩ := block.blockEnd?_cases
  simpa [reach, found, index] using low

theorem reach_lt_length (block : IsBlock lines b) : reach lines b < lines.length := by
  obtain ⟨stop, last, found, index, _, high, _⟩ := block.blockEnd?_cases
  simpa [reach, found, index] using high

/-- The search reaches just the block when it comes back to its own depth or ends with the sheet. -/
theorem reach_eq_iff (block : IsBlock lines b) :
    reach lines b = b.span.last ↔
      depthAt lines (b.span.last + 1) = b.depth ∨ b.span.last + 1 = lines.length := by
  obtain ⟨stop, last, found, index, _, _, same⟩ := block.blockEnd?_cases
  simpa [reach, found, index] using same

/-- **A request for the first line of a block finds a block there.** -/
theorem lookUp_firstLine (block : IsBlock lines b) :
    lookUp lines b.span.firstLine = .located (answerFor lines b) := by
  obtain ⟨stop, last, found, index, _⟩ := block.blockEnd?_cases
  obtain ⟨line, there, media, _⟩ := block.heading
  rw [Span.firstLine, lookUp_succ, found]
  simp only [index, there, Option.map_some, media, Option.getD_some]
  rw [answerFor, reach, found, Option.bind_some, index, Option.getD_some, Span.firstLine]

theorem covers_answerFor (block : IsBlock lines b) {index : Nat} :
    (answerFor lines b).span.covers index = true ↔
      b.span.first ≤ index ∧ index ≤ reach lines b := by
  have := block.last_le_reach
  have := b.span.first_le_last
  rw [answerFor, Span.covers_iff, Span.first_between, Span.last_between (by omega)]

theorem span_answerFor_eq_iff (block : IsBlock lines b) :
    (answerFor lines b).span = b.span ↔
      depthAt lines (b.span.last + 1) = b.depth ∨ b.span.last + 1 = lines.length := by
  have ordered : b.span.first ≤ reach lines b := b.span.first_le_last.trans block.last_le_reach
  have last : (answerFor lines b).span.last = reach lines b := Span.last_between ordered
  rw [← block.reach_eq_iff, ← last]
  exact ⟨congrArg Span.last, Span.eq_of_ends rfl⟩

end IsBlock

/-- **The requests for the first lines of blocks are all answered, in their order.** -/
theorem located_firstLines {blocks : List MediaBlock} (each : ∀ b ∈ blocks, IsBlock lines b) :
    (stripAt (blocks.map (·.span.firstLine)) lines).located = blocks.map (answerFor lines) := by
  rw [located_stripAt, List.filterMap_map]
  induction blocks with
  | nil => rfl
  | cons b rest ih =>
    obtain ⟨here, later⟩ := List.forall_mem_cons.1 each
    rw [List.filterMap_cons, Function.comp_apply, here.lookUp_firstLine, ih later]
    rfl

/-- None of the requests for the first lines of blocks has another outcome. -/
theorem filter_firstLines {blocks : List MediaBlock} (each : ∀ b ∈ blocks, IsBlock lines b)
    {outcome : Request} (other : outcome.block? = none) :
    ((blocks.map (·.span.firstLine)).filter fun lineNumber =>
      lookUp lines lineNumber = outcome) = [] := by
  refine List.filter_eq_nil_iff.2 fun lineNumber mem => ?_
  obtain ⟨b, found, rfl⟩ := List.mem_map.1 mem
  rw [(each b found).lookUp_firstLine, decide_eq_true_iff]
  rintro rfl
  exact absurd other (by simp [Request.block?])

/-! ## Sheets without braces outside their blocks -/

/-- Where no depth is negative and only lines of blocks change the depth, every closed block comes
back to its own depth. -/
theorem BlocksFrom.level_of_flat {start : Nat} {blocks : List MediaBlock}
    (found : BlocksFrom lines start blocks) (within : start ≤ lines.length)
    (nonneg : ∀ index ≤ lines.length, 0 ≤ depthAt lines index) (ground : depthAt lines start = 0)
    (flat : ∀ index line, start ≤ index → lines[index]? = some line →
      (∀ b ∈ blocks, b.span.covers index = false) → lineDelta line = 0) :
    ∀ b ∈ blocks, b.closed = true → depthAt lines (b.span.last + 1) = b.depth := by
  induction blocks generalizing start with
  | nil => simp
  | cons b rest ih =>
    have block := found.each b List.mem_cons_self
    have inside := block.last_lt_length
    have span := b.span.first_le_last
    have depth : b.depth = 0 := by
      rw [block.depth_eq, depthAt_eq_of_flat (found.from_start b List.mem_cons_self) (by omega) ?_,
        ground]
      intro index line low high there
      refine flat index line low there fun other mem => ?_
      rw [← Bool.not_eq_true, Span.covers_iff]
      rcases List.mem_cons.1 mem with rfl | mem
      · omega
      · have := found.tail.from_start other mem
        omega
    have level : b.closed = true → depthAt lines (b.span.last + 1) = b.depth := by
      intro closed
      have := block.depthAt_last_le closed
      have := nonneg (b.span.last + 1) inside
      omega
    refine List.forall_mem_cons.2 ⟨level, ?_⟩
    cases closed : b.closed with
    | false =>
      -- behind a block that is left open there is no other one
      intro later mem _
      have := (block.open_ends closed).2
      have := found.tail.from_start later mem
      have := (found.each later (List.mem_cons_of_mem b mem)).first_lt_length
      omega
    | true =>
      refine ih found.tail inside (by rw [level closed, depth]) fun index line low there free => ?_
      refine flat index line (by have := found.from_start b List.mem_cons_self; omega) there
        (List.forall_mem_cons.2 ⟨?_, free⟩)
      rw [← Bool.not_eq_true, Span.covers_iff]
      omega

/-! ## The same text -/

/-- Every line of a block is covered by the answer to the request for it. -/
theorem covered_of_mem_block {blocks : List MediaBlock} (each : ∀ b ∈ blocks, IsBlock lines b)
    (index : Nat) (inBlock : (blocks.any (·.span.covers index)) = true) :
    ((blocks.map (answerFor lines)).any (·.span.covers index)) = true := by
  obtain ⟨b, mem, covers⟩ := List.any_eq_true.1 inBlock
  have block := each b mem
  have := block.last_le_reach
  rw [Span.covers_iff] at covers
  refine List.any_eq_true.2 ⟨_, List.mem_map_of_mem mem, block.covers_answerFor.2 ?_⟩
  omega

/-- What the requests for the first lines of all blocks leave. -/
theorem kept_firstLines (lines : List String) :
    (stripAt ((mediaBlocks lines).map (·.span.firstLine)) lines).kept =
      keepUnless
        (fun index => ((mediaBlocks lines).map (answerFor lines)).any (·.span.covers index)) 0
        lines := by
  rw [kept_stripAt, located_firstLines fun _ => isBlock_of_mem_mediaBlocks]

/-- The requests for the first lines of all blocks leave the same lines as taking out every block
when the answers cover lines of blocks only. -/
theorem kept_firstLines_eq
    (inside : ∀ b ∈ mediaBlocks lines, ∀ index, (answerFor lines b).span.covers index = true →
      ∃ other ∈ mediaBlocks lines, other.span.covers index = true) :
    (stripAt ((mediaBlocks lines).map (·.span.firstLine)) lines).kept =
      (stripMedia lines).kept := by
  rw [kept_firstLines, kept_stripMedia]
  refine keepUnless_congr fun index _ _ => Bool.eq_iff_iff.2 ⟨fun answered => ?_, ?_⟩
  · obtain ⟨_, answer, covers⟩ := List.any_eq_true.1 answered
    obtain ⟨b, mem, rfl⟩ := List.mem_map.1 answer
    exact List.any_eq_true.2 (inside b mem index covers)
  · exact covered_of_mem_block (fun _ => isBlock_of_mem_mediaBlocks) index

/-- If the text is the same the answers cover lines of blocks only.  Two lists of lines have the
same text when one has no line and the other one empty line; in a balanced text even then no block
ends below its own depth. -/
theorem covered_of_text_firstLines_eq {text : String} (balanced : Balanced text.toList)
    (same : Text.ofLines
        (stripAt ((mediaBlocks (Text.toLines text)).map (·.span.firstLine))
          (Text.toLines text)).kept =
      Text.ofLines (stripMedia (Text.toLines text)).kept) :
    ∀ b ∈ mediaBlocks (Text.toLines text), ∀ index,
      (answerFor (Text.toLines text) b).span.covers index = true →
        ∃ other ∈ mediaBlocks (Text.toLines text), other.span.covers index = true := by
  rw [kept_firstLines, kept_stripMedia] at same
  have unbroken := Text.unbroken_toLines text
  have more := covered_of_mem_block fun b (mem : b ∈ mediaBlocks (Text.toLines text)) =>
    isBlock_of_mem_mediaBlocks mem
  have fewer := length_keepUnless_le 0 (Text.toLines text) more
  rcases Text.eq_of_ofLines_eq
    (fun line mem => unbroken line ((keepUnless_sublist _ _).mem mem))
    (fun line mem => unbroken line ((keepUnless_sublist _ _).mem mem)) same with
    equal | ⟨_, single⟩ | ⟨single, empty⟩
  · intro b mem index covers
    have block := isBlock_of_mem_mediaBlocks mem
    have high := (block.covers_answerFor.1 covers).2
    have := block.reach_lt_length
    refine List.any_eq_true.1 (marked_of_length_keepUnless more (congrArg List.length equal) index
      (Nat.zero_le _) (by omega) (List.any_eq_true.2 ⟨_, List.mem_map_of_mem mem, covers⟩))
  · intro b mem index covers
    have block := isBlock_of_mem_mediaBlocks mem
    have level : depthAt (Text.toLines text) (b.span.last + 1) = b.depth ∨
        b.span.last + 1 = (Text.toLines text).length := by
      cases closed : b.closed with
      | false => exact .inr (block.open_ends closed).2
      | true =>
        refine .inl ((blocksFrom_mediaBlocks (Text.toLines text)).level_of_flat (Nat.zero_le _)
          (fun index within => balanced.depthAt_nonneg within) rfl ?_ b mem closed)
        -- the only line outside the blocks is empty
        intro index line _ found free
        have unmarked :
            (mediaBlocks (Text.toLines text)).any (·.span.covers (0 + index)) = false := by
          rw [Nat.zero_add]
          exact List.any_eq_false.2 fun b mem => by rw [free b mem]; exact Bool.false_ne_true
        have kept : line ∈ keepUnless
            (fun index => (mediaBlocks (Text.toLines text)).any (·.span.covers index)) 0
            (Text.toLines text) := mem_keepUnless found unmarked
        rw [single, List.mem_singleton] at kept
        rw [kept]
        rfl
    rw [block.span_answerFor_eq_iff.2 level] at covers
    exact ⟨b, mem, covers⟩
  · rw [single, empty] at fewer
    exact absurd fewer (by simp)

/-- **Asking for the blocks that the pass finds.**  Every request is answered by a block that starts
at its line; the answer is the block itself exactly when the block comes back to its own depth or
ends with the sheet.  If that holds of all blocks, the text that is left is the one without any
block; in general it is that one exactly when the answers cover lines of blocks only. -/
theorem removeBlocksAt_firstLines {text : String} (balanced : Balanced text.toList) :
    let lines := Text.toLines text
    let blocks := mediaBlocks lines
    let result := removeBlocksAt text (blocks.map (·.span.firstLine))
    result.skipped = [] ∧ result.unmatched = [] ∧
    List.Forall₂ (fun (found : LocatedBlock) (b : MediaBlock) =>
        found.lineNumber = b.span.firstLine ∧ found.onMediaLine = true ∧
        found.span.first = b.span.first ∧ b.span.last ≤ found.span.last ∧
        (found.span = b.span ↔
          depthAt lines (b.span.last + 1) = b.depth ∨ b.span.last + 1 = lines.length))
      result.located blocks ∧
    ((∀ b ∈ blocks, depthAt lines (b.span.last + 1) = b.depth ∨ b.span.last + 1 = lines.length) →
      result.text = Text.ofLines (stripMedia lines).kept) ∧
    (result.text = Text.ofLines (stripMedia lines).kept ↔
      ∀ found ∈ result.located, ∀ index, found.span.covers index = true →
        ∃ b ∈ blocks, b.span.covers index = true) := by
  intro lines blocks result
  have each : ∀ b ∈ blocks, IsBlock lines b := fun _ => isBlock_of_mem_mediaBlocks
  have located : result.located = blocks.map (answerFor lines) := located_firstLines each
  have same : result.text = Text.ofLines (stripMedia lines).kept ↔
      ∀ found ∈ result.located, ∀ index, found.span.covers index = true →
        ∃ b ∈ blocks, b.span.covers index = true := by
    rw [located, List.forall_mem_map]
    exact ⟨covered_of_text_firstLines_eq balanced,
      fun inside => congrArg Text.ofLines (kept_firstLines_eq inside)⟩
  refine ⟨?_, ?_, ?_, fun level => same.2 ?_, same⟩
  · exact (skipped_stripAt _ _).trans (filter_firstLines each rfl)
  · exact (unmatched_stripAt _ _).trans (filter_firstLines each rfl)
  · rw [located, List.forall₂_map_left_iff, List.forall₂_same]
    intro b mem
    have block := each b mem
    have ordered := b.span.first_le_last.trans block.last_le_reach
    refine ⟨rfl, rfl, rfl, ?_, block.span_answerFor_eq_iff⟩
    rw [answerFor, Span.last_between ordered]
    exact block.last_le_reach
  · rw [located, List.forall_mem_map]
    intro b mem index covers
    rw [(each b mem).span_answerFor_eq_iff.2 (level b mem)] at covers
    exact ⟨b, mem, covers⟩

/-- A balanced text with two nested blocks: one comes back to its own depth, and the last line of
the other one ends the text. -/
def nestedText : String :=
  "a \x7b\n@media x \x7b\nb \x7b\x7d\n\x7d\n.c \x7b\x7d\n@media y \x7b\n\x7d\x7d"

theorem removeBlocksAt_nestedText :
    Balanced nestedText.toList ∧
    (∀ b ∈ mediaBlocks (Text.toLines nestedText),
      depthAt (Text.toLines nestedText) (b.span.last + 1) = b.depth ∨
        b.span.last + 1 = (Text.toLines nestedText).length) ∧
    (removeBlocksAt nestedText
        ((mediaBlocks (Text.toLines nestedText)).map (·.span.firstLine))).text =
      Text.ofLines (stripMedia (Text.toLines nestedText)).kept :=
  have balanced : Balanced nestedText.toList := by decide +kernel
  have level : ∀ b ∈ mediaBlocks (Text.toLines nestedText),
      depthAt (Text.toLines nestedText) (b.span.last + 1) = b.depth ∨
        b.span.last + 1 = (Text.toLines nestedText).length := by decide +kernel
  ⟨balanced, level, (removeBlocksAt_firstLines balanced).2.2.2.1 level⟩

/-- A balanced text in which the last line of a block closes the enclosing rule as well. -/
def overclosedText : String :=
  Text.ofLines overclosedLines

/-- Asking for the block of this text takes out the rule behind it, too. -/
theorem removeBlocksAt_overclosedText :
    Balanced overclosedText.toList ∧
    (mediaBlocks (Text.toLines overclosedText)).map (·.span) = [Span.between 1 3] ∧
    (removeBlocksAt overclosedText
        ((mediaBlocks (Text.toLines overclosedText)).map (·.span.firstLine))).located.map (·.span) =
      [Span.between 1 4] ∧
    (removeBlocksAt overclosedText
        ((mediaBlocks (Text.toLines overclosedText)).map (·.span.firstLine))).text ≠
      Text.ofLines (stripMedia (Text.toLines overclosedText)).kept := by
  decide +kernel

end MediaSweep
