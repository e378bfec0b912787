import Mathlib.Order.Nat
import MediaSweep.Proofs.Sheet.Blocks
import MediaSweep.Sheet.BlockEnd

/-!
# Where the block from a line closes

The search that starts from a named line counts from zero.  Counted that way the depth is the
difference of two depths of the sheet, so the search finds the first line that closes a block
starting at the first line with `@media` (`blockEnd?_eq_closed`), and says so when there is none
(`blockEnd?_eq_unterminated`).

The pass over the sheet ends a block with the first line after which it is over.  A line that closes
a block also ends it, so the search never stops before the pass does; it stops with it when the
block comes back to its own depth, and runs past it when the last line of the block closes more than
the block.
-/

namespace MediaSweep

set_option autoImplicit false

variable {lines : List String}

/-! ## The search -/

/-- What an answer of the search from a line says, for a block that starts with the line `first`. -/
def ClosingAnswer (lines : List String) (first index : Nat) : Option Nat → Prop
  | some last => IsLeast {last | index ≤ last ∧ ClosesAt lines first last} last
  | none => ∀ last, index ≤ last → ¬ ClosesAt lines first last

/-- **The search for the closing line finds the first one.**  The count is the depth above the one
before the block. -/
theorem closingLine?_answer (lines : List String) {first index : Nat} (ordered : first ≤ index)
    {rest : List String} (ahead : lines.drop index = rest) :
    ClosingAnswer lines first index
      (closingLine? index (depthAt lines index - depthAt lines first) rest) := by
  induction rest generalizing index with
  | nil =>
    have finished := List.drop_eq_nil_iff.1 ahead
    intro last later closes
    have := closes.overAt.2.1
    omega
  | cons line rest ih =>
    obtain ⟨found, behind⟩ := getElem?_of_drop_eq_cons ahead
    have count : depthAt lines index - depthAt lines first + (BraceTally.ofLine line).delta =
        depthAt lines (index + 1) - depthAt lines first := by
      rw [depthAt_succ found, lineDelta]
      omega
    have test : depthAt lines (index + 1) - depthAt lines first = 0 ∧
        (BraceTally.ofLine line).hasClose = true ↔ ClosesAt lines first index := by
      rw [BraceTally.hasClose_ofLine, Int.sub_eq_zero]
      constructor
      · rintro ⟨level, close⟩
        exact ⟨ordered, ⟨line, found, close⟩, level⟩
      · rintro ⟨_, ⟨other, there, close⟩, level⟩
        rw [found, Option.some_inj] at there
        exact ⟨level, there ▸ close⟩
    rw [closingLine?]
    simp only [count]
    by_cases closes : ClosesAt lines first index
    · rw [if_pos (test.2 closes)]
      exact ⟨⟨le_refl _, closes⟩, fun last later => later.1⟩
    · rw [if_neg (mt test.1 closes)]
      have further := @ih (index + 1) (by omega) behind
      -- the line of this index does not close the block, so nothing changes when it is left out
      have same : ∀ last, index + 1 ≤ last ∧ ClosesAt lines first last ↔
          index ≤ last ∧ ClosesAt lines first last := by
        refine fun last => and_congr_left fun closesLast => ⟨Nat.le_of_succ_le, fun later => ?_⟩
        rcases Nat.eq_or_lt_of_le later with rfl | later
        · exact absurd closesLast closes
        · exact later
      cases answer : closingLine? (index + 1) (depthAt lines (index + 1) - depthAt lines first)
          rest with
      | some last =>
        rw [answer] at further
        simpa only [ClosingAnswer, same] using further
      | none =>
        rw [answer] at further
        intro last later closesLast
        exact further last ((same last).2 ⟨later, closesLast⟩).1 closesLast

/-- The block from a line on starts with the first line with `@media`. -/
theorem blockEnd?_eq_of_isLeast {start media : Nat}
    (first : IsLeast {index | start ≤ index ∧ MediaAt lines index} media) :
    blockEnd? lines start =
      match closingLine? media 0 (lines.drop media) with
      | some index => some (.closed index)
      | none => some (.unterminated (lines.length - 1)) := by
  obtain ⟨⟨later, line, found, isMedia⟩, least⟩ := first
  have within : media < lines.length := (List.getElem?_eq_some_iff.1 found).1
  have ahead : (lines.drop start).findIdx? isMediaLine = some (media - start) := by
    refine List.findIdx?_eq_some_iff_getElem.2 ⟨by simp; omega, ?_, ?_⟩
    · have place : start + (media - start) = media := by omega
      simpa [place, (List.getElem?_eq_some_iff.1 found).2] using isMedia
    · intro index before isMedia'
      simp only [List.getElem_drop] at isMedia'
      have := least ⟨Nat.le_add_right start index, _, List.getElem?_eq_getElem _, isMedia'⟩
      omega
  have size : (lines.drop start).length = lines.length - start := List.length_drop
  rw [blockEnd?]
  cases tail : lines.drop start with
  | nil =>
    rw [tail] at size
    simp only [List.length_nil] at size
    omega
  | cons head rest =>
    have behind : (head :: rest).drop (media - start) = lines.drop media := by
      rw [← tail, List.drop_drop]
      congr 1
      omega
    have place : start + (media - start) = media := by omega
    have last : start + rest.length = lines.length - 1 := by
      rw [tail, List.length_cons] at size
      omega
    rw [blockEndFrom?, ← tail, ahead]
    cases answer : closingLine? media 0 (lines.drop media) <;>
      simp only [tail, behind, place, last, answer]

/-- A block that some line closes ends with the first such line. -/
theorem blockEnd?_eq_closed {start media last : Nat}
    (first : IsLeast {index | start ≤ index ∧ MediaAt lines index} media)
    (closes : IsLeast {last | ClosesAt lines media last} last) :
    blockEnd? lines start = some (.closed last) := by
  have answer := closingLine?_answer lines (le_refl media) rfl
  rw [Int.sub_self] at answer
  rw [blockEnd?_eq_of_isLeast first]
  cases found : closingLine? media 0 (lines.drop media) with
  | none =>
    rw [found] at answer
    exact absurd closes.1 (answer last closes.1.1)
  | some last' =>
    rw [found] at answer
    have low := closes.2 answer.1.2
    have high := answer.2 ⟨closes.1.1, closes.1⟩
    rw [Nat.le_antisymm low high]

/-- A block that no line closes runs to the last line. -/
theorem blockEnd?_eq_unterminated {start media : Nat}
    (first : IsLeast {index | start ≤ index ∧ MediaAt lines index} media)
    (unclosed : ∀ last, ¬ ClosesAt lines media last) :
    blockEnd? lines start = some (.unterminated (lines.length - 1)) := by
  have answer := closingLine?_answer lines (le_refl media) rfl
  rw [Int.sub_self] at answer
  rw [blockEnd?_eq_of_isLeast first]
  cases found : closingLine? media 0 (lines.drop media) with
  | none => rfl
  | some last =>
    rw [found] at answer
    exact absurd answer.1.2 (unclosed last)

/-! ## The search and the pass -/

namespace IsBlock

variable {b : MediaBlock}

theorem isLeast_first (block : IsBlock lines b) :
    IsLeast {index | b.span.first ≤ index ∧ MediaAt lines index} b.span.first :=
  ⟨⟨le_refl _, block.mediaAt⟩, fun _ later => later.1⟩

/-- No line closes a block before the block ends. -/
theorem last_le_of_closesAt (block : IsBlock lines b) {last : Nat}
    (closes : ClosesAt lines b.span.first last) : b.span.last ≤ last := by
  by_contra before
  exact block.running (by omega) closes.overAt

/-- A closed block does not end above its own depth. -/
theorem depthAt_last_le (block : IsBlock lines b) (closed : b.closed = true) :
    depthAt lines (b.span.last + 1) ≤ b.depth := by
  rw [block.depth_eq]
  exact depthAt_le_of_overAt (block.closed_ends closed).1

/-- The search stops where a block comes back to its own depth. -/
theorem blockEnd?_of_level (block : IsBlock lines b) (closed : b.closed = true)
    (level : depthAt lines (b.span.last + 1) = b.depth) :
    blockEnd? lines b.span.first = some (.closed b.span.last) := by
  refine blockEnd?_eq_closed block.isLeast_first ⟨?_, fun _ => block.last_le_of_closesAt⟩
  rw [block.depth_eq] at level
  exact closesAt_of_overAt (block.closed_ends closed).1 (fun _ => block.running) level

/-- The search finds no end of a block that is left open. -/
theorem blockEnd?_of_open (block : IsBlock lines b) (opened : b.closed = false) :
    blockEnd? lines b.span.first = some (.unterminated (lines.length - 1)) :=
  blockEnd?_eq_unterminated block.isLeast_first fun last closes =>
    (block.open_ends opened).1 last closes.overAt

/-- The search runs past a block that ends below its own depth. -/
theorem blockEnd?_of_below (block : IsBlock lines b)
    (below : depthAt lines (b.span.last + 1) < b.depth) :
    (∃ last, b.span.last < last ∧ last < lines.length ∧
      blockEnd? lines b.span.first = some (.closed last)) ∨
        blockEnd? lines b.span.first = some (.unterminated (lines.length - 1)) := by
  classical
  rw [block.depth_eq] at below
  by_cases closes : ∃ last, ClosesAt lines b.span.first last
  · have least := Nat.isLeast_find closes
    refine .inl ⟨Nat.find closes, ?_, least.1.overAt.2.1,
      blockEnd?_eq_closed block.isLeast_first least⟩
    refine lt_of_le_of_ne (block.last_le_of_closesAt least.1) fun same => ?_
    have level := least.1.2.2
    rw [← same] at level
    omega
  · exact .inr (blockEnd?_eq_unterminated block.isLeast_first fun last at_last =>
      closes ⟨last, at_last⟩)

end IsBlock

/-- **The search and the pass agree on every block that comes back to its own depth or is left
open, and the search never stops before the pass.**  Only for a block that ends below its own depth
does the search go on, to a later line that closes it or to the end of the sheet. -/
theorem blockEnd?_of_mem_mediaBlocks {b : MediaBlock} (mem : b ∈ mediaBlocks lines) :
    (b.closed = true → depthAt lines (b.span.last + 1) = b.depth →
      blockEnd? lines b.span.first = some (.closed b.span.last)) ∧
    (b.closed = false →
      blockEnd? lines b.span.first = some (.unterminated (lines.length - 1)) ∧
        b.span.last = lines.length - 1) ∧
    (b.closed = true → depthAt lines (b.span.last + 1) < b.depth →
      (∃ last, b.span.last < last ∧ last < lines.length ∧
        blockEnd? lines b.span.first = some (.closed last)) ∨
          blockEnd? lines b.span.first = some (.unterminated (lines.length - 1)) ∧
            b.span.last ≤ lines.length - 1) := by
  have block := isBlock_of_mem_mediaBlocks mem
  have within := block.last_lt_length
  refine ⟨block.blockEnd?_of_level, fun opened => ?_, fun _ below => ?_⟩
  · have last := (block.open_ends opened).2
    exact ⟨block.blockEnd?_of_open opened, by omega⟩
  · rcases block.blockEnd?_of_below below with closed | unterminated
    · exact .inl closed
    · exact .inr ⟨unterminated, by omega⟩

/-- A sheet in which the last line of a block closes the enclosing rule as well. -/
def overclosedLines : List String :=
  ["a \x7b", "@media x \x7b", "b \x7b", "\x7d\x7d\x7d", ".c \x7b\x7d"]

/-- Its block. -/
def overclosedBlock : MediaBlock :=
  ⟨Span.between 1 3, "@media x \x7b", 1, true⟩

theorem blockEnd?_overclosedBlock :
    overclosedBlock ∈ mediaBlocks overclosedLines ∧ overclosedBlock.closed = true ∧
    depthAt overclosedLines (overclosedBlock.span.last + 1) < overclosedBlock.depth ∧
    ((∃ last, overclosedBlock.span.last < last ∧ last < overclosedLines.length ∧
      blockEnd? overclosedLines overclosedBlock.span.first = some (.closed last)) ∨
        blockEnd? overclosedLines overclosedBlock.span.first =
          some (.unterminated (overclosedLines.length - 1)) ∧
            overclosedBlock.span.last ≤ overclosedLines.length - 1) :=
  have mem : overclosedBlock ∈ mediaBlocks overclosedLines := by decide +kernel
  have below : depthAt overclosedLines (overclosedBlock.span.last + 1) < overclosedBlock.depth := by
    decide +kernel
  ⟨mem, rfl, below, (blockEnd?_of_mem_mediaBlocks mem).2.2 rfl below⟩

end MediaSweep
