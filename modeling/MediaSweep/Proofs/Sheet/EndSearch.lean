import MediaSweep.Proofs.Sheet.Balance
import MediaSweep.Proofs.Sheet.InTurn

/-!
# What the search for the end of a block finds

The search that starts from a named line has four kinds of answer, and each of them is said here by
the lines of the sheet alone (`IsEndAnswer`).  The first line with `@media` at or after the named
one is where the block starts; the block ends with the first line from there on that closes a brace
and up to which the braces of the block cancel out.  A sheet has exactly one answer, and the search
gives it (`blockEnd?_exact`).

What the search looks at is less than the sheet.  Of the lines above the block it asks only whether
they have `@media` in them, so they can be exchanged for others that have not
(`blockEnd?_of_drop_eq`); and behind the line that closes the block it does not look at all.
-/

namespace MediaSweep

set_option autoImplicit false

variable {lines lines' : List String} {start media last : Nat}

/-! ## The answers -/

/-- The braces of the lines from one index to another cancel out, and the last of these lines closes
one. -/
def CancelsAt (lines : List String) (first last : Nat) : Prop :=
  first ≤ last ∧ depthAfter ((lines.drop first).take (last + 1 - first)) = 0 ∧
    ∃ line, lines[last]? = some line ∧ closeBrace ∈ line.toList

/-- The first line with `@media` at or after a named one. -/
abbrev FirstMedia (lines : List String) (start media : Nat) : Prop :=
  IsLeast {index | start ≤ index ∧ MediaAt lines index} media

/-- What each answer to the search for the end of a block from a named line says. -/
def IsEndAnswer (lines : List String) (start : Nat) : Option BlockEnd → Prop
  | none => lines.length ≤ start
  | some .notStarted => start < lines.length ∧ ∀ index, start ≤ index → ¬ MediaAt lines index
  | some (.closed last) =>
    ∃ media, FirstMedia lines start media ∧ IsLeast {index | CancelsAt lines media index} last
  | some (.unterminated last) =>
    ∃ media, FirstMedia lines start media ∧ (∀ index, ¬ CancelsAt lines media index) ∧
      last + 1 = lines.length

/-- The braces of the lines cancel out when the depth behind them is the one before them. -/
theorem cancelsAt_iff_closesAt {first : Nat} :
    CancelsAt lines first last ↔ ClosesAt lines first last := by
  refine and_congr_right fun ordered => ?_
  have behind : first + (last + 1 - first) = last + 1 := by omega
  rw [depthAfter_slice, behind, Int.sub_eq_zero, and_comm]

/-- Without `@media` from a line of the sheet on, no block starts. -/
theorem blockEnd?_eq_notStarted (within : start < lines.length)
    (plain : ∀ index, start ≤ index → ¬ MediaAt lines index) :
    blockEnd? lines start = some .notStarted := by
  rcases blockEnd?_outcome lines start with ⟨past, _⟩ | ⟨_, _, answer⟩ |
    ⟨_, ⟨line, mem, isMedia⟩, _⟩
  · exact absurd within (Nat.not_lt_of_le past)
  · exact answer
  · obtain ⟨index, later, there⟩ := exists_mediaAt_of_mem_drop mem isMedia
    exact absurd there (plain index later)

/-- **A sheet has no other answer than the one that the search gives.** -/
theorem IsEndAnswer.eq {answer : Option BlockEnd} (told : IsEndAnswer lines start answer) :
    blockEnd? lines start = answer := by
  match answer with
  | none => exact (blockEnd?_eq_none_iff lines start).2 told
  | some .notStarted => exact blockEnd?_eq_notStarted told.1 told.2
  | some (.closed last) =>
    obtain ⟨media, first, ends⟩ := told
    simp only [cancelsAt_iff_closesAt] at ends
    exact blockEnd?_eq_closed first ends
  | some (.unterminated last) =>
    obtain ⟨media, first, unclosed, size⟩ := told
    simp only [cancelsAt_iff_closesAt] at unclosed
    have place : lines.length - 1 = last := by omega
    rw [blockEnd?_eq_unterminated first unclosed, place]

/-- Every sheet has an answer. -/
theorem exists_isEndAnswer (lines : List String) (start : Nat) :
    ∃ answer, IsEndAnswer lines start answer := by
  classical
  by_cases past : lines.length ≤ start
  · exact ⟨none, past⟩
  have within : start < lines.length := Nat.lt_of_not_le past
  by_cases starts : ∃ media, start ≤ media ∧ MediaAt lines media
  · have first := Nat.isLeast_find starts
    generalize Nat.find starts = media at first
    by_cases cancels : ∃ last, CancelsAt lines media last
    · exact ⟨some (.closed (Nat.find cancels)), media, first, Nat.isLeast_find cancels⟩
    · exact ⟨some (.unterminated (lines.length - 1)), media, first, not_exists.1 cancels, by omega⟩
  · exact ⟨some .notStarted, within, fun index later there => starts ⟨index, later, there⟩⟩

theorem blockEnd?_eq_iff (lines : List String) (start : Nat) (answer : Option BlockEnd) :
    blockEnd? lines start = answer ↔ IsEndAnswer lines start answer := by
  refine ⟨?_, IsEndAnswer.eq⟩
  rintro rfl
  obtain ⟨answer, told⟩ := exists_isEndAnswer lines start
  rwa [told.eq]

/-! ## What the answer depends on -/

theorem getElem?_eq_of_drop_eq {count index : Nat} (same : lines.drop count = lines'.drop count)
    (behind : count ≤ index) : lines[index]? = lines'[index]? := by
  have there := congrArg (·[index - count]?) same
  have place : count + (index - count) = index := by omega
  simpa only [List.getElem?_drop, place] using there

theorem MediaAt.of_drop_eq {count index : Nat} (same : lines.drop count = lines'.drop count)
    (behind : count ≤ index) (there : MediaAt lines index) : MediaAt lines' index := by
  rwa [MediaAt, ← getElem?_eq_of_drop_eq same behind]

/-- **The lines above the block do not matter**, as long as no block starts in them. -/
theorem blockEnd?_of_drop_eq (first : FirstMedia lines start media)
    (same : lines.drop media = lines'.drop media)
    (plain : ∀ index, start ≤ index → index < media → ¬ MediaAt lines' index) :
    blockEnd? lines' start = blockEnd? lines start := by
  have within := first.1.2.lt_length
  have sizes : lines'.length = lines.length := by
    have := congrArg List.length same
    rw [List.length_drop, List.length_drop] at this
    omega
  have first' : FirstMedia lines' start media := by
    refine ⟨⟨first.1.1, first.1.2.of_drop_eq same (le_refl media)⟩, fun index there => ?_⟩
    by_contra above
    exact plain index there.1 (Nat.lt_of_not_le above) there.2
  rw [blockEnd?_eq_of_isLeast first, blockEnd?_eq_of_isLeast first', same, sizes]

/-- **The search for the end of a block has one answer**, and it is the one that the lines give.  It
does not depend on the lines above the block, as long as no block starts in them; and an answer that
names the line that closes the block depends on the lines up to this one only, so it stays when
lines are put behind it. -/
theorem blockEnd?_exact (lines : List String) (start : Nat) :
    (∀ answer, blockEnd? lines start = answer ↔ IsEndAnswer lines start answer) ∧
    (∀ media lines', FirstMedia lines start media → lines.drop media = lines'.drop media →
      (∀ index, start ≤ index → index < media → ¬ MediaAt lines' index) →
        blockEnd? lines' start = blockEnd? lines start) ∧
    (∀ last lines', blockEnd? lines start = some (.closed last) →
      lines.take (last + 1) = lines'.take (last + 1) →
        blockEnd? lines' start = some (.closed last)) := by
  refine ⟨blockEnd?_eq_iff lines start, fun _ _ => blockEnd?_of_drop_eq, ?_⟩
  intro last lines' answer same
  obtain ⟨media, first, ends⟩ := (blockEnd?_eq_iff lines start _).1 answer
  simp only [cancelsAt_iff_closesAt] at ends
  exact blockEnd?_of_take_eq first ends same

/-- A sheet in which a block closes a brace too many before it opens one. -/
def lateLines : List String :=
  [".a \x7b", "\x7d", "\x7d @media x", "\x7b", "\x7b", "\x7d", ".b \x7b\x7d"]

/-- The same block behind other lines, and with others behind it. -/
def movedLines : List String :=
  ["", "\x7d\x7d", "\x7d @media x", "\x7b", "\x7b", "\x7d", ".b \x7b\x7d"]

/-- Behind the fourth line the braces of the block cancel out, but it closes none; the sixth line is
the last one of the block, whatever stands above it or below it. -/
theorem blockEnd?_exact_lateLines :
    FirstMedia lateLines 1 2 ∧ CancelsAt lateLines 2 5 ∧
    blockEnd? lateLines 1 = some (.closed 5) ∧ blockEnd? movedLines 1 = some (.closed 5) ∧
    ∀ later, blockEnd? (lateLines.take 6 ++ later) 1 = some (.closed 5) := by
  have first : FirstMedia lateLines 1 2 := by
    refine ⟨⟨by decide, _, rfl, by decide⟩, fun index there => ?_⟩
    obtain ⟨low, line, found, media⟩ := there
    by_contra above
    obtain rfl : index = 1 := by omega
    rw [← Option.some.inj found] at media
    exact absurd media (by decide)
  have plain : ∀ index, 1 ≤ index → index < 2 → ¬ MediaAt movedLines index := by
    rintro index low high ⟨line, found, media⟩
    obtain rfl : index = 1 := by omega
    rw [← Option.some.inj found] at media
    exact absurd media (by decide)
  have answer : blockEnd? lateLines 1 = some (.closed 5) := by decide
  obtain ⟨exact, above, below⟩ := blockEnd?_exact lateLines 1
  refine ⟨first, ⟨by decide, by decide, _, rfl, by decide⟩, answer, ?_, fun later => ?_⟩
  · rw [above 2 movedLines first (by decide) plain, answer]
  · exact below 5 _ answer (by rw [List.take_left' (by decide)])

end MediaSweep
