import MediaSweep.Proofs.Sheet.BlockEnd
import MediaSweep.Proofs.Sheet.LineCount
import MediaSweep.Proofs.Sheet.Strip
import MediaSweep.Sheet.Cleanup

/-!
# The account of requested blocks

Every request comes out in one of three ways, and the sheet as it was given decides in which one
(`lookUp_cases`): it names no line of the sheet, or no line from it on has `@media` in it, or it is
answered by a block.  The answer starts with the line asked for, ends where the search for the end
of a block stops, and lies in the sheet (`LocatedBlock.Answers`).

`TargetedCleanup.AccountsFor` says what is told about some requests and what is left of the sheet.
It holds of every text and all requests (`accountsFor_removeBlocksAt`), zeros, repetitions and
numbers behind the last line included.  What is counted are marks, and they count the lines taken
out because no mark lies behind the end of the sheet.
-/

namespace MediaSweep

set_option autoImplicit false

variable {lines : List String} {requests : List Nat}

/-! ## Where the answer to a request ends -/

theorem exists_mediaAt_of_mem_drop {start : Nat} {line : String} (mem : line ∈ lines.drop start)
    (media : isMediaLine line = true) : ∃ index, start ≤ index ∧ MediaAt lines index := by
  obtain ⟨count, there⟩ := List.mem_iff_getElem?.1 mem
  rw [List.getElem?_drop] at there
  exact ⟨start + count, Nat.le_add_right start count, line, there, media⟩

/-- **The search past the end of the sheet, the search that meets no block, and the search that
stops in the sheet.** -/
theorem blockEnd?_outcome (lines : List String) (start : Nat) :
    (lines.length ≤ start ∧ blockEnd? lines start = none) ∨
      (start < lines.length ∧ (∀ line ∈ lines.drop start, isMediaLine line = false) ∧
        blockEnd? lines start = some .notStarted) ∨
      (start < lines.length ∧ (∃ line ∈ lines.drop start, isMediaLine line = true) ∧
        ∃ stop last, blockEnd? lines start = some stop ∧ stop.index? = some last ∧
          start ≤ last ∧ last < lines.length) := by
  classical
  by_cases past : lines.length ≤ start
  · exact .inl ⟨past, (blockEnd?_eq_none_iff lines start).2 past⟩
  have within : start < lines.length := Nat.lt_of_not_le past
  by_cases media : ∃ line ∈ lines.drop start, isMediaLine line = true
  · refine .inr (.inr ⟨within, media, ?_⟩)
    obtain ⟨line, mem, isMedia⟩ := media
    have least := Nat.isLeast_find (exists_mediaAt_of_mem_drop mem isMedia)
    generalize Nat.find (exists_mediaAt_of_mem_drop mem isMedia) = first at least
    have low := least.1.1
    have high := least.1.2.lt_length
    by_cases closes : ∃ last, ClosesAt lines first last
    · have ends := Nat.isLeast_find closes
      have later := ends.1.1
      exact ⟨_, _, blockEnd?_eq_closed least ends, rfl, by omega, ends.1.overAt.2.1⟩
    · refine ⟨_, _, blockEnd?_eq_unterminated least fun last at_last => closes ⟨last, at_last⟩, rfl,
        by omega, by omega⟩
  · have none_media : ∀ line ∈ lines.drop start, isMediaLine line = false := by
      intro line mem
      rw [← Bool.not_eq_true]
      exact fun isMedia => media ⟨line, mem, isMedia⟩
    refine .inr (.inl ⟨within, none_media, ?_⟩)
    rw [← List.findIdx?_eq_none_iff] at none_media
    rw [blockEnd?]
    cases tail : lines.drop start with
    | nil => exact absurd (List.drop_eq_nil_iff.1 tail) past
    | cons line rest => rw [blockEndFrom?, ← tail, none_media]

/-! ## How a request comes out -/

/-- The sheet has no line of this number. -/
abbrev OutOfSheet (lines : List String) (lineNumber : Nat) : Prop :=
  lineNumber = 0 ∨ lines.length < lineNumber

/-- The line of this number or a later one has `@media` in it. -/
abbrev MediaFrom (lines : List String) (lineNumber : Nat) : Prop :=
  ∃ line ∈ lines.drop (lineNumber - 1), isMediaLine line = true

/-- A located block answers the request for its line number: it starts with that line, it ends where
the search for the end of a block stops, and it says whether the line has `@media` in it. -/
structure LocatedBlock.Answers (lines : List String) (found : LocatedBlock) : Prop where
  first_eq : found.span.first = found.lineNumber - 1
  last_eq : (blockEnd? lines (found.lineNumber - 1)).bind BlockEnd.index? = some found.span.last
  ordered : found.span.first ≤ found.span.last
  within : found.span.last < lines.length
  onMediaLine_iff : found.onMediaLine = true ↔ MediaAt lines (found.lineNumber - 1)

/-- **A request comes out in exactly one way.** -/
theorem lookUp_cases (lines : List String) (lineNumber : Nat) :
    (OutOfSheet lines lineNumber ∧ lookUp lines lineNumber = .outOfRange) ∨
      (¬ OutOfSheet lines lineNumber ∧ ¬ MediaFrom lines lineNumber ∧
        lookUp lines lineNumber = .unmatched) ∨
      (¬ OutOfSheet lines lineNumber ∧ MediaFrom lines lineNumber ∧
        ∃ found : LocatedBlock, lookUp lines lineNumber = .located found ∧
          found.lineNumber = lineNumber ∧ found.Answers lines) := by
  cases lineNumber with
  | zero => exact .inl ⟨.inl rfl, rfl⟩
  | succ start =>
    rcases blockEnd?_outcome lines start with ⟨past, search⟩ | ⟨within, plain, search⟩ |
      ⟨within, media, stop, last, search, index, low, high⟩
    · exact .inl ⟨.inr (Nat.lt_succ_of_le past), by rw [lookUp_succ, search]⟩
    · refine .inr (.inl ⟨by omega, ?_, by rw [lookUp_succ, search]; rfl⟩)
      rintro ⟨line, mem, media⟩
      rw [Nat.add_sub_cancel] at mem
      rw [plain line mem] at media
      exact Bool.false_ne_true media
    · have located : lookUp lines (start + 1) = .located ⟨start + 1, Span.between start last,
          (lines[start]?.map isMediaLine).getD false⟩ := by
        rw [lookUp_succ, search]
        simp only [index]
      have ends : (Span.between start last).last = last := Span.last_between low
      refine .inr (.inr ⟨by omega, media, _, located, rfl, ?_⟩)
      refine ⟨rfl, ?_, Span.first_le_last _, ends.trans_lt high, ?_⟩
      · rw [Nat.add_sub_cancel, search, Option.bind_some, index, ends]
      · rw [Nat.add_sub_cancel, MediaAt, List.getElem?_eq_getElem within]
        simp

/-- What is located for a request answers it. -/
theorem answers_of_lookUp {lineNumber : Nat} {found : LocatedBlock}
    (answer : lookUp lines lineNumber = .located found) :
    found.lineNumber = lineNumber ∧ found.Answers lines := by
  rcases lookUp_cases lines lineNumber with ⟨_, other⟩ | ⟨_, _, other⟩ |
    ⟨_, _, block, other, number, answers⟩
  · cases other.symm.trans answer
  · cases other.symm.trans answer
  · cases other.symm.trans answer
    exact ⟨number, answers⟩

theorem lookUp_eq_outOfRange_iff {lineNumber : Nat} :
    lookUp lines lineNumber = .outOfRange ↔ OutOfSheet lines lineNumber := by
  rcases lookUp_cases lines lineNumber with ⟨out, found⟩ | ⟨inside, _, found⟩ |
    ⟨inside, _, _, found, _⟩
  · exact iff_of_true found out
  · exact iff_of_false (by simp [found]) inside
  · exact iff_of_false (by simp [found]) inside

theorem lookUp_eq_unmatched_iff {lineNumber : Nat} :
    lookUp lines lineNumber = .unmatched ↔
      ¬ OutOfSheet lines lineNumber ∧ ¬ MediaFrom lines lineNumber := by
  rcases lookUp_cases lines lineNumber with ⟨out, found⟩ | ⟨inside, plain, found⟩ |
    ⟨inside, media, _, found, _⟩
  · exact iff_of_false (by simp [found]) fun unmatched => unmatched.1 out
  · exact iff_of_true found ⟨inside, plain⟩
  · exact iff_of_false (by simp [found]) fun unmatched => unmatched.2 media

/-- The skipped numbers are told in the order of the requests. -/
theorem skipped_eq_filter (requests : List Nat) (lines : List String) :
    (stripAt requests lines).skipped = requests.filter fun n => OutOfSheet lines n := by
  rw [skipped_stripAt]
  exact List.filter_congr fun n _ => decide_eq_decide.2 lookUp_eq_outOfRange_iff

/-- The unmatched numbers are told in the order of the requests. -/
theorem unmatched_eq_filter (requests : List Nat) (lines : List String) :
    (stripAt requests lines).unmatched =
      requests.filter fun n => ¬ OutOfSheet lines n ∧ ¬ MediaFrom lines n := by
  rw [unmatched_stripAt]
  exact List.filter_congr fun n _ => decide_eq_decide.2 lookUp_eq_unmatched_iff

/-- The located blocks are told in the order of the requests that they answer. -/
theorem map_lineNumber_located (requests : List Nat) (lines : List String) :
    (stripAt requests lines).located.map (·.lineNumber) =
      requests.filter fun n => ¬ OutOfSheet lines n ∧ MediaFrom lines n := by
  rw [located_stripAt]
  induction requests with
  | nil => rfl
  | cons n rest ih =>
    rcases lookUp_cases lines n with ⟨out, found⟩ | ⟨inside, plain, found⟩ |
      ⟨inside, media, block, found, number, _⟩
    · rw [List.filterMap_cons_none (by rw [found]; rfl),
        List.filter_cons_of_neg (by simp [out]), ih]
    · rw [List.filterMap_cons_none (by rw [found]; rfl),
        List.filter_cons_of_neg (by rw [decide_eq_true_iff]; exact fun hit => plain hit.2), ih]
    · rw [List.filterMap_cons_some (by rw [found]; rfl),
        List.filter_cons_of_pos (by rw [decide_eq_true_iff]; exact ⟨inside, media⟩), List.map_cons,
        number, ih]

/-- All occurrences of a requested number are in one of the three lists, and in no other. -/
theorem count_outcomes {n : Nat} :
    ((stripAt requests lines).skipped.count n = requests.count n ∧
      n ∉ (stripAt requests lines).unmatched ∧
      n ∉ (stripAt requests lines).located.map (·.lineNumber)) ∨
    ((stripAt requests lines).unmatched.count n = requests.count n ∧
      n ∉ (stripAt requests lines).skipped ∧
      n ∉ (stripAt requests lines).located.map (·.lineNumber)) ∨
    (((stripAt requests lines).located.map (·.lineNumber)).count n = requests.count n ∧
      n ∉ (stripAt requests lines).skipped ∧ n ∉ (stripAt requests lines).unmatched) := by
  simp only [skipped_eq_filter, unmatched_eq_filter, map_lineNumber_located, List.mem_filter,
    decide_eq_true_iff]
  by_cases out : OutOfSheet lines n
  · refine .inl ⟨List.count_filter (decide_eq_true out), ?_, ?_⟩
    · exact fun unmatched => unmatched.2.1 out
    · exact fun located => located.2.1 out
  by_cases media : MediaFrom lines n
  · refine .inr (.inr ⟨List.count_filter (decide_eq_true ⟨out, media⟩), ?_, ?_⟩)
    · exact fun skipped => out skipped.2
    · exact fun unmatched => unmatched.2.2 media
  · refine .inr (.inl ⟨List.count_filter (decide_eq_true ⟨out, media⟩), ?_, ?_⟩)
    · exact fun skipped => out skipped.2
    · exact fun located => media located.2.2

theorem answers_of_mem_located {found : LocatedBlock}
    (mem : found ∈ (stripAt requests lines).located) : found.Answers lines := by
  rw [located_stripAt] at mem
  obtain ⟨n, _, block⟩ := List.mem_filterMap.1 mem
  cases outcome : lookUp lines n with
  | located answer =>
    obtain rfl : answer = found := by simpa [outcome, Request.block?] using block
    exact (answers_of_lookUp outcome).2
  | outOfRange | unmatched => simp [outcome, Request.block?] at block

/-! ## What is left, and how much -/

/-- The lines that none of some spans covers. -/
def linesOutside (spans : List Span) (lines : List String) : List String :=
  keepUnless (fun index => spans.any (·.covers index)) 0 lines

theorem kept_stripAt_eq_linesOutside (requests : List Nat) (lines : List String) :
    (stripAt requests lines).kept =
      linesOutside ((stripAt requests lines).located.map (·.span)) lines := by
  rw [kept_stripAt, linesOutside]
  simp only [List.any_map]
  rfl

theorem removedLines_stripAt (requests : List Nat) (lines : List String) :
    (stripAt requests lines).removedLines =
      (coveredLines ((stripAt requests lines).located.map (·.span))).card :=
  LineSet.size_ofSpans _

/-- **The lines taken out and the lines left make up the sheet.** -/
theorem length_kept_stripAt_add (requests : List Nat) (lines : List String) :
    (stripAt requests lines).kept.length + (stripAt requests lines).removedLines =
      lines.length := by
  refine LineSet.length_remove_add_size fun index marked => ?_
  rw [LineSet.contains_ofSpans] at marked
  obtain ⟨s, mem, covers⟩ := List.any_eq_true.1 marked
  obtain ⟨found, located, rfl⟩ := List.mem_map.1 mem
  exact (Span.covers_iff.1 covers).2.trans_lt (answers_of_mem_located located).within

/-! ## The account -/

/-- What is told about some requests for blocks of a sheet, and what is left of the sheet. -/
structure TargetedCleanup.AccountsFor (lines : List String) (requests : List Nat)
    (c : TargetedCleanup) : Prop where
  /-- Skipped are, in their order, the numbers without a line. -/
  skipped_eq : c.skipped = requests.filter fun n => OutOfSheet lines n
  /-- Unmatched are, in their order, the numbers with a line and no `@media` from it on. -/
  unmatched_eq : c.unmatched =
    requests.filter fun n => ¬ OutOfSheet lines n ∧ ¬ MediaFrom lines n
  /-- The other numbers are, in their order, answered by a block. -/
  located_eq : c.located.map (·.lineNumber) =
    requests.filter fun n => ¬ OutOfSheet lines n ∧ MediaFrom lines n
  /-- All occurrences of a number are in one list, and it is in no other. -/
  one_list : ∀ n,
    (c.skipped.count n = requests.count n ∧ n ∉ c.unmatched ∧ n ∉ c.located.map (·.lineNumber)) ∨
    (c.unmatched.count n = requests.count n ∧ n ∉ c.skipped ∧ n ∉ c.located.map (·.lineNumber)) ∨
    ((c.located.map (·.lineNumber)).count n = requests.count n ∧ n ∉ c.skipped ∧ n ∉ c.unmatched)
  /-- Every located block answers its request in the sheet as it was given. -/
  answers : ∀ found ∈ c.located, found.Answers lines
  /-- The lines left are those that no located block covers. -/
  text_eq : c.text = Text.ofLines (linesOutside (c.located.map (·.span)) lines)
  linesBefore_eq : c.linesBefore = lines.length
  linesAfter_eq : c.linesAfter = (linesOutside (c.located.map (·.span)) lines).length
  /-- The lines taken out are counted once each. -/
  removedLines_eq : c.removedLines = (coveredLines (c.located.map (·.span))).card
  /-- The lines taken out and the lines left make up the sheet. -/
  complete : c.linesAfter + c.removedLines = c.linesBefore

/-- **What is told about requested blocks is the account of them**, and the number of marked lines
is the number of lines that the sheet has lost. -/
theorem accountsFor_removeBlocksAt (text : String) (requests : List Nat) :
    (removeBlocksAt text requests).AccountsFor (Text.toLines text) requests ∧
      (stripAt requests (Text.toLines text)).removedLines =
        (removeBlocksAt text requests).removedLines := by
  have total := length_kept_stripAt_add requests (Text.toLines text)
  have lost : (removeBlocksAt text requests).removedLines =
      (stripAt requests (Text.toLines text)).removedLines := by
    show (Text.toLines text).length - (stripAt requests (Text.toLines text)).kept.length = _
    omega
  refine ⟨?_, lost.symm⟩
  exact {
    skipped_eq := skipped_eq_filter requests (Text.toLines text)
    unmatched_eq := unmatched_eq_filter requests (Text.toLines text)
    located_eq := map_lineNumber_located requests (Text.toLines text)
    one_list := fun _ => count_outcomes
    answers := fun _ => answers_of_mem_located
    text_eq := congrArg Text.ofLines (kept_stripAt_eq_linesOutside requests (Text.toLines text))
    linesBefore_eq := rfl
    linesAfter_eq :=
      congrArg List.length (kept_stripAt_eq_linesOutside requests (Text.toLines text))
    removedLines_eq := lost.trans (removedLines_stripAt requests (Text.toLines text))
    complete := by
      rw [lost]
      exact total }

end MediaSweep
