import MediaSweep.Proofs.Sheet.BlankRun
import MediaSweep.Proofs.Sheet.Contents
import MediaSweep.Proofs.Sheet.LineCount
import MediaSweep.Proofs.Sheet.Strip
import MediaSweep.Sheet.Cleanup

/-!
# The account of all blocks

Taking every media block out of a text goes in two steps, and the account counts at three times: the
lines of the text, the lines behind the first step, the lines behind the second.  The blocks stand
apart and in the sheet, so the first step takes as many lines as their spans have
(`length_kept_stripMedia_add`).  The second step takes blank lines only, but not only blank lines
that stood in a row in the sheet: the runs on the two sides of a block have become one.

`BlanketCleanup.AccountsFor` says what is told and what is left, in terms of the text as it was
given.  It holds of every text and every bound (`accountsFor_removeAllMedia`).
-/

namespace MediaSweep

set_option autoImplicit false

/-! ## The two steps -/

/-- **The lines of the blocks and the lines left by the first step make up the sheet.** -/
theorem length_kept_stripMedia_add (lines : List String) :
    (stripMedia lines).kept.length + ((stripMedia lines).removed.map (·.span.size)).sum =
      lines.length := by
  have found := blocksFrom_mediaBlocks lines
  have apart := List.pairwise_map.2 found.ordered
  have within : ∀ s ∈ (mediaBlocks lines).map MediaBlock.span, s.last < 0 + lines.length := by
    intro s mem
    obtain ⟨b, inBlocks, rfl⟩ := List.mem_map.1 mem
    rw [Nat.zero_add]
    exact (found.each b inBlocks).last_lt_length
  have total := LineSet.length_keepFrom_add apart (fun _ _ => Nat.zero_le _) within
  rw [List.map_map] at total
  rw [kept_stripMedia_eq_keepFrom]
  exact total

/-- **Both steps together take out lines of the sheet**: those of the blocks, and blank ones. -/
theorem exists_keepUnless_compactRuns (most : Nat) (lines : List String) :
    ∃ dropped, compactRuns most (stripMedia lines).kept = keepUnless dropped 0 lines ∧
      DropsBlank (fun index => (stripMedia lines).removed.any (·.span.covers index)) dropped 0
        lines := by
  rw [kept_stripMedia]
  exact exists_keepUnless_cutRuns (runBound most) 0 _ 0 lines

theorem compactRuns_stripMedia_sublist (most : Nat) (lines : List String) :
    (compactRuns most (stripMedia lines).kept).Sublist lines := by
  obtain ⟨dropped, left, _⟩ := exists_keepUnless_compactRuns most lines
  rw [left]
  exact keepUnless_sublist 0 lines

/-! ## The text that is left -/

section Left

variable (text : String) (most : Nat)

/-- The lines of the text that is left are the lines left by the two steps, or one empty line. -/
theorem toLines_removeAllMedia :
    Text.toLines (removeAllMedia text most).text =
        compactRuns most (stripMedia (Text.toLines text)).kept ∨
      Text.toLines (removeAllMedia text most).text = [""] := by
  have fewer := compactRuns_stripMedia_sublist most (Text.toLines text)
  by_cases nothing : compactRuns most (stripMedia (Text.toLines text)).kept = []
  · right
    show Text.toLines (Text.ofLines (compactRuns most (stripMedia (Text.toLines text)).kept)) = [""]
    rw [nothing, Text.ofLines_nil]
    exact Text.toLines_ofLines (List.cons_ne_nil _ _) (by simp)
  · exact .inl (Text.toLines_ofLines nothing fun line mem =>
      Text.unbroken_toLines text line (fewer.subset mem))

/-- No blank lines stand in a row beyond the bound. -/
theorem length_le_of_infix_removeAllMedia {piece : List String}
    (inside : piece <:+: Text.toLines (removeAllMedia text most).text)
    (blank : ∀ line ∈ piece, Text.isBlankLine line = true) : piece.length ≤ max most 1 := by
  rcases toLines_removeAllMedia text most with left | left
  · rw [left] at inside
    exact length_le_of_infix_compactRuns inside blank
  · rw [left] at inside
    exact inside.length_le.trans (Nat.le_max_right most 1)

/-- A block is removed exactly when the text has the word `@media` in it. -/
theorem removed_removeAllMedia_eq_nil_iff :
    (removeAllMedia text most).removed = [] ↔ ¬ mediaWord <:+: text.toList := by
  rw [mediaWord_infix_iff]
  exact removed_stripMedia_eq_nil_iff (Text.toLines text)

/-- The word `@media` is not in what is left. -/
theorem not_mediaWord_infix_removeAllMedia :
    ¬ mediaWord <:+: (removeAllMedia text most).text.toList := by
  intro inside
  obtain ⟨line, mem, media⟩ := (mediaWord_infix_ofLines_iff _).1 inside
  rw [plain_of_mem_kept_stripMedia ((compactRuns_sublist most _).subset mem)] at media
  exact Bool.false_ne_true media

theorem toList_removeAllMedia_sublist :
    (removeAllMedia text most).text.toList.Sublist text.toList := by
  have fewer := toList_ofLines_sublist (compactRuns_stripMedia_sublist most (Text.toLines text))
  rwa [Text.ofLines_toLines] at fewer

/-- What is left when a block was removed is another text: the word `@media` is gone. -/
theorem removeAllMedia_text_ne (found : (removeAllMedia text most).removed ≠ []) :
    (removeAllMedia text most).text ≠ text := by
  intro same
  refine found ((removed_removeAllMedia_eq_nil_iff text most).2 ?_)
  have gone := not_mediaWord_infix_removeAllMedia text most
  rwa [same] at gone

end Left

/-! ## The account -/

/-- What is told about the removal of every media block of a text, and what is left of the text. -/
structure BlanketCleanup.AccountsFor (text : String) (most : Nat) (c : BlanketCleanup) :
    Prop where
  linesBefore_eq : c.linesBefore = (Text.toLines text).length
  /-- The lines taken out and the lines left make up the text. -/
  complete : c.linesAfter + c.removedLines = c.linesBefore
  /-- The lines taken out are the lines of the blocks and the blank lines cut. -/
  removedLines_eq :
    c.removedLines = (c.removed.map (·.span.size)).sum + c.collapsedBlankLines
  /-- What is left are lines of the text in their order, without those of the blocks and without
  some blank ones. -/
  left : ∃ dropped : Nat → Bool,
    c.text = Text.ofLines (keepUnless dropped 0 (Text.toLines text)) ∧
      c.linesAfter = (keepUnless dropped 0 (Text.toLines text)).length ∧
      DropsBlank (fun index => c.removed.any (·.span.covers index)) dropped 0 (Text.toLines text)
  removed_eq_nil_iff : c.removed = [] ↔ ¬ mediaWord <:+: text.toList
  no_media : ¬ mediaWord <:+: c.text.toList
  /-- No blank lines stand in a row beyond the bound. -/
  short_runs : ∀ piece, piece <:+: Text.toLines c.text →
    (∀ line ∈ piece, Text.isBlankLine line = true) → piece.length ≤ max most 1
  byteSize_le : c.text.utf8ByteSize ≤ text.utf8ByteSize
  byteSize_lt : c.removed ≠ [] → c.text.utf8ByteSize < text.utf8ByteSize

/-- **What is told about the removal of all media blocks is the account of it.** -/
theorem accountsFor_removeAllMedia (text : String) (most : Nat) :
    (removeAllMedia text most).AccountsFor text most := by
  have blocks := length_kept_stripMedia_add (Text.toLines text)
  have cut := (compactRuns_sublist most (stripMedia (Text.toLines text)).kept).length_le
  have fewer := toList_removeAllMedia_sublist text most
  obtain ⟨dropped, left, blank⟩ := exists_keepUnless_compactRuns most (Text.toLines text)
  -- the three counts, with what each step takes between them
  have after : (removeAllMedia text most).linesAfter =
      (compactRuns most (stripMedia (Text.toLines text)).kept).length := rfl
  have collapsed : (removeAllMedia text most).collapsedBlankLines =
      (stripMedia (Text.toLines text)).kept.length -
        (compactRuns most (stripMedia (Text.toLines text)).kept).length := rfl
  have lost : (removeAllMedia text most).removedLines =
      (Text.toLines text).length -
        (compactRuns most (stripMedia (Text.toLines text)).kept).length := rfl
  exact {
    linesBefore_eq := rfl
    complete := by
      show _ = (Text.toLines text).length
      omega
    removedLines_eq := by
      show _ = ((stripMedia (Text.toLines text)).removed.map (·.span.size)).sum + _
      omega
    left := ⟨dropped, congrArg Text.ofLines left, congrArg List.length left, blank⟩
    removed_eq_nil_iff := removed_removeAllMedia_eq_nil_iff text most
    no_media := not_mediaWord_infix_removeAllMedia text most
    short_runs := fun _ => length_le_of_infix_removeAllMedia text most
    byteSize_le := utf8ByteSize_le_of_sublist fewer
    byteSize_lt := fun found =>
      utf8ByteSize_lt_of_sublist fewer (removeAllMedia_text_ne text most found) }

end MediaSweep
