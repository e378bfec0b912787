import MediaSweep.Proofs.Sheet.Blanket
import MediaSweep.Proofs.Sheet.EditRow
import MediaSweep.Proofs.Sheet.Outcomes

/-!
# Sheets without media blocks, and second passes

A sheet without the word `@media` has nothing to take out.  Requests for blocks leave it as it is.
The removal of all blocks still compacts it: what comes back is the sheet with its blank runs cut
(`text_of_no_media`), and that is the sheet itself exactly when no run is longer than the bound.

What the removal of all blocks leaves is such a sheet, so a second pass only compacts once more, and
two bounds in a row act as the smaller one (`compactRuns_compactRuns`).  Between the passes the
lines are joined and split again.  That adds an empty line to a sheet that has lost all its lines,
and the second pass keeps it (`compactBlankLines_ofLines`).
-/

namespace MediaSweep

set_option autoImplicit false

variable {bound run : Nat} {lines : List String} {text : String}

/-! ## Two bounds -/

/-- A run that was cut once is cut again where the smaller bound cuts it.  Before the second cut
only the lines that the first one left count as run. -/
theorem cutRuns_cutRuns (first second run : Nat) (lines : List String) :
    cutRuns second (min run first) (cutRuns first run lines) =
      cutRuns (min first second) run lines := by
  induction lines generalizing run with
  | nil => rfl
  | cons line rest ih =>
    cases isBlank : Text.isBlankLine line with
    | false =>
      have fresh : cutRuns second 0 (cutRuns first 0 rest) = cutRuns (min first second) 0 rest := by
        simpa using ih 0
      rw [cutRuns_of_text isBlank, cutRuns_of_text isBlank, cutRuns_of_text isBlank, fresh]
    | true =>
      have onward := ih (run + 1)
      rw [cutRuns_of_blank isBlank, cutRuns_of_blank isBlank]
      by_cases room : run < first
      · rw [if_pos room, cutRuns_of_blank isBlank, Nat.min_eq_left room.le]
        rw [Nat.min_eq_left (Nat.succ_le_of_lt room)] at onward
        rw [onward]
        simp only [Nat.lt_min, room, true_and]
      · have full : first ≤ run := Nat.le_of_not_lt room
        rw [if_neg room, if_neg fun both => room (Nat.lt_min.1 both).1, Nat.min_eq_right full]
        rwa [Nat.min_eq_right (full.trans (Nat.le_succ run))] at onward

/-- **Two compactions act as the one with the smaller bound.** -/
theorem compactRuns_compactRuns (most again : Nat) (lines : List String) :
    compactRuns again (compactRuns most lines) =
      compactRuns (min (max most 1) (max again 1)) lines := by
  have both : runBound (min (max most 1) (max again 1)) = min (max most 1) (max again 1) := by
    simp only [runBound]
    omega
  have cut := cutRuns_cutRuns (max most 1) (max again 1) 0 lines
  rw [Nat.zero_min] at cut
  rw [compactRuns, compactRuns, compactRuns, both]
  exact cut

/-! ## Short runs stay -/

/-- Runs within the bound stay, the one that goes on from before the lines included. -/
theorem cutRuns_eq_self
    (goesOn : ∀ piece, piece <+: lines → (∀ line ∈ piece, Text.isBlankLine line = true) →
      run + piece.length ≤ bound)
    (short : ∀ piece, piece <:+: lines → (∀ line ∈ piece, Text.isBlankLine line = true) →
      piece.length ≤ bound) :
    cutRuns bound run lines = lines := by
  induction lines generalizing run with
  | nil => rfl
  | cons line rest ih =>
    have later : ∀ piece, piece <:+: rest → (∀ line ∈ piece, Text.isBlankLine line = true) →
        piece.length ≤ bound :=
      fun piece inside => short piece (inside.trans (List.suffix_cons line rest).isInfix)
    cases isBlank : Text.isBlankLine line with
    | false =>
      rw [cutRuns_of_text isBlank]
      congr 1
      refine ih (fun piece starts blank => ?_) later
      rw [Nat.zero_add]
      exact later piece starts.isInfix blank
    | true =>
      have behind : ∀ piece, piece <+: rest → (∀ line ∈ piece, Text.isBlankLine line = true) →
          run + 1 + piece.length ≤ bound := by
        intro piece starts blank
        have longer := goesOn (line :: piece) (List.cons_prefix_cons.2 ⟨rfl, starts⟩)
          (List.forall_mem_cons.2 ⟨isBlank, blank⟩)
        rw [List.length_cons] at longer
        omega
      have room : run < bound := by
        have := behind [] List.nil_prefix (by simp)
        rw [List.length_nil] at this
        omega
      rw [cutRuns_of_blank isBlank, if_pos room, ih behind later]

/-- **Compaction changes nothing exactly when no run is longer than the bound.** -/
theorem compactRuns_eq_self_iff (most : Nat) (lines : List String) :
    compactRuns most lines = lines ↔
      ∀ piece, piece <:+: lines → (∀ line ∈ piece, Text.isBlankLine line = true) →
        piece.length ≤ max most 1 := by
  constructor
  · intro same piece inside blank
    rw [← same] at inside
    exact length_le_of_infix_compactRuns inside blank
  · intro short
    refine cutRuns_eq_self (fun piece starts blank => ?_) short
    rw [Nat.zero_add]
    exact short piece starts.isInfix blank

/-- Joined lines are compacted as they are, also when there are none. -/
theorem compactBlankLines_ofLines (most : Nat) (unbroken : ∀ line ∈ lines, '\n' ∉ line.toList) :
    compactBlankLines (Text.ofLines lines) most = Text.ofLines (compactRuns most lines) :=
  Edit.onText_ofLines (.compact most) unbroken

/-! ## Sheets without media blocks -/

/-- Lines without `@media` are not taken out. -/
theorem stripMedia_of_plain (plain : ¬ ∃ line ∈ lines, isMediaLine line = true) :
    stripMedia lines = ⟨lines, []⟩ := by
  have nothing : mediaBlocks lines = [] := (removed_stripMedia_eq_nil_iff lines).2 plain
  rw [stripMedia, nothing]
  rfl

/-- The removal of all blocks compacts a sheet without blocks, and does nothing else to it. -/
theorem removeAllMedia_of_no_media (absent : ¬ mediaWord <:+: text.toList) (most : Nat) :
    removeAllMedia text most =
      { text := compactBlankLines text most
        removed := []
        collapsedBlankLines :=
          (Text.toLines text).length - (compactRuns most (Text.toLines text)).length
        linesBefore := (Text.toLines text).length
        linesAfter := (compactRuns most (Text.toLines text)).length } := by
  rw [mediaWord_infix_iff] at absent
  rw [removeAllMedia, stripMedia_of_plain absent, compactBlankLines]

/-- No block is located in a sheet without blocks. -/
theorem located_of_plain (plain : ¬ ∃ line ∈ lines, isMediaLine line = true)
    (requests : List Nat) : (stripAt requests lines).located = [] := by
  refine List.map_eq_nil_iff.1 ((map_lineNumber_located requests lines).trans ?_)
  refine List.filter_eq_nil_iff.2 fun n _ => ?_
  rw [decide_eq_true_iff]
  rintro ⟨_, line, mem, media⟩
  exact plain ⟨line, List.mem_of_mem_drop mem, media⟩

theorem removeBlocksAt_of_no_media (absent : ¬ mediaWord <:+: text.toList)
    (requests : List Nat) : (removeBlocksAt text requests).text = text := by
  rw [mediaWord_infix_iff] at absent
  have kept : (stripAt requests (Text.toLines text)).kept = Text.toLines text := by
    rw [kept_stripAt, located_of_plain absent]
    exact keepUnless_eq_self fun _ _ _ => rfl
  show Text.ofLines (stripAt requests (Text.toLines text)).kept = text
  rw [kept, Text.ofLines_toLines]

theorem compactBlankLines_eq_self_iff (text : String) (most : Nat) :
    compactBlankLines text most = text ↔
      ∀ piece, piece <:+: Text.toLines text → (∀ line ∈ piece, Text.isBlankLine line = true) →
        piece.length ≤ max most 1 := by
  rw [← compactRuns_eq_self_iff]
  constructor
  · intro same
    have joined : Text.ofLines (compactRuns most (Text.toLines text)) =
        Text.ofLines (Text.toLines text) := by
      rw [Text.ofLines_toLines]
      exact same
    rcases Text.eq_of_ofLines_eq (unbroken_compactRuns most text) (Text.unbroken_toLines text)
        joined with
      same | ⟨none_left, single⟩ | ⟨_, none_before⟩
    · exact same
    · rw [single] at none_left ⊢
      exact (compactRuns_eq_self_iff most [""]).2 fun piece inside _ =>
        inside.length_le.trans (Nat.le_max_right most 1)
    · exact absurd none_before (Text.toLines_ne_nil text)
  · intro same
    rw [compactBlankLines, same, Text.ofLines_toLines]

/-- **A sheet without the word `@media`** comes back unchanged from requests for blocks, and with
its blank runs cut from the removal of all blocks.  The second is no change exactly when no run is
longer than the bound. -/
theorem text_of_no_media (text : String) (requests : List Nat) (most : Nat)
    (absent : ¬ mediaWord <:+: text.toList) :
    (removeBlocksAt text requests).text = text ∧
      (stripMedia (Text.toLines text)).kept = Text.toLines text ∧
      (removeAllMedia text most).removed = [] ∧
      (removeAllMedia text most).text = compactBlankLines text most ∧
      ((removeAllMedia text most).text = text ↔
        ∀ piece, piece <:+: Text.toLines text →
          (∀ line ∈ piece, Text.isBlankLine line = true) → piece.length ≤ max most 1) := by
  have plain : ¬ ∃ line ∈ Text.toLines text, isMediaLine line = true :=
    fun media => absent ((mediaWord_infix_iff text).2 media)
  rw [removeAllMedia_of_no_media absent, stripMedia_of_plain plain]
  exact ⟨removeBlocksAt_of_no_media absent requests, rfl, rfl, rfl,
    compactBlankLines_eq_self_iff text most⟩

/-- Two rules with three empty lines between them. -/
def spacedText : String := ".a {}\n\n\n\n.b {}"

theorem text_of_no_media_spacedText :
    ¬ mediaWord <:+: spacedText.toList ∧
      (removeBlocksAt spacedText [1, 0, 9]).text = spacedText ∧
      (removeAllMedia spacedText 2).removed = [] ∧
      (removeAllMedia spacedText 2).text = compactBlankLines spacedText 2 :=
  have absent : ¬ mediaWord <:+: spacedText.toList := by decide
  have ⟨asked, _, removed, left, _⟩ := text_of_no_media spacedText [1, 0, 9] 2 absent
  ⟨absent, asked, removed, left⟩

/-- Three empty lines in a row do not come back, though no block is in the sheet. -/
theorem removeAllMedia_spacedText_ne :
    ¬ mediaWord <:+: spacedText.toList ∧
      (removeAllMedia spacedText 2).text = ".a {}\n\n\n.b {}" ∧
      (removeAllMedia spacedText 2).text ≠ spacedText := by
  decide

/-! ## The second pass -/

/-- **The second pass** removes no block and leaves what one pass with the smaller bound leaves.
When its bound is not the smaller one, it changes nothing. -/
theorem removeAllMedia_removeAllMedia (text : String) (most again : Nat) :
    (removeAllMedia (removeAllMedia text most).text again).removed = [] ∧
      (removeAllMedia (removeAllMedia text most).text again).text =
        (removeAllMedia text (min (max most 1) (max again 1))).text ∧
      (max most 1 ≤ max again 1 →
        (removeAllMedia (removeAllMedia text most).text again).text =
            (removeAllMedia text most).text ∧
          (removeAllMedia (removeAllMedia text most).text again).collapsedBlankLines = 0 ∧
          (removeAllMedia (removeAllMedia text most).text again).linesAfter =
            (removeAllMedia (removeAllMedia text most).text again).linesBefore) := by
  have unbroken : ∀ line ∈ compactRuns most (stripMedia (Text.toLines text)).kept,
      '\n' ∉ line.toList := fun line mem =>
    Text.unbroken_toLines text line ((compactRuns_stripMedia_sublist most _).subset mem)
  rw [removeAllMedia_of_no_media (not_mediaWord_infix_removeAllMedia text most)]
  refine ⟨rfl, ?_, fun larger => ?_⟩
  · show compactBlankLines (Text.ofLines (compactRuns most _)) again =
      Text.ofLines (compactRuns _ _)
    rw [compactBlankLines_ofLines again unbroken, compactRuns_compactRuns]
  · have settled : compactRuns again (Text.toLines (removeAllMedia text most).text) =
        Text.toLines (removeAllMedia text most).text :=
      (compactRuns_eq_self_iff again _).2 fun piece inside blank =>
        (length_le_of_infix_removeAllMedia text most inside blank).trans larger
    rw [compactBlankLines, settled, Text.ofLines_toLines]
    exact ⟨rfl, Nat.sub_self _, rfl⟩

/-- A sheet that the first pass takes away as a whole. -/
def blockText : String := "@media print \x7b\n\x7d"

theorem removeAllMedia_removeAllMedia_blockText :
    max 0 1 ≤ max 3 1 ∧ (removeAllMedia blockText 0).linesAfter = 0 ∧
      (removeAllMedia (removeAllMedia blockText 0).text 3).text =
        (removeAllMedia blockText 0).text ∧
      (removeAllMedia (removeAllMedia blockText 0).text 3).collapsedBlankLines = 0 :=
  have larger : max 0 1 ≤ max 3 1 := by decide
  have ⟨same, collapsed, _⟩ := (removeAllMedia_removeAllMedia blockText 0 3).2.2 larger
  ⟨larger, by decide, same, collapsed⟩

end MediaSweep
