import Mathlib.Data.List.SplitBy
import MediaSweep.Proofs.Sheet.SecondPass
import MediaSweep.Sheet.Edit

/-!
# Cutting blank runs, run by run

The pass that cuts blank runs counts the blank lines directly before the next one.  What it comes to
can be said without the count.  A sheet falls into stretches (`stretches`): the longest pieces in
which all lines are blank or none is.  A stretch of blank lines is cut down to its first few lines,
and every other one stays as it is (`compactRuns_eq_flatMap`).  Two stretches of blank lines never
meet, so each of them is counted from zero.

`compaction_exact` collects what follows for the edit and its report, and for texts: how many lines
are gone, when nothing changes, and what two cuts in a row come to.
-/

namespace MediaSweep

set_option autoImplicit false

variable {bound run : Nat} {lines stretch rest : List String} {pieces : List (List String)}

/-! ## Stretches -/

/-- Whether two lines are both blank or both not. -/
def sameKind (line next : String) : Bool :=
  Text.isBlankLine line == Text.isBlankLine next

/-- The longest pieces of a sheet in which all lines are blank or none is, from top to bottom. -/
def stretches (lines : List String) : List (List String) :=
  lines.splitBy sameKind

/-- The stretches of blank lines. -/
def blankRuns (lines : List String) : List (List String) :=
  (stretches lines).filter (·.all Text.isBlankLine)

/-- A stretch with only the first few lines left of it if it is blank. -/
def cutStretch (bound : Nat) (stretch : List String) : List String :=
  if stretch.all Text.isBlankLine then stretch.take bound else stretch

/-- Pieces that can be the stretches of a sheet: each has lines of one kind, and the next one has
lines of the other kind. -/
structure Alternate (pieces : List (List String)) : Prop where
  nonempty : [] ∉ pieces
  uniform : ∀ piece ∈ pieces, piece.IsChain fun line next => sameKind line next = true
  meet : pieces.IsChain fun piece next =>
    ∃ some_line some_next, sameKind (piece.getLast some_line) (next.head some_next) = false

/-- **A sheet falls into its stretches in one way only.** -/
theorem stretches_eq_iff :
    stretches lines = pieces ↔ pieces.flatten = lines ∧ Alternate pieces := by
  rw [stretches, List.splitBy_eq_iff]
  constructor
  · rintro ⟨whole, nonempty, uniform, meet⟩
    exact ⟨whole.symm, nonempty, uniform, meet⟩
  · rintro ⟨whole, nonempty, uniform, meet⟩
    exact ⟨whole.symm, nonempty, uniform, meet⟩

example : stretches ["", "\t", "a", "b", " "] = [["", "\t"], ["a", "b"], [" "]] := by decide

theorem flatten_stretches (lines : List String) : (stretches lines).flatten = lines :=
  (stretches_eq_iff.1 rfl).1

theorem alternate_stretches (lines : List String) : Alternate (stretches lines) :=
  (stretches_eq_iff.1 rfl).2

/-- All lines of a stretch are blank, or none is. -/
theorem blank_or_text_of_isChain
    (chain : stretch.IsChain fun line next => sameKind line next = true) :
    (∀ line ∈ stretch, Text.isBlankLine line = true) ∨
      ∀ line ∈ stretch, Text.isBlankLine line = false := by
  induction stretch with
  | nil => exact .inl (by simp)
  | cons line rest ih =>
    obtain ⟨first, later⟩ := List.isChain_cons.1 chain
    cases rest with
    | nil =>
      cases isBlank : Text.isBlankLine line with
      | true => exact .inl (by simpa using isBlank)
      | false => exact .inr (by simpa using isBlank)
    | cons next rest =>
      have same : Text.isBlankLine line = Text.isBlankLine next := beq_iff_eq.1 (first next rfl)
      rcases ih later with blank | text
      · exact .inl (List.forall_mem_cons.2 ⟨same.trans (blank next List.mem_cons_self), blank⟩)
      · exact .inr (List.forall_mem_cons.2 ⟨same.trans (text next List.mem_cons_self), text⟩)

/-- Behind a stretch of blank lines the sheet ends, or a line follows that is not blank. -/
theorem Alternate.text_behind (alternate : Alternate (stretch :: pieces))
    (blank : ∀ line ∈ stretch, Text.isBlankLine line = true) :
    ∀ line ∈ pieces.flatten.head?, Text.isBlankLine line = false := by
  cases pieces with
  | nil => simp
  | cons next later =>
    obtain ⟨some_line, some_next, other⟩ := (List.isChain_cons.1 alternate.meet).1 next rfl
    obtain ⟨line, rest, rfl⟩ := List.exists_cons_of_ne_nil some_next
    rw [sameKind, blank _ (List.getLast_mem some_line)] at other
    simpa using other

theorem Alternate.tail (alternate : Alternate (stretch :: pieces)) : Alternate pieces where
  nonempty := fun mem => alternate.nonempty (List.mem_cons_of_mem stretch mem)
  uniform piece mem := alternate.uniform piece (List.mem_cons_of_mem stretch mem)
  meet := alternate.meet.tail

/-! ## One stretch after the other -/

theorem cutRuns_blank_append (blank : ∀ line ∈ stretch, Text.isBlankLine line = true) :
    cutRuns bound run (stretch ++ rest) =
      stretch.take (bound - run) ++ cutRuns bound (run + stretch.length) rest := by
  induction stretch generalizing run with
  | nil => simp
  | cons line later ih =>
    obtain ⟨isBlank, blank⟩ := List.forall_mem_cons.1 blank
    have count : run + 1 + later.length = run + (line :: later).length := by
      rw [List.length_cons]
      omega
    rw [List.cons_append, cutRuns_of_blank isBlank, ih blank, count]
    split
    · have room : bound - run = bound - (run + 1) + 1 := by omega
      rw [room, List.take_succ_cons, List.cons_append]
    · have full : bound - run = 0 ∧ bound - (run + 1) = 0 := by omega
      rw [full.1, full.2, List.take_zero, List.take_zero]

theorem cutRuns_text_append (some_line : stretch ≠ [])
    (text : ∀ line ∈ stretch, Text.isBlankLine line = false) :
    cutRuns bound run (stretch ++ rest) = stretch ++ cutRuns bound 0 rest := by
  induction stretch generalizing run with
  | nil => exact absurd rfl some_line
  | cons line later ih =>
    obtain ⟨isText, text⟩ := List.forall_mem_cons.1 text
    rw [List.cons_append, cutRuns_of_text isText]
    cases later with
    | nil => rfl
    | cons next later =>
      rw [ih (List.cons_ne_nil next later) text]
      rfl

/-- Before a line that is not blank it does not matter how many blank lines there were. -/
theorem cutRuns_of_head_text (text : ∀ line ∈ lines.head?, Text.isBlankLine line = false) :
    cutRuns bound run lines = cutRuns bound 0 lines := by
  cases lines with
  | nil => rfl
  | cons line rest =>
    have isText := text line rfl
    rw [cutRuns_of_text isText, cutRuns_of_text isText]

/-- **Stretches are cut one by one.** -/
theorem Alternate.cutRuns_flatten (alternate : Alternate pieces) :
    cutRuns bound 0 pieces.flatten = pieces.flatMap (cutStretch bound) := by
  induction pieces with
  | nil => rfl
  | cons stretch later ih =>
    have some_line : stretch ≠ [] := by
      rintro rfl
      exact alternate.nonempty List.mem_cons_self
    rw [List.flatten_cons, List.flatMap_cons, ← ih alternate.tail, cutStretch]
    rcases blank_or_text_of_isChain (alternate.uniform stretch List.mem_cons_self) with
      blank | text
    · -- the next stretch is not blank, so it is the same with the count at zero
      rw [if_pos (List.all_eq_true.2 blank), cutRuns_blank_append blank, Nat.sub_zero,
        cutRuns_of_head_text (alternate.text_behind blank)]
    · have visible : ¬ stretch.all Text.isBlankLine = true := by
        obtain ⟨line, rest, rfl⟩ := List.exists_cons_of_ne_nil some_line
        simp [text line List.mem_cons_self]
      rw [if_neg visible, cutRuns_text_append some_line text]

/-- **Cutting the blank runs of a sheet cuts each of its stretches of blank lines.** -/
theorem compactRuns_eq_flatMap (most : Nat) (lines : List String) :
    compactRuns most lines = (stretches lines).flatMap (cutStretch (max most 1)) := by
  rw [← (alternate_stretches lines).cutRuns_flatten, flatten_stretches]
  rfl

/-! ## What is gone -/

/-- Other lines than blank ones stay, in their order. -/
theorem filter_text_cutRuns (bound run : Nat) (lines : List String) :
    (cutRuns bound run lines).filter (fun line => !Text.isBlankLine line) =
      lines.filter fun line => !Text.isBlankLine line := by
  induction lines generalizing run with
  | nil => rfl
  | cons line rest ih =>
    cases isBlank : Text.isBlankLine line with
    | false =>
      rw [cutRuns_of_text isBlank, List.filter_cons_of_pos (by simp [isBlank]),
        List.filter_cons_of_pos (by simp [isBlank]), ih]
    | true =>
      rw [cutRuns_of_blank isBlank, List.filter_cons_of_neg (by simp [isBlank])]
      split
      · rw [List.filter_cons_of_neg (by simp [isBlank]), ih]
      · exact ih (run + 1)

/-- What is left of some pieces and what goes of the blank ones make up the whole. -/
theorem length_flatMap_cutStretch_add (bound : Nat) (pieces : List (List String)) :
    (pieces.flatMap (cutStretch bound)).length +
        ((pieces.filter (·.all Text.isBlankLine)).map fun run => run.length - bound).sum =
      pieces.flatten.length := by
  induction pieces with
  | nil => rfl
  | cons piece later ih =>
    rw [List.flatMap_cons, List.flatten_cons, List.length_append, List.length_append, cutStretch,
      List.filter_cons]
    cases piece.all Text.isBlankLine with
    | true =>
      rw [if_pos rfl, if_pos rfl, List.map_cons, List.sum_cons, List.length_take]
      omega
    | false =>
      rw [if_neg Bool.false_ne_true, if_neg Bool.false_ne_true]
      omega

/-- What a cut of the blank runs of a sheet leaves, and how many lines it tells to be gone. -/
structure CutsRuns (bound : Nat) (lines kept : List String) (collapsed : Nat) : Prop where
  /-- Of each stretch of blank lines the first lines stay, up to the bound. -/
  kept_eq : kept = (stretches lines).flatMap (cutStretch bound)
  /-- Every other line stays, in its order. -/
  text_eq : kept.filter (fun line => !Text.isBlankLine line) =
    lines.filter fun line => !Text.isBlankLine line
  /-- Gone is what each stretch of blank lines has beyond the bound. -/
  collapsed_eq : collapsed = ((blankRuns lines).map fun run => run.length - bound).sum
  /-- The lines that are gone and the lines that stay make up the sheet. -/
  complete : kept.length + collapsed = lines.length
  /-- No line is gone exactly when the sheet has not changed. -/
  unchanged_iff : collapsed = 0 ↔ kept = lines

theorem cutsRuns_compactRuns (most : Nat) (lines : List String) :
    CutsRuns (max most 1) lines (compactRuns most lines)
      (lines.length - (compactRuns most lines).length) := by
  have whole := length_flatMap_cutStretch_add (max most 1) (stretches lines)
  rw [← compactRuns_eq_flatMap, flatten_stretches] at whole
  have fewer := compactRuns_sublist most lines
  exact {
    kept_eq := compactRuns_eq_flatMap most lines
    text_eq := filter_text_cutRuns _ 0 lines
    collapsed_eq := by
      rw [blankRuns]
      omega
    complete := Nat.add_sub_of_le fewer.length_le
    unchanged_iff := by
      rw [Nat.sub_eq_zero_iff_le]
      refine ⟨fewer.eq_of_length_le, fun same => ?_⟩
      rw [same] }

theorem compactBlankLines_compactBlankLines (text : String) (most again : Nat) :
    compactBlankLines (compactBlankLines text most) again =
      compactBlankLines text (min (max most 1) (max again 1)) := by
  show compactBlankLines (Text.ofLines (compactRuns most (Text.toLines text))) again =
    Text.ofLines (compactRuns _ (Text.toLines text))
  rw [compactBlankLines_ofLines again (unbroken_compactRuns most text), compactRuns_compactRuns]

/-- **Cutting blank runs is cutting each of them.**  A sheet falls into its stretches in one way.
The edit keeps the first lines of every stretch of blank lines and tells the number of those that
are gone, and a text changes exactly when that number is not zero.  Two cuts of a text come to the
one with the smaller bound, so a second one with the same bound changes nothing and two cuts can be
exchanged. -/
theorem compaction_exact :
    (∀ lines pieces, stretches lines = pieces ↔ pieces.flatten = lines ∧ Alternate pieces) ∧
    (∀ (most : Nat) (lines : List String), ∃ kept collapsed,
      (Edit.compact most).apply lines = (kept, .compacted collapsed) ∧
        CutsRuns (max most 1) lines kept collapsed) ∧
    (∀ (most : Nat) (text : String), ∃ kept collapsed,
      CutsRuns (max most 1) (Text.toLines text) kept collapsed ∧
        compactBlankLines text most = Text.ofLines kept ∧
        (collapsed = 0 ↔ compactBlankLines text most = text)) ∧
    ∀ (text : String) (most again : Nat),
      compactBlankLines (compactBlankLines text most) again =
        compactBlankLines text (min (max most 1) (max again 1)) ∧
      compactBlankLines (compactBlankLines text most) most = compactBlankLines text most ∧
      compactBlankLines (compactBlankLines text most) again =
        compactBlankLines (compactBlankLines text again) most := by
  refine ⟨fun _ _ => stretches_eq_iff, fun most lines => ?_, fun most text => ?_,
    fun text most again => ?_⟩
  · exact ⟨_, _, rfl, cutsRuns_compactRuns most lines⟩
  · have cut := cutsRuns_compactRuns most (Text.toLines text)
    refine ⟨_, _, cut, rfl, ?_⟩
    rw [cut.unchanged_iff, compactRuns_eq_self_iff, compactBlankLines_eq_self_iff]
  · have both := compactBlankLines_compactBlankLines text
    have bound : runBound (max most 1) = runBound most := by
      simp only [runBound]
      omega
    refine ⟨both most again, ?_, ?_⟩
    · rw [both, Nat.min_self, compactBlankLines, compactRuns, bound]
      rfl
    · rw [both, both, Nat.min_comm]

end MediaSweep
