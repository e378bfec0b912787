import Mathlib.Data.List.Forall2
import MediaSweep.Proofs.Sheet.BlankRun
import MediaSweep.Proofs.Sheet.Pass
import MediaSweep.Sheet.Cleanup

/-!
# Blank lines and blocks

A blank line holds no brace and no `@media`, and a block that is not over before it is not over
after it.  So the pass knows after a blank line what it knew before, but for the index of the next
line (`BlockScan.Running.feed_of_blank`).  The index shows in the spans of the blocks only: two
passes that know the same but for their indices (`BlockScan.Alike`) tell the same blocks but for
their spans and leave the same lines, also when one of them does not see all blank lines.

Cutting the blank runs of a sheet before its blocks are taken out is therefore absorbed by the cut
that follows, unless the first bound is the smaller one (`removeAllMedia_compactBlankLines`).
Taking out a block joins the runs on its two sides; of such a run the second cut keeps the first
lines, and the first cut has kept at least as many of each part.
-/

namespace MediaSweep

set_option autoImplicit false

variable {line : String}

/-! ## What a blank line holds -/

theorem not_mem_of_blank {c : Char} (blank : Text.isBlankLine line = true)
    (visible : Text.isBlank c = false) : c ∉ line.toList := by
  intro mem
  rw [List.all_eq_true.1 blank c mem] at visible
  cases visible

theorem isMediaLine_of_blank (blank : Text.isBlankLine line = true) : isMediaLine line = false := by
  rw [← Bool.not_eq_true, isMediaLine, Text.holds_iff_infix]
  intro inside
  exact not_mem_of_blank blank (c := '@') (by decide) (inside.subset (by decide))

theorem hasOpen_of_blank (blank : Text.isBlankLine line = true) :
    (BraceTally.ofLine line).hasOpen = false := by
  rw [← Bool.not_eq_true, BraceTally.hasOpen_ofLine]
  exact not_mem_of_blank blank (by decide)

theorem lineDelta_of_blank (blank : Text.isBlankLine line = true) : lineDelta line = 0 :=
  Int.le_antisymm (lineDelta_nonpos (not_mem_of_blank blank (by decide)))
    (lineDelta_nonneg (not_mem_of_blank blank (by decide)))

/-! ## Alike but for the place -/

/-- Blocks that differ in their spans only. -/
structure MediaBlock.Alike (b b' : MediaBlock) : Prop where
  query_eq : b.query = b'.query
  depth_eq : b.depth = b'.depth
  closed_eq : b.closed = b'.closed

/-- Open blocks that differ in their first lines only. -/
structure OpenBlock.Alike (b b' : OpenBlock) : Prop where
  baseline_eq : b.baseline = b'.baseline
  opened_eq : b.opened = b'.opened
  query_eq : b.query = b'.query

namespace OpenBlock.Alike

variable {b b' : OpenBlock}

theorem after (alike : b.Alike b') (line : String) : (b.after line).Alike (b'.after line) :=
  ⟨alike.baseline_eq, congrArg (· || _) alike.opened_eq, alike.query_eq⟩

theorem isOver_eq (alike : b.Alike b') (depth : Int) : b.isOver depth = b'.isOver depth := by
  simp only [isOver, alike.baseline_eq, alike.opened_eq]

theorem endAt (alike : b.Alike b') (last last' : Nat) (closed : Bool) :
    (b.endAt last closed).Alike (b'.endAt last' closed) :=
  ⟨alike.query_eq, alike.baseline_eq, rfl⟩

end OpenBlock.Alike

namespace BlockScan

variable {s s' : BlockScan}

/-- What is known is the same but for the places of lines. -/
structure Alike (s s' : BlockScan) : Prop where
  depth_eq : s.depth = s'.depth
  current : Option.Rel OpenBlock.Alike s.current s'.current

namespace Alike

theorem refl (s : BlockScan) : s.Alike s := by
  refine ⟨rfl, ?_⟩
  cases s.current with
  | none => exact .none
  | some block => exact .some ⟨rfl, rfl, rfl⟩

theorem blockFor (alike : s.Alike s') (line : String) :
    Option.Rel OpenBlock.Alike (s.blockFor line) (s'.blockFor line) := by
  obtain ⟨index, depth, current⟩ := s
  obtain ⟨index', depth', current'⟩ := s'
  obtain ⟨depths, currents⟩ := alike
  cases currents with
  | some same => exact .some same
  | none =>
    by_cases media : isMediaLine line = true
    · simp only [BlockScan.blockFor, if_pos media]
      exact .some ⟨depths, rfl, rfl⟩
    · simp only [BlockScan.blockFor, if_neg media]
      exact .none

theorem isSome_blockFor (alike : s.Alike s') (line : String) :
    (s.blockFor line).isSome = (s'.blockFor line).isSome := by
  have entered := alike.blockFor line
  generalize s.blockFor line = block, s'.blockFor line = block' at entered
  cases entered <;> rfl

/-- **One line keeps passes alike**, and they tell blocks that are alike. -/
theorem feed (alike : s.Alike s') (line : String) :
    (s.feed line).1.Alike (s'.feed line).1 ∧
      List.Forall₂ MediaBlock.Alike (s.feed line).2.toList (s'.feed line).2.toList := by
  have entered := alike.blockFor line
  generalize here : s.blockFor line = block, here' : s'.blockFor line = block' at entered
  cases entered with
  | none =>
    rw [feed_of_blockFor_eq_none here, feed_of_blockFor_eq_none here', alike.depth_eq]
    exact ⟨⟨rfl, .none⟩, .nil⟩
  | some same =>
    have further := same.after line
    rw [feed_of_blockFor_eq_some here, feed_of_blockFor_eq_some here', alike.depth_eq,
      further.isOver_eq]
    split
    · exact ⟨⟨rfl, .none⟩, .cons (further.endAt _ _ true) .nil⟩
    · exact ⟨⟨rfl, .some further⟩, .nil⟩

theorem unfinished (alike : s.Alike s') :
    List.Forall₂ MediaBlock.Alike s.unfinished.toList s'.unfinished.toList := by
  have current := alike.current
  rw [BlockScan.unfinished, BlockScan.unfinished]
  generalize s.current = block, s'.current = block' at current
  cases current with
  | none => exact .nil
  | some same => exact .cons (same.endAt _ _ false) .nil

end Alike

/-! ## A pass that does not see all blank lines -/

/-- The block that the pass is in is not over. -/
def Running (s : BlockScan) : Prop :=
  ∀ block, s.current = some block → block.isOver s.depth = false

theorem running_start : start.Running := by
  intro block current
  cases current

theorem running_feed (s : BlockScan) (line : String) : (s.feed line).1.Running := by
  intro block current
  cases entered : s.blockFor line with
  | none =>
    rw [feed_of_blockFor_eq_none entered] at current
    cases current
  | some was =>
    rw [feed_of_blockFor_eq_some entered] at current ⊢
    split at current
    · cases current
    · rename_i running
      rw [if_neg running]
      rw [← Option.some.inj current]
      exact Bool.eq_false_iff.2 running

/-- **A blank line changes nothing but the index.** -/
theorem Running.feed_of_blank (running : s.Running) (blank : Text.isBlankLine line = true) :
    s.feed line = ({ s with index := s.index + 1 }, none) := by
  have flat : s.depth + lineDelta line = s.depth := by rw [lineDelta_of_blank blank, Int.add_zero]
  obtain ⟨index, depth, current⟩ := s
  cases current with
  | none =>
    have free : (BlockScan.mk index depth none).blockFor line = none :=
      if_neg (by simp [isMediaLine_of_blank blank])
    rw [feed_of_blockFor_eq_none free, flat]
  | some block =>
    have same : block.after line = block := by
      rw [OpenBlock.after, hasOpen_of_blank blank, Bool.or_false]
    have entered : (BlockScan.mk index depth (some block)).blockFor line = some block := rfl
    rw [feed_of_blockFor_eq_some entered, flat, same, if_neg (by simp [running block rfl])]

/-- A blank line stands in a block when the pass is in one. -/
theorem blockFor_of_blank (s : BlockScan) (blank : Text.isBlankLine line = true) :
    s.blockFor line = s.current := by
  rw [blockFor, isMediaLine_of_blank blank]
  cases s.current <;> rfl

namespace Alike

variable {bound run : Nat}

/-- A pass is still like one that has seen a blank line more. -/
theorem feed_of_blank (alike : s.Alike s') (running : s'.Running)
    (blank : Text.isBlankLine line = true) : s.Alike (s'.feed line).1 := by
  rw [running.feed_of_blank blank]
  exact ⟨alike.depth_eq, alike.current⟩

/-- **The blocks of a sheet whose blank runs were cut are those of the sheet**, but for their spans.
-/
theorem blocks_cutRuns (alike : s.Alike s') (running : s'.Running) (lines : List String) :
    List.Forall₂ MediaBlock.Alike (s.blocks (cutRuns bound run lines)) (s'.blocks lines) := by
  induction lines generalizing s s' run with
  | nil => exact alike.unfinished
  | cons line rest ih =>
    have running' := s'.running_feed line
    obtain ⟨fed, told⟩ := alike.feed line
    -- a line that is kept is taken by both passes
    have both : ∀ {run : Nat}, List.Forall₂ MediaBlock.Alike
        (s.blocks (line :: cutRuns bound run rest)) (s'.blocks (line :: rest)) := by
      intro run
      rw [blocks_cons, blocks_cons]
      exact List.rel_append told (ih fed running')
    cases isBlank : Text.isBlankLine line with
    | false =>
      rw [cutRuns_of_text isBlank]
      exact both
    | true =>
      rw [cutRuns_of_blank isBlank]
      split
      · exact both
      · rw [blocks_cons, running.feed_of_blank isBlank]
        have seen := alike.feed_of_blank running isBlank
        rw [running.feed_of_blank isBlank] at seen running'
        exact ih seen running'

/-! ### What is left, cut -/

theorem left_of_inside (inside : (s.blockFor line).isSome = true) (rest : List String) :
    s.left (line :: rest) = (s.feed line).1.left rest := by
  rw [left, if_pos inside, List.nil_append]

theorem left_of_outside (outside : (s.blockFor line).isSome = false) (rest : List String) :
    s.left (line :: rest) = line :: (s.feed line).1.left rest := by
  rw [left, if_neg (by simp [outside]), List.singleton_append]

/-- The blank run before the next line, as the two cuts of `cutRuns_left` count it: `run` in the
sheet, `kept` in what the first cut and the removal left of it, `kept'` in what the removal alone
left.  The last two count the same as far as the second cut goes, and outside a block nothing of
the run has been removed. -/
structure Counts (s' : BlockScan) (low run kept kept' : Nat) : Prop where
  together : min kept low = min kept' low
  room : s'.current = none → run ≤ kept'

variable {low high run kept kept' : Nat}

theorem Counts.text_outside (s' : BlockScan) (low : Nat) : Counts s' low 0 0 0 :=
  ⟨rfl, fun _ => Nat.le_refl 0⟩

theorem Counts.text_inside (counts : Counts s' low run kept kept') (line : String) :
    Counts (s'.feed line).1 low 0 kept kept' :=
  ⟨counts.together, fun _ => Nat.zero_le kept'⟩

theorem Counts.blank_inside (counts : Counts s' low run kept kept') (running : s'.Running)
    (blank : Text.isBlankLine line = true) (inside : s'.current.isSome = true) :
    Counts (s'.feed line).1 low (run + 1) kept kept' := by
  rw [running.feed_of_blank blank]
  refine ⟨counts.together, fun free => ?_⟩
  rw [free] at inside
  cases inside

theorem Counts.blank_outside (counts : Counts s' low run kept kept') (running : s'.Running)
    (blank : Text.isBlankLine line = true) :
    Counts (s'.feed line).1 low (run + 1) (kept + 1) (kept' + 1) := by
  rw [running.feed_of_blank blank]
  refine ⟨?_, fun free => Nat.succ_le_succ (counts.room free)⟩
  have := counts.together
  omega

/-- A line that the first cut took out would have been taken out by the second one. -/
theorem Counts.cut_outside (counts : Counts s' low run kept kept') (running : s'.Running)
    (blank : Text.isBlankLine line = true) (free : s'.current = none) (spent : low ≤ run) :
    ¬ kept' < low ∧ Counts (s'.feed line).1 low (run + 1) kept (kept' + 1) := by
  have together := counts.together
  have room := counts.room free
  rw [running.feed_of_blank blank]
  refine ⟨by omega, ?_, fun _ => Nat.succ_le_succ room⟩
  omega

/-- **A cut after the removal leaves the same with and without a cut before it**, unless the one
before cuts more. -/
theorem cutRuns_left (alike : s.Alike s') (running : s'.Running) (larger : low ≤ high)
    (counts : Counts s' low run kept kept') (lines : List String) :
    cutRuns low kept (s.left (cutRuns high run lines)) = cutRuns low kept' (s'.left lines) := by
  induction lines generalizing s s' run kept kept' with
  | nil => rfl
  | cons line rest ih =>
    have running' := s'.running_feed line
    have fed := (alike.feed line).1
    have where_alike := alike.isSome_blockFor line
    cases isBlank : Text.isBlankLine line with
    | false =>
      rw [cutRuns_of_text isBlank]
      cases inside : (s'.blockFor line).isSome with
      | true =>
        rw [left_of_inside (where_alike.trans inside), left_of_inside inside]
        exact ih fed running' (counts.text_inside line)
      | false =>
        rw [left_of_outside (where_alike.trans inside), left_of_outside inside,
          cutRuns_of_text isBlank, cutRuns_of_text isBlank]
        exact congrArg (line :: ·) (ih fed running' (.text_outside _ low))
    | true =>
      have seen := alike.feed_of_blank running isBlank
      rw [cutRuns_of_blank isBlank]
      cases inside : (s'.blockFor line).isSome with
      | true =>
        rw [left_of_inside inside]
        have further := counts.blank_inside running isBlank
          (by rwa [s'.blockFor_of_blank isBlank] at inside)
        split
        · rw [left_of_inside (where_alike.trans inside)]
          exact ih fed running' further
        · exact ih seen running' further
      | false =>
        rw [left_of_outside inside, cutRuns_of_blank isBlank]
        split
        · rw [left_of_outside (where_alike.trans inside), cutRuns_of_blank isBlank,
            ih fed running' (counts.blank_outside running isBlank)]
          have same : kept < low ↔ kept' < low := by
            have := counts.together
            omega
          simp only [same]
        · rename_i full
          have free : s'.current = none := by
            rwa [s'.blockFor_of_blank isBlank, Option.isSome_eq_false_iff,
              Option.isNone_iff_eq_none] at inside
          obtain ⟨spent, further⟩ :=
            counts.cut_outside running isBlank free (larger.trans (Nat.le_of_not_lt full))
          rw [if_neg spent]
          exact ih seen running' further

end Alike

end BlockScan

/-! ## Compaction before the removal -/

theorem runBound_pos (most : Nat) : 0 < runBound most :=
  Nat.lt_of_lt_of_le Nat.zero_lt_one (Nat.le_max_right most 1)

theorem compactRuns_ne_nil {most : Nat} {lines : List String} (some_line : lines ≠ []) :
    compactRuns most lines ≠ [] := by
  obtain ⟨line, rest, rfl⟩ := List.exists_cons_of_ne_nil some_line
  cases isBlank : Text.isBlankLine line with
  | false =>
    rw [compactRuns, cutRuns_of_text isBlank]
    exact List.cons_ne_nil _ _
  | true =>
    rw [compactRuns, cutRuns_of_blank isBlank, if_pos (runBound_pos most)]
    exact List.cons_ne_nil _ _

theorem toLines_compactBlankLines (text : String) (most : Nat) :
    Text.toLines (compactBlankLines text most) = compactRuns most (Text.toLines text) :=
  Text.toLines_ofLines (compactRuns_ne_nil (Text.toLines_ne_nil text))
    (unbroken_compactRuns most text)

theorem text_removeAllMedia (text : String) (most : Nat) :
    (removeAllMedia text most).text =
      Text.ofLines (compactRuns most (BlockScan.start.left (Text.toLines text))) := by
  rw [← BlockScan.kept_stripMedia_eq_left]
  rfl

theorem removed_removeAllMedia (text : String) (most : Nat) :
    (removeAllMedia text most).removed = BlockScan.start.blocks (Text.toLines text) :=
  rfl

/-- **Compaction before the removal of all blocks is absorbed by it**, for every text, unless its
bound is the smaller one: the text that is left is the same, and the blocks that are taken out
correspond one to one, with the same query, depth and end, though some blank lines before them and
in them are gone. -/
theorem removeAllMedia_compactBlankLines (text : String) (first most : Nat)
    (larger : max most 1 ≤ max first 1) :
    (removeAllMedia (compactBlankLines text first) most).text = (removeAllMedia text most).text ∧
      List.Forall₂ MediaBlock.Alike (removeAllMedia (compactBlankLines text first) most).removed
        (removeAllMedia text most).removed := by
  have alike := BlockScan.Alike.refl BlockScan.start
  constructor
  · rw [text_removeAllMedia, text_removeAllMedia, toLines_compactBlankLines]
    exact congrArg Text.ofLines (alike.cutRuns_left BlockScan.running_start larger
      (.text_outside _ _) (Text.toLines text))
  · rw [removed_removeAllMedia, removed_removeAllMedia, toLines_compactBlankLines]
    exact alike.blocks_cutRuns BlockScan.running_start (Text.toLines text)

/-- Three empty lines before a block, in it and after it. -/
def airyText : String := "a \x7b\x7d\n\n\n\n@media b \x7b\n\n\n\n\x7d\n\n\n\nc \x7b\x7d"

/-- The first cut takes a line out of each of the three runs.  What the removal brings together is
cut to one line either way. -/
theorem removeAllMedia_compactBlankLines_airyText :
    max 0 1 ≤ max 2 1 ∧
      (Text.toLines (compactBlankLines airyText 2)).length + 3 = (Text.toLines airyText).length ∧
      (removeAllMedia (compactBlankLines airyText 2) 0).text = "a \x7b\x7d\n\nc \x7b\x7d" ∧
      (removeAllMedia (compactBlankLines airyText 2) 0).removed.map (·.span.text) = ["4-7"] ∧
      (removeAllMedia airyText 0).removed.map (·.span.text) = ["5-9"] := by
  have larger : max 0 1 ≤ max 2 1 := by decide
  obtain ⟨same, _⟩ := removeAllMedia_compactBlankLines airyText 2 0 larger
  refine ⟨larger, by decide, ?_, by decide, by decide⟩
  rw [same]
  decide

end MediaSweep
