import Mathlib.Logic.Function.Basic
import MediaSweep.Proofs.Sheet.Strip
import MediaSweep.Sheet.Edit

/-!
# Tools that are used again

A tool may be used on one sheet after the other.  A `Tool` gets a new report with each use, so
nothing of the one before can be in it.  An instrument is a tool that has its report in fields of
its own and writes them while it is at work.  Some fields are emptied first and filled request by
request, some keep what they held until the end, and a use with nothing to take out ends early.  The
lines are gone through once, by a test that remembers something from line to line.

However it is written, the report of an instrument after a use is that of a tool that was never used
before, and the same lines are left (`Instrument.tool_use`).  So it is on a workbench with any
number of instruments and sheets, after whatever was done with them (`Workbench.use_as_new`).
-/

namespace MediaSweep

set_option autoImplicit false

/-! ## One pass over the lines -/

/-- Keep the items that pass a test, which may remember something from item to item. -/
def sift {α σ : Type} (test : σ → α → Bool × σ) (memory : σ) : List α → List α
  | [] => []
  | item :: rest =>
    if (test memory item).1 then item :: sift test (test memory item).2 rest
    else sift test (test memory item).2 rest

/-- Whether the next line stays when marked ones go; the index of the line is remembered. -/
def indexTest (marked : Nat → Bool) (index : Nat) (_ : String) : Bool × Nat :=
  (!marked index, index + 1)

/-- Whether the next line stays when at most `bound` of a blank run do; the number of blank lines
that stand directly before is remembered. -/
def blankTest (bound run : Nat) (line : String) : Bool × Nat :=
  if Text.isBlankLine line then (run + 1 ≤ bound, run + 1) else (true, 0)

theorem sift_indexTest (marked : Nat → Bool) (index : Nat) (lines : List String) :
    sift (indexTest marked) index lines = keepUnless marked index lines := by
  induction lines generalizing index with
  | nil => rfl
  | cons line rest ih =>
    rw [sift, keepUnless_cons, indexTest, ih]
    cases marked index <;> rfl

theorem sift_blankTest (bound run : Nat) (lines : List String) :
    sift (blankTest bound) run lines = cutRuns bound run lines := by
  induction lines generalizing run with
  | nil => rfl
  | cons line rest ih =>
    rw [sift, cutRuns, blankTest]
    split
    · rw [ih]
      simp only [decide_eq_true_eq, Nat.succ_le_iff]
    · rw [ih]
      rfl

/-! ## Instruments -/

/-- What an instrument has found out about requests. -/
@[ext]
structure Findings where
  located : List LocatedBlock := []
  skipped : List Nat := []
  unmatched : List Nat := []
  removedLines : Nat := 0

namespace Findings

/-- Empty the lists.  The number of lines is what it was until the use ends. -/
def clear (found : Findings) : Findings :=
  { found with located := [], skipped := [], unmatched := [] }

/-- Enter how a request comes out, and mark the lines of its block. -/
def enter (lines : List String) (work : Findings × LineSet) (lineNumber : Nat) :
    Findings × LineSet :=
  match lookUp lines lineNumber with
  | .outOfRange => ({ work.1 with skipped := work.1.skipped ++ [lineNumber] }, work.2)
  | .unmatched => ({ work.1 with unmatched := work.1.unmatched ++ [lineNumber] }, work.2)
  | .located block =>
    ({ work.1 with located := work.1.located ++ [block] }, work.2.mark block.span)

/-- **Requests entered one after the other** are added to the lists in their order. -/
theorem foldl_enter (lines : List String) (requests : List Nat) (work : Findings × LineSet) :
    requests.foldl (enter lines) work =
      ({ work.1 with
          located := work.1.located ++ (stripAt requests lines).located
          skipped := work.1.skipped ++ (stripAt requests lines).skipped
          unmatched := work.1.unmatched ++ (stripAt requests lines).unmatched },
        ((stripAt requests lines).located.map LocatedBlock.span).foldl LineSet.mark work.2) := by
  simp only [located_stripAt, skipped_stripAt, unmatched_stripAt]
  induction requests generalizing work with
  | nil => simp
  | cons lineNumber rest ih =>
    rw [List.foldl_cons, ih, enter]
    cases outcome : lookUp lines lineNumber with
    | outOfRange => simp [outcome, Request.block?]
    | unmatched => simp [outcome, Request.block?]
    | located block => simp [outcome, Request.block?]

end Findings

/-- A tool with its report in fields of its own. -/
inductive Instrument where
  | stripMedia (removed : List MediaBlock)
  | stripAt (lineNumbers : List Nat) (found : Findings)
  | compact (most collapsed : Nat)

namespace Instrument

/-- An instrument that has not been used. -/
def new : Edit → Instrument
  | .stripMedia => .stripMedia []
  | .stripAt lineNumbers => .stripAt lineNumbers {}
  | .compact most => .compact most 0

/-- Use an instrument on some lines. -/
def use (lines : List String) : Instrument → Instrument × List String
  | stripMedia _ =>
    let removed := mediaBlocks lines
    if removed.isEmpty then (.stripMedia removed, lines)
    else
      let marked := (removed.map MediaBlock.span).foldl LineSet.mark .empty
      (.stripMedia removed, sift (indexTest marked.contains) 0 lines)
  | stripAt lineNumbers found =>
    let work := lineNumbers.foldl (Findings.enter lines) (found.clear, .empty)
    (.stripAt lineNumbers { work.1 with removedLines := work.2.size },
      sift (indexTest work.2.contains) 0 lines)
  | compact most _ =>
    let kept := sift (blankTest (runBound most)) 0 lines
    (.compact most (lines.length - kept.length), kept)

/-- The edit that an instrument makes, with its parameters. -/
def edit : Instrument → Edit
  | stripMedia _ => .stripMedia
  | stripAt lineNumbers _ => .stripAt lineNumbers
  | compact most _ => .compact most

/-- The fields of an instrument as a report. -/
def report : Instrument → EditReport
  | stripMedia removed => .stripped removed
  | stripAt _ found =>
    .strippedAt found.located found.skipped found.unmatched found.removedLines
  | compact _ collapsed => .compacted collapsed

/-- An instrument seen as a tool. -/
def tool (i : Instrument) : Tool :=
  ⟨i.edit, i.report⟩

/-- Nothing of an instrument is left out of the tool. -/
theorem tool_injective : Function.Injective tool := by
  intro i j same
  obtain ⟨edits, reports⟩ := Tool.mk.inj same
  cases i <;> cases j <;> first | contradiction | skip
  case stripMedia.stripMedia => exact congrArg stripMedia (EditReport.stripped.inj reports)
  case stripAt.stripAt =>
    obtain ⟨located, skipped, unmatched, removedLines⟩ := EditReport.strippedAt.inj reports
    rw [Edit.stripAt.inj edits, Findings.ext located skipped unmatched removedLines]
  case compact.compact =>
    rw [Edit.compact.inj edits, EditReport.compacted.inj reports]

@[simp]
theorem tool_new (edit : Edit) : (new edit).tool = .new edit := by
  cases edit <;> rfl

/-- **An instrument reports and leaves what a tool does.** -/
theorem tool_use (i : Instrument) (lines : List String) :
    ((i.use lines).1.tool, (i.use lines).2) = i.tool.use lines := by
  cases i with
  | stripMedia held =>
    rw [use]
    split
    · -- without blocks no line is marked, and the pass would keep them all
      rename_i none_found
      have nothing := List.isEmpty_iff.1 none_found
      show (_, lines) =
        (_, (LineSet.ofSpans ((mediaBlocks lines).map MediaBlock.span)).remove lines)
      rw [nothing]
      simp only [tool, edit, report, MediaSweep.stripMedia, nothing]
      rfl
    · dsimp only
      rw [sift_indexTest, ← LineSet.remove_eq_keepUnless]
      rfl
  | stripAt lineNumbers found =>
    rw [use, Findings.foldl_enter, sift_indexTest, ← LineSet.remove_eq_keepUnless]
    simp only [Findings.clear, List.nil_append]
    rfl
  | compact most held =>
    rw [use, sift_blankTest]
    rfl

theorem edit_use (i : Instrument) (lines : List String) : (i.use lines).1.edit = i.edit :=
  congrArg (fun used => used.1.edit) (i.tool_use lines)

/-- **What was in the fields before makes no difference.** -/
theorem use_eq_use_new (i : Instrument) (lines : List String) :
    i.use lines = (new i.edit).use lines := by
  have same : i.tool.use lines = (new i.edit).tool.use lines := by
    rw [tool_new]
    rfl
  rw [← tool_use, ← tool_use] at same
  obtain ⟨tools, left⟩ := Prod.mk.inj same
  exact Prod.ext (tool_injective tools) left

end Instrument

/-! ## A workbench -/

/-- Instruments and sheets, each with a number. -/
structure Workbench where
  instruments : Nat → Instrument
  sheets : Nat → List String

/-- Something that is done at a workbench. -/
inductive Deed where
  /-- An instrument is used on a sheet. -/
  | use (instrument sheet : Nat)
  /-- A sheet is replaced by other lines. -/
  | replace (sheet : Nat) (lines : List String)

namespace Workbench

/-- The workbench after a deed.  Using an instrument changes the instrument and the sheet, and
nothing else on the bench. -/
def after (bench : Workbench) : Deed → Workbench
  | .use i s =>
    let used := (bench.instruments i).use (bench.sheets s)
    ⟨Function.update bench.instruments i used.1, Function.update bench.sheets s used.2⟩
  | .replace s lines => { bench with sheets := Function.update bench.sheets s lines }

/-- The workbench after some deeds, one after the other. -/
def run (bench : Workbench) (deeds : List Deed) : Workbench :=
  deeds.foldl after bench

/-- No deed changes what an instrument is for. -/
theorem edit_after (bench : Workbench) (deed : Deed) (i : Nat) :
    ((bench.after deed).instruments i).edit = (bench.instruments i).edit := by
  cases deed with
  | replace s lines => rfl
  | use j s =>
    rw [after]
    by_cases same : i = j
    · subst same
      simp only [Function.update_self]
      exact (bench.instruments i).edit_use (bench.sheets s)
    · simp only [Function.update_of_ne same]

theorem edit_run (bench : Workbench) (deeds : List Deed) (i : Nat) :
    ((bench.run deeds).instruments i).edit = (bench.instruments i).edit := by
  induction deeds generalizing bench with
  | nil => rfl
  | cons deed rest ih => exact (ih (bench.after deed)).trans (bench.edit_after deed i)

/-- **Every use is as good as a first one.**  After any deeds, an instrument used on a sheet reports
and leaves what a new one for the same edit would report and leave, and so would a new tool.  The
other instruments and sheets stay as they are. -/
theorem use_as_new (bench : Workbench) (deeds : List Deed) (i s : Nat) :
    let now := bench.run deeds
    let next := bench.run (deeds ++ [.use i s])
    (next.instruments i, next.sheets s) =
        (Instrument.new (bench.instruments i).edit).use (now.sheets s) ∧
      ((next.instruments i).tool, next.sheets s) =
        (Tool.new (bench.instruments i).edit).use (now.sheets s) ∧
      (∀ j, j ≠ i → next.instruments j = now.instruments j) ∧
      ∀ t, t ≠ s → next.sheets t = now.sheets t := by
  intro now next
  have last : next = now.after (.use i s) := by
    show List.foldl after bench (deeds ++ [.use i s]) = _
    rw [List.foldl_append]
    rfl
  have used : (next.instruments i, next.sheets s) =
      (Instrument.new (bench.instruments i).edit).use (now.sheets s) := by
    rw [← edit_run bench deeds i, ← Instrument.use_eq_use_new, last, after]
    simp only [Function.update_self]
    rfl
  refine ⟨used, ?_, fun j other => ?_, fun t other => ?_⟩
  · rw [← Instrument.tool_new, ← Instrument.tool_use, ← used]
  · rw [last, after]
    exact Function.update_of_ne other _ _
  · rw [last, after]
    exact Function.update_of_ne other _ _

end Workbench

end MediaSweep
