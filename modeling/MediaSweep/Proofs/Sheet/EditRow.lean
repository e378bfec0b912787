import MediaSweep.Proofs.Sheet.BlankRun
import MediaSweep.Proofs.Sheet.Strip
import MediaSweep.Sheet.Cleanup

/-!
# Edits in a row

Several edits can be made on the same lines, which are joined at the end, or each on the text that
the one before it left, which is split before it and joined after it.  The lines can differ: an edit
may take out every line, and the empty text that is left has one line again, to which the next edit
is made.  The text at the end does not differ (`Edit.makeAllOnText_ofLines`).  An edit only takes
lines out, so of the empty line it leaves that line or nothing, and both have the same text.
-/

namespace MediaSweep

set_option autoImplicit false

namespace Edit

/-- The text that an edit leaves. -/
def onText (text : String) (edit : Edit) : String :=
  Text.ofLines (edit.apply (Text.toLines text)).1

/-- The lines that some edits leave, made one after the other on the same lines. -/
def makeAll (edits : List Edit) (lines : List String) : List String :=
  edits.foldl (fun lines edit => (edit.apply lines).1) lines

/-- The text that some edits leave, each made on the text that the one before it left. -/
def makeAllOnText (edits : List Edit) (text : String) : String :=
  edits.foldl onText text

variable {lines : List String}

/-- An edit only takes lines out. -/
theorem apply_sublist (edit : Edit) (lines : List String) : (edit.apply lines).1.Sublist lines := by
  cases edit with
  | stripMedia =>
    rw [apply, kept_stripMedia]
    exact keepUnless_sublist 0 lines
  | stripAt lineNumbers =>
    rw [apply, kept_stripAt]
    exact keepUnless_sublist 0 lines
  | compact most => exact compactRuns_sublist most lines

/-- **An edit of joined lines leaves the text that it leaves of the lines**, also when there are
none. -/
theorem onText_ofLines (edit : Edit) (unbroken : ∀ line ∈ lines, '\n' ∉ line.toList) :
    edit.onText (Text.ofLines lines) = Text.ofLines (edit.apply lines).1 := by
  cases lines with
  | nil =>
    have empty : (edit.apply []).1 = [] := List.sublist_nil.1 (edit.apply_sublist [])
    rw [onText, Text.toLines_ofLines_nil, empty]
    rcases List.sublist_singleton.1 (edit.apply_sublist [""]) with left | left <;> rw [left]
    rfl
  | cons line rest => rw [onText, Text.toLines_ofLines (List.cons_ne_nil line rest) unbroken]

/-- **Edits in a row leave the same text**, whether the lines are joined at the end or after each of
them. -/
theorem makeAllOnText_ofLines (edits : List Edit) (unbroken : ∀ line ∈ lines, '\n' ∉ line.toList) :
    makeAllOnText edits (Text.ofLines lines) = Text.ofLines (makeAll edits lines) := by
  induction edits generalizing lines with
  | nil => rfl
  | cons edit rest ih =>
    have later := ih fun line mem => unbroken line ((edit.apply_sublist lines).subset mem)
    rw [makeAllOnText, List.foldl_cons, edit.onText_ofLines unbroken]
    exact later

end Edit

/-- **Splitting and joining.**  A text comes back from its lines; lines come back from their text
exactly when there are some and none holds a newline; and in a row of edits, the lines can be joined
and split again after each of them without a difference to the text at the end.  The removal of all
blocks, which joins the lines at the end, is such a row. -/
theorem splitting_and_joining :
    (∀ text, Text.ofLines (Text.toLines text) = text) ∧
    (∀ lines, Text.toLines (Text.ofLines lines) = lines ↔
      lines ≠ [] ∧ ∀ line ∈ lines, '\n' ∉ line.toList) ∧
    (∀ (edits : List Edit) (text : String),
      Text.ofLines (Edit.makeAll edits (Text.toLines text)) = Edit.makeAllOnText edits text) ∧
    ∀ (text : String) (most : Nat),
      (removeAllMedia text most).text = Edit.makeAllOnText [.stripMedia, .compact most] text := by
  have row (edits : List Edit) (text : String) :
      Text.ofLines (Edit.makeAll edits (Text.toLines text)) = Edit.makeAllOnText edits text := by
    have joined := Edit.makeAllOnText_ofLines edits (Text.unbroken_toLines text)
    rw [Text.ofLines_toLines] at joined
    exact joined.symm
  refine ⟨Text.ofLines_toLines, fun _ => Text.toLines_ofLines_iff, row, fun text most => ?_⟩
  rw [← row, removeAllMedia, Edit.makeAll, List.foldl_cons, List.foldl_cons, List.foldl_nil,
    Edit.apply, Edit.apply]

end MediaSweep
