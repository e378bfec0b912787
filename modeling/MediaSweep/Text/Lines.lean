/-!
# Text as lines

A sheet is edited as a list of lines and stored as one text.  The newline separates lines and
nothing else does; a carriage return before it stays in its line.  A newline at the end therefore
shows as a last, empty line, and text that is only split and joined comes back unchanged
(`ofLines_toLines`).

The other direction is exact up to one list: joining no lines at all gives the empty text, which
splits into one empty line (`toLines_ofLines`, `toLines_ofLines_iff`).
-/

namespace MediaSweep.Text

set_option autoImplicit false

/-- The lines of a text: the pieces between its newlines. -/
def toLines (text : String) : List String :=
  (text.toList.splitOn '\n').map String.ofList

/-- The text of some lines: a newline between each two neighbours. -/
def ofLines (lines : List String) : String :=
  String.ofList (List.intercalate ['\n'] (lines.map String.toList))

/-- Splitting and joining gives the text back. -/
@[simp]
theorem ofLines_toLines (text : String) : ofLines (toLines text) = text := by
  simp [ofLines, toLines, Function.comp_def, List.intercalate_splitOn]

theorem toLines_ne_nil (text : String) : toLines text ≠ [] := by
  simp [toLines, List.splitOn, List.splitOnP_ne_nil]

/-- The pieces between separators hold no separator. -/
theorem notMem_of_mem_splitOn {α : Type} [BEq α] [LawfulBEq α] {separator : α} {items : List α} :
    ∀ piece ∈ items.splitOn separator, separator ∉ piece := by
  induction items with
  | nil => simp [List.splitOn_nil]
  | cons item rest ih =>
    rw [List.splitOn_cons_eq_if_modifyHead]
    split
    · exact List.forall_mem_cons.2 ⟨List.not_mem_nil, ih⟩
    · rename_i other
      cases pieces : rest.splitOn separator with
      | nil => simp
      | cons piece later =>
        rw [pieces] at ih
        obtain ⟨here, after⟩ := List.forall_mem_cons.1 ih
        refine List.forall_mem_cons.2 ⟨fun mem => ?_, after⟩
        rcases List.mem_cons.1 mem with rfl | mem
        · simp at other
        · exact here mem

theorem unbroken_toLines (text : String) : ∀ line ∈ toLines text, '\n' ∉ line.toList := by
  intro line mem
  obtain ⟨piece, found, rfl⟩ := List.mem_map.1 mem
  simpa using notMem_of_mem_splitOn piece found

/-- Joining and splitting gives the lines back, when there are some and none holds a newline. -/
theorem toLines_ofLines {lines : List String} (nonempty : lines ≠ [])
    (unbroken : ∀ line ∈ lines, '\n' ∉ line.toList) : toLines (ofLines lines) = lines := by
  have hsplit : (List.intercalate ['\n'] (lines.map String.toList)).splitOn '\n'
      = lines.map String.toList := by
    apply List.splitOn_intercalate
    · intro l hl
      obtain ⟨line, hline, rfl⟩ := List.mem_map.1 hl
      exact unbroken line hline
    · simpa using nonempty
  simp [toLines, ofLines, hsplit, Function.comp_def]

/-- No lines and one empty line have the same text. -/
theorem ofLines_nil : ofLines [] = ofLines [""] := rfl

theorem toLines_ofLines_nil : toLines (ofLines []) = [""] :=
  toLines_ofLines (List.cons_ne_nil "" []) (by simp)

/-- Only lists without a line and lines with a newline do not come back. -/
theorem toLines_ofLines_iff {lines : List String} :
    toLines (ofLines lines) = lines ↔ lines ≠ [] ∧ ∀ line ∈ lines, '\n' ∉ line.toList := by
  constructor
  · intro same
    refine ⟨fun nothing => ?_, fun line mem => ?_⟩
    · subst nothing
      exact absurd same (by rw [toLines_ofLines_nil]; exact List.cons_ne_nil _ _)
    · rw [← same] at mem
      exact unbroken_toLines (ofLines lines) line mem
  · rintro ⟨nonempty, unbroken⟩
    exact toLines_ofLines nonempty unbroken

/-- These two are the only lists of lines with the same text. -/
theorem eq_of_ofLines_eq {xs ys : List String} (unbroken : ∀ line ∈ xs, '\n' ∉ line.toList)
    (unbroken' : ∀ line ∈ ys, '\n' ∉ line.toList) (same : ofLines xs = ofLines ys) :
    xs = ys ∨ xs = [] ∧ ys = [""] ∨ xs = [""] ∧ ys = [] := by
  have single := toLines_ofLines_nil
  cases xs with
  | nil =>
    cases ys with
    | nil => exact .inl rfl
    | cons y rest =>
      rw [← toLines_ofLines (List.cons_ne_nil y rest) unbroken', ← same]
      exact .inr (.inl ⟨rfl, single⟩)
  | cons x rest =>
    rw [← toLines_ofLines (List.cons_ne_nil x rest) unbroken, same]
    cases ys with
    | nil => exact .inr (.inr ⟨single, rfl⟩)
    | cons y rest' => exact .inl (toLines_ofLines (List.cons_ne_nil y rest') unbroken')

end MediaSweep.Text
