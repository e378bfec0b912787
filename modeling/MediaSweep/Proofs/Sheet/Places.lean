import MediaSweep.Proofs.Sheet.BraceMatch
import MediaSweep.Proofs.Sheet.Ending
import MediaSweep.Text.Lines

/-!
# Places in the text of a sheet

A place in a text is the number of characters before it, and its line is the number of newlines
before it (`lineOf`).  Every line of the text has a place where it starts and one where it ends, and
the two ways of counting agree there: the depth before the end of a line is the depth of the sheet
after that line (`depthBefore_lineEnd`), and a place lies behind the end of a line exactly when its
line is a later one (`lineEnd_lt_iff`).
-/

namespace MediaSweep

set_option autoImplicit false

/-! ## Lines of places -/

/-- The index of the line that a place of a text is in. -/
def lineOf (cs : List Char) (place : Nat) : Nat :=
  (cs.take place).count '\n'

theorem lineOf_mono (cs : List Char) {place later : Nat} (ordered : place ≤ later) :
    lineOf cs place ≤ lineOf cs later :=
  ((List.take_prefix_take_left ordered).sublist).count_le '\n'

/-- Only behind a newline a place is in a later line. -/
theorem lineOf_succ_of_ne {cs : List Char} {place : Nat} {c : Char} (found : cs[place]? = some c)
    (other : c ≠ '\n') : lineOf cs (place + 1) = lineOf cs place := by
  rw [lineOf, lineOf, List.take_add_one, found, List.count_append]
  simp [other]

/-! ## Where lines start and end -/

/-- The characters of some lines, each with a newline behind it. -/
def withNewlines (lines : List String) : List Char :=
  lines.flatMap fun line => line.toList ++ ['\n']

theorem withNewlines_append (xs ys : List String) :
    withNewlines (xs ++ ys) = withNewlines xs ++ withNewlines ys :=
  List.flatMap_append

theorem withNewlines_take_succ {lines : List String} {index : Nat} {line : String}
    (found : lines[index]? = some line) :
    withNewlines (lines.take (index + 1)) =
      withNewlines (lines.take index) ++ line.toList ++ ['\n'] := by
  simp [withNewlines, List.take_add_one, found]

theorem delta_withNewlines (lines : List String) :
    (BraceTally.ofChars (withNewlines lines)).delta = depthAfter lines := by
  induction lines with
  | nil => rfl
  | cons line rest ih =>
    have newline : (BraceTally.ofChars ['\n']).delta = 0 := by decide
    rw [withNewlines, List.flatMap_cons, BraceTally.delta_ofChars_append,
      BraceTally.delta_ofChars_append, newline, ← withNewlines, ih, depthAfter_cons]
    simp [lineDelta, BraceTally.ofLine]

theorem count_withNewlines {lines : List String} (unbroken : ∀ line ∈ lines, '\n' ∉ line.toList) :
    (withNewlines lines).count '\n' = lines.length := by
  induction lines with
  | nil => rfl
  | cons line rest ih =>
    obtain ⟨here, later⟩ := List.forall_mem_cons.1 unbroken
    rw [withNewlines, List.flatMap_cons, List.count_append, ← withNewlines, ih later]
    simp [List.count_eq_zero.2 here]
    omega

/-- The place where the line of an index starts. -/
def lineStart (lines : List String) (index : Nat) : Nat :=
  (withNewlines (lines.take index)).length

/-- The place where the line of an index ends, before its newline. -/
def lineEnd (lines : List String) (index : Nat) : Nat :=
  lineStart lines (index + 1) - 1

theorem lineStart_succ {lines : List String} {index : Nat} {line : String}
    (found : lines[index]? = some line) :
    lineStart lines (index + 1) = lineStart lines index + line.toList.length + 1 := by
  simp only [lineStart, withNewlines_take_succ found, List.length_append, List.length_singleton]

theorem lineEnd_eq {lines : List String} {index : Nat} {line : String}
    (found : lines[index]? = some line) :
    lineEnd lines index = lineStart lines index + line.toList.length := by
  rw [lineEnd, lineStart_succ found, Nat.add_sub_cancel]

theorem lineStart_mono (lines : List String) {index later : Nat} (ordered : index ≤ later) :
    lineStart lines index ≤ lineStart lines later := by
  obtain ⟨between, split⟩ : lines.take index <+: lines.take later :=
    List.take_prefix_take_left ordered
  rw [lineStart, lineStart, ← split, withNewlines_append, List.length_append]
  exact Nat.le_add_right _ _

theorem lineEnd_mono (lines : List String) {index later : Nat} (ordered : index ≤ later) :
    lineEnd lines index ≤ lineEnd lines later :=
  Nat.sub_le_sub_right (lineStart_mono lines (Nat.succ_le_succ ordered)) 1

theorem lineStart_le_lineEnd {lines : List String} {index : Nat} (within : index < lines.length) :
    lineStart lines index ≤ lineEnd lines index := by
  rw [lineEnd_eq (List.getElem?_eq_getElem within)]
  omega

/-! ## The text of a sheet, cut at its lines -/

theorem toList_ofLines_cons {line : String} {rest : List String} (more : rest ≠ []) :
    (Text.ofLines (line :: rest)).toList = line.toList ++ '\n' :: (Text.ofLines rest).toList := by
  obtain ⟨next, later, rfl⟩ := List.exists_cons_of_ne_nil more
  simp [Text.ofLines, List.intercalate_cons_cons]

/-- The text of some lines has no newline behind the last one. -/
theorem withNewlines_eq {lines : List String} (nonempty : lines ≠ []) :
    withNewlines lines = (Text.ofLines lines).toList ++ ['\n'] := by
  induction lines with
  | nil => exact absurd rfl nonempty
  | cons line rest ih =>
    cases rest with
    | nil => simp [withNewlines, Text.ofLines]
    | cons next later =>
      rw [toList_ofLines_cons (List.cons_ne_nil next later), List.append_assoc, List.cons_append,
        ← ih (List.cons_ne_nil next later)]
      simp [withNewlines]

/-- Before each of its lines a text is made of the earlier lines and their newlines. -/
theorem toList_ofLines_split {lines : List String} {index : Nat} (within : index < lines.length) :
    (Text.ofLines lines).toList =
      withNewlines (lines.take index) ++ (Text.ofLines (lines.drop index)).toList := by
  induction index generalizing lines with
  | zero => rfl
  | succ index ih =>
    cases lines with
    | nil => exact absurd within (by simp)
    | cons line rest =>
      have inner : index < rest.length := by simpa using within
      rw [toList_ofLines_cons (List.ne_nil_of_length_pos (by omega)), ih inner]
      simp [withNewlines]

/-- Each line of a text stands at its place, and a newline or nothing follows it. -/
theorem toList_ofLines_drop {lines : List String} {index : Nat} {line : String}
    (found : lines[index]? = some line) :
    ∃ behind, (Text.ofLines (lines.drop index)).toList = line.toList ++ behind ∧
      (index + 1 = lines.length → behind = []) := by
  have within : index < lines.length := (List.getElem?_eq_some_iff.1 found).1
  have ahead : lines.drop index = line :: lines.drop (index + 1) := by
    rw [List.drop_eq_getElem_cons within, (List.getElem?_eq_some_iff.1 found).2]
  rw [ahead]
  cases rest : lines.drop (index + 1) with
  | nil => exact ⟨[], by simp [Text.ofLines], fun _ => rfl⟩
  | cons next later =>
    refine ⟨_, toList_ofLines_cons (by simp), fun last => ?_⟩
    rw [last, List.drop_length] at rest
    exact absurd rest (by simp)

section OfText

variable {text : String} {index : Nat} {line : String}

theorem take_lineStart (within : index < (Text.toLines text).length) :
    text.toList.take (lineStart (Text.toLines text) index) =
      withNewlines ((Text.toLines text).take index) := by
  have split := toList_ofLines_split within
  rw [Text.ofLines_toLines] at split
  rw [split, lineStart, List.take_left]

theorem take_lineEnd (found : (Text.toLines text)[index]? = some line) :
    text.toList.take (lineEnd (Text.toLines text) index) =
      withNewlines ((Text.toLines text).take index) ++ line.toList := by
  have split := toList_ofLines_split (List.getElem?_eq_some_iff.1 found).1
  obtain ⟨behind, ahead, _⟩ := toList_ofLines_drop found
  rw [Text.ofLines_toLines, ahead, ← List.append_assoc] at split
  rw [split, lineEnd_eq found, lineStart, ← List.length_append, List.take_left]

/-- **The depth before a line is the depth of the place where it starts.** -/
theorem depthBefore_lineStart (within : index < (Text.toLines text).length) :
    depthBefore text.toList (lineStart (Text.toLines text) index) =
      depthAt (Text.toLines text) index := by
  rw [depthBefore, take_lineStart within, delta_withNewlines, depthAt]

/-- **The depth after a line is the depth of the place where it ends.** -/
theorem depthBefore_lineEnd (within : index < (Text.toLines text).length) :
    depthBefore text.toList (lineEnd (Text.toLines text) index) =
      depthAt (Text.toLines text) (index + 1) := by
  have found := List.getElem?_eq_getElem within
  rw [depthBefore, take_lineEnd found, BraceTally.delta_ofChars_append, delta_withNewlines,
    depthAt_succ found, depthAt, lineDelta, BraceTally.ofLine]

theorem lineOf_lineStart (within : index < (Text.toLines text).length) :
    lineOf text.toList (lineStart (Text.toLines text) index) = index := by
  rw [lineOf, take_lineStart within,
    count_withNewlines fun line mem =>
      Text.unbroken_toLines text line (List.mem_of_mem_take mem), List.length_take]
  omega

theorem lineOf_lineEnd (within : index < (Text.toLines text).length) :
    lineOf text.toList (lineEnd (Text.toLines text) index) = index := by
  have unbroken := Text.unbroken_toLines text
  rw [lineOf, take_lineEnd (List.getElem?_eq_getElem within), List.count_append,
    count_withNewlines fun line mem => unbroken line (List.mem_of_mem_take mem),
    List.count_eq_zero.2 (unbroken _ (List.getElem_mem within)), List.length_take]
  omega

/-- The last line ends where the text does. -/
theorem lineEnd_last (last : index + 1 = (Text.toLines text).length) :
    lineEnd (Text.toLines text) index = text.toList.length := by
  have within : index < (Text.toLines text).length := by omega
  have found := List.getElem?_eq_getElem within
  have split := toList_ofLines_split within
  obtain ⟨behind, ahead, nothing⟩ := toList_ofLines_drop found
  rw [Text.ofLines_toLines, ahead, nothing last, List.append_nil] at split
  rw [split, lineEnd_eq found, lineStart, List.length_append]

theorem lineEnd_le_length (within : index < (Text.toLines text).length) :
    lineEnd (Text.toLines text) index ≤ text.toList.length := by
  have last : (Text.toLines text).length - 1 + 1 = (Text.toLines text).length := by omega
  rw [← lineEnd_last last]
  exact lineEnd_mono _ (by omega)

/-- **A place lies behind the end of a line exactly when its line is a later one.** -/
theorem lineEnd_lt_iff {place : Nat} (within : index < (Text.toLines text).length)
    (inside : place ≤ text.toList.length) :
    lineEnd (Text.toLines text) index < place ↔ index < lineOf text.toList place := by
  constructor
  · intro behind
    have next : index + 1 < (Text.toLines text).length := by
      by_contra last
      have stop : lineEnd (Text.toLines text) index = text.toList.length := lineEnd_last (by omega)
      omega
    have start := lineOf_lineStart next
    have later : lineStart (Text.toLines text) (index + 1) ≤ place := by
      have := lineStart_succ (List.getElem?_eq_getElem within)
      rw [lineEnd] at behind
      omega
    have := lineOf_mono text.toList later
    omega
  · intro later
    by_contra before
    have := lineOf_mono text.toList (Nat.le_of_not_lt before)
    rw [lineOf_lineEnd within] at this
    omega

/-- **A place lies at the start of a line or behind it exactly when its line is that one or a later
one.** -/
theorem lineStart_le_iff {place : Nat} (within : index < (Text.toLines text).length)
    (inside : place ≤ text.toList.length) :
    lineStart (Text.toLines text) index ≤ place ↔ index ≤ lineOf text.toList place := by
  cases index with
  | zero => exact iff_of_true (Nat.zero_le _) (Nat.zero_le _)
  | succ index =>
    have earlier : index < (Text.toLines text).length := by omega
    have before := lineEnd_lt_iff earlier inside
    have start := lineStart_succ (List.getElem?_eq_getElem earlier)
    rw [lineEnd] at before
    omega

/-- Every place of a text is in one of its lines. -/
theorem lineOf_lt_length {place : Nat} (inside : place ≤ text.toList.length) :
    lineOf text.toList place < (Text.toLines text).length := by
  have some_line := List.length_pos_of_ne_nil (Text.toLines_ne_nil text)
  obtain ⟨index, last⟩ : ∃ index, index + 1 = (Text.toLines text).length :=
    ⟨(Text.toLines text).length - 1, by omega⟩
  have final : lineOf text.toList (lineEnd (Text.toLines text) index) = index :=
    lineOf_lineEnd (by omega)
  rw [lineEnd_last last] at final
  have := lineOf_mono text.toList inside
  omega

/-- A balanced text has no line of negative depth. -/
theorem Balanced.depthAt_nonneg (balanced : Balanced text.toList)
    (within : index ≤ (Text.toLines text).length) : 0 ≤ depthAt (Text.toLines text) index := by
  cases index with
  | zero => exact le_refl _
  | succ index =>
    rw [← depthBefore_lineEnd within]
    exact balanced.depthBefore_nonneg _

/-! ## Characters of lines -/

/-- A line stands in its text from its start on. -/
theorem getElem?_lineStart_add (found : (Text.toLines text)[index]? = some line) {count : Nat}
    (within : count < line.toList.length) :
    text.toList[lineStart (Text.toLines text) index + count]? = line.toList[count]? := by
  obtain ⟨behind, ahead, _⟩ := toList_ofLines_drop found
  have split := toList_ofLines_split (List.getElem?_eq_some_iff.1 found).1
  rw [Text.ofLines_toLines, ahead] at split
  rw [split, lineStart, List.getElem?_append_right (Nat.le_add_right _ _), Nat.add_sub_cancel_left,
    List.getElem?_append_left within]

/-- A character of a line stands at a place of the text that is in the line. -/
theorem exists_place_of_mem (found : (Text.toLines text)[index]? = some line) {c : Char}
    (mem : c ∈ line.toList) :
    ∃ place, lineStart (Text.toLines text) index ≤ place ∧
      place < lineEnd (Text.toLines text) index ∧ text.toList[place]? = some c := by
  obtain ⟨count, within, rfl⟩ := List.mem_iff_getElem.1 mem
  refine ⟨lineStart (Text.toLines text) index + count, by omega, ?_, ?_⟩
  · rw [lineEnd_eq found]
    omega
  · rw [getElem?_lineStart_add found within, List.getElem?_eq_getElem within]

/-- A character at a place between the ends of a line is in the line. -/
theorem mem_of_place (found : (Text.toLines text)[index]? = some line) {place : Nat} {c : Char}
    (low : lineStart (Text.toLines text) index ≤ place)
    (high : place < lineEnd (Text.toLines text) index) (there : text.toList[place]? = some c) :
    c ∈ line.toList := by
  rw [lineEnd_eq found] at high
  have within : place - lineStart (Text.toLines text) index < line.toList.length := by omega
  have same := getElem?_lineStart_add found within
  rw [Nat.add_sub_cancel' low, there] at same
  exact List.mem_of_getElem? same.symm

end OfText

end MediaSweep
