import Mathlib.Data.String.Basic
import MediaSweep.Proofs.Sheet.Places

/-!
# What the text of some lines holds

Joining lines puts newlines between them and nothing else.  A word without a newline therefore
stands in the text of some lines exactly when it stands in one of them (`infix_ofLines_iff`):
neither splitting nor joining makes such a word or hides it.  Fewer lines have a text with fewer
characters (`toList_ofLines_sublist`), and fewer characters are fewer bytes.
-/

namespace MediaSweep

set_option autoImplicit false

variable {lines : List String}

/-! ## Words -/

/-- A word without the separator stands on one side of it. -/
theorem infix_around_iff {α : Type} {word front back : List α} {separator : α}
    (unbroken : separator ∉ word) :
    word <:+: front ++ separator :: back ↔ word <:+: front ∨ word <:+: back := by
  constructor
  · intro inside
    rcases List.infix_append_iff.1 inside with inFront | behind | ⟨left, right, rfl, stop, start⟩
    · exact .inl inFront
    · rcases List.infix_cons_iff.1 behind with starts | inBack
      · cases word with
        | nil => exact .inl List.nil_infix
        | cons head rest =>
          obtain rfl := (List.cons_prefix_cons.1 starts).1
          exact absurd List.mem_cons_self unbroken
      · exact .inr inBack
    · cases right with
      | nil =>
        rw [List.append_nil]
        exact .inl stop.isInfix
      | cons head rest =>
        obtain rfl := (List.cons_prefix_cons.1 start).1
        exact absurd (List.mem_append_right left List.mem_cons_self) unbroken
  · rintro (inFront | inBack)
    · exact inFront.trans (List.prefix_append _ _).isInfix
    · exact inBack.trans ((List.suffix_cons separator back).trans (List.suffix_append _ _)).isInfix

/-- A word without a newline stands in some lines with newlines behind them exactly when it stands
in one of them. -/
theorem infix_withNewlines_iff {word : List Char} (nonempty : word ≠ []) (unbroken : '\n' ∉ word)
    (lines : List String) :
    word <:+: withNewlines lines ↔ ∃ line ∈ lines, word <:+: line.toList := by
  induction lines with
  | nil => simp [withNewlines, nonempty]
  | cons line rest ih =>
    have split : withNewlines (line :: rest) = line.toList ++ '\n' :: withNewlines rest := by
      simp [withNewlines]
    rw [split, infix_around_iff unbroken, ih, List.exists_mem_cons_iff]

/-- **A word without a newline stands in the text of some lines exactly when it stands in one of
them.** -/
theorem infix_ofLines_iff {word : List Char} (nonempty : word ≠ []) (unbroken : '\n' ∉ word)
    (lines : List String) :
    word <:+: (Text.ofLines lines).toList ↔ ∃ line ∈ lines, word <:+: line.toList := by
  rw [← infix_withNewlines_iff nonempty unbroken]
  cases lines with
  | nil => rfl
  | cons line rest =>
    have nothing : ¬ word <:+: [] := fun inside => nonempty (List.infix_nil.1 inside)
    rw [withNewlines_eq (List.cons_ne_nil line rest), infix_around_iff unbroken]
    exact (or_iff_left nothing).symm

/-- The word `@media` stands in the text of some lines exactly when it stands in one of them. -/
theorem mediaWord_infix_ofLines_iff (lines : List String) :
    mediaWord <:+: (Text.ofLines lines).toList ↔ ∃ line ∈ lines, isMediaLine line = true := by
  rw [infix_ofLines_iff (by decide) (by decide)]
  simp only [isMediaLine, Text.holds_iff_infix]

/-- A text has the word `@media` in it exactly when one of its lines has. -/
theorem mediaWord_infix_iff (text : String) :
    mediaWord <:+: text.toList ↔ ∃ line ∈ Text.toLines text, isMediaLine line = true := by
  have same := mediaWord_infix_ofLines_iff (Text.toLines text)
  rwa [Text.ofLines_toLines] at same

/-! ## Sizes -/

theorem withNewlines_sublist {xs ys : List String} (fewer : xs.Sublist ys) :
    (withNewlines xs).Sublist (withNewlines ys) := by
  induction fewer with
  | slnil => exact List.Sublist.refl _
  | cons line _ ih => exact ih.trans (List.sublist_append_right _ _)
  | cons_cons line _ ih => exact ih.append_left _

/-- **Fewer lines have a text with fewer characters.** -/
theorem toList_ofLines_sublist {xs ys : List String} (fewer : xs.Sublist ys) :
    (Text.ofLines xs).toList.Sublist (Text.ofLines ys).toList := by
  cases xs with
  | nil => exact List.nil_sublist _
  | cons x rest =>
    have nonempty : ys ≠ [] := by
      rintro rfl
      exact absurd fewer.length_le (by simp)
    have sub := withNewlines_sublist fewer
    rw [withNewlines_eq (List.cons_ne_nil x rest), withNewlines_eq nonempty] at sub
    exact (List.append_sublist_append_right ['\n']).1 sub

theorem utf8ByteSize_le_of_sublist {s t : String} (fewer : s.toList.Sublist t.toList) :
    s.utf8ByteSize ≤ t.utf8ByteSize := by
  rw [← String.utf8Len_toList, ← String.utf8Len_toList]
  exact String.utf8Len_le_of_sublist fewer

/-- Some characters and not all of them have fewer bytes. -/
theorem utf8Len_lt_of_sublist {xs ys : List Char} (fewer : xs.Sublist ys) (less : xs ≠ ys) :
    String.utf8Len xs < String.utf8Len ys := by
  induction fewer with
  | slnil => exact absurd rfl less
  | cons c fewer _ =>
    have := String.utf8Len_le_of_sublist fewer
    have := c.utf8Size_pos
    rw [String.utf8Len_cons]
    omega
  | cons_cons c _ ih =>
    rw [String.utf8Len_cons, String.utf8Len_cons]
    exact Nat.add_lt_add_right (ih fun same => less (congrArg (c :: ·) same)) _

theorem utf8ByteSize_lt_of_sublist {s t : String} (fewer : s.toList.Sublist t.toList)
    (less : s ≠ t) : s.utf8ByteSize < t.utf8ByteSize := by
  rw [← String.utf8Len_toList, ← String.utf8Len_toList]
  exact utf8Len_lt_of_sublist fewer fun same => less (String.toList_injective same)

end MediaSweep
