import Mathlib.Data.List.Infix
import Mathlib.Logic.Function.Basic
import MediaSweep.Proofs.Sheet.LineSet
import MediaSweep.Sheet.BlankRun
import MediaSweep.Text.Lines

/-!
# What cutting blank runs leaves

After compaction no blank lines stand in a row beyond the bound (`length_le_of_infix_compactRuns`),
and only blank lines are gone.  The second fact is stated for lines of which some were taken out
before: lines taken out by their index and then compacted are lines taken out by their index, and
those that went in the second step are blank (`exists_keepUnless_cutRuns`).
-/

namespace MediaSweep

set_option autoImplicit false

variable {bound run : Nat} {lines piece : List String}

/-! ## Runs that are left -/

theorem cutRuns_of_blank {line : String} (blank : Text.isBlankLine line = true)
    (rest : List String) :
    cutRuns bound run (line :: rest) =
      if run < bound then line :: cutRuns bound (run + 1) rest
      else cutRuns bound (run + 1) rest := by
  rw [cutRuns, if_pos blank]

theorem cutRuns_of_text {line : String} (text : Text.isBlankLine line = false)
    (rest : List String) :
    cutRuns bound run (line :: rest) = line :: cutRuns bound 0 rest := by
  rw [cutRuns, if_neg (by simp [text])]

/-- Blank lines at the start go on with the run before them. -/
theorem length_le_of_prefix_cutRuns (starts : piece <+: cutRuns bound run lines)
    (blank : ∀ line ∈ piece, Text.isBlankLine line = true) : piece.length ≤ bound - run := by
  induction lines generalizing run piece with
  | nil =>
    rw [List.prefix_nil.1 starts]
    exact Nat.zero_le _
  | cons line rest ih =>
    cases isBlank : Text.isBlankLine line with
    | false =>
      rw [cutRuns_of_text isBlank] at starts
      rcases List.prefix_cons_iff.1 starts with rfl | ⟨later, rfl, _⟩
      · exact Nat.zero_le _
      · rw [blank line List.mem_cons_self] at isBlank
        cases isBlank
    | true =>
      rw [cutRuns_of_blank isBlank] at starts
      split at starts
      · rcases List.prefix_cons_iff.1 starts with rfl | ⟨later, rfl, behind⟩
        · exact Nat.zero_le _
        · have := ih behind (List.forall_mem_cons.1 blank).2
          rw [List.length_cons]
          omega
      · have := ih starts blank
        omega

/-- **No run of blank lines is longer than the bound.** -/
theorem length_le_of_infix_cutRuns (inside : piece <:+: cutRuns bound run lines)
    (blank : ∀ line ∈ piece, Text.isBlankLine line = true) : piece.length ≤ bound := by
  induction lines generalizing run with
  | nil =>
    rw [List.infix_nil.1 inside]
    exact Nat.zero_le _
  | cons line rest ih =>
    have at_start : piece <+: cutRuns bound run (line :: rest) → piece.length ≤ bound :=
      fun starts => (length_le_of_prefix_cutRuns starts blank).trans (Nat.sub_le _ _)
    cases isBlank : Text.isBlankLine line with
    | false =>
      rw [cutRuns_of_text isBlank] at inside at_start
      exact (List.infix_cons_iff.1 inside).elim at_start ih
    | true =>
      rw [cutRuns_of_blank isBlank] at inside at_start
      split at inside
      · rename_i room
        rw [if_pos room] at at_start
        exact (List.infix_cons_iff.1 inside).elim at_start ih
      · exact ih inside

theorem length_le_of_infix_compactRuns {most : Nat} (inside : piece <:+: compactRuns most lines)
    (blank : ∀ line ∈ piece, Text.isBlankLine line = true) : piece.length ≤ max most 1 :=
  length_le_of_infix_cutRuns inside blank

/-! ## Lines that are gone -/

/-- Some marks with further ones on blank lines; the first of the lines has the given index. -/
structure DropsBlank (marked dropped : Nat → Bool) (index : Nat) (lines : List String) : Prop where
  more : ∀ place, marked place = true → dropped place = true
  only_blank : ∀ place line, lines[place]? = some line → dropped (index + place) = true →
    marked (index + place) = true ∨ Text.isBlankLine line = true

variable {marked dropped : Nat → Bool} {index : Nat}

theorem DropsBlank.cons {line : String} {rest : List String} {drop : Bool}
    (later : DropsBlank marked dropped (index + 1) rest)
    (kept : marked index = true → drop = true)
    (blank : drop = true → marked index = true ∨ Text.isBlankLine line = true) :
    DropsBlank marked (Function.update dropped index drop) index (line :: rest) where
  more := by
    intro place was
    by_cases here : place = index
    · subst here
      rw [Function.update_self]
      exact kept was
    · rw [Function.update_of_ne here]
      exact later.more place was
  only_blank := by
    intro place other found gone
    cases place with
    | zero =>
      obtain rfl := Option.some_inj.1 found
      rw [Nat.add_zero, Function.update_self] at gone
      exact blank gone
    | succ place =>
      have shift : index + (place + 1) = index + 1 + place := by omega
      rw [shift, Function.update_of_ne (by omega)] at gone
      rw [shift]
      exact later.only_blank place other found gone

/-- A mark on the first element, before the marks on the others. -/
theorem keepUnless_update_cons {α : Type} (drop : Bool) (item : α) (rest : List α) :
    keepUnless (Function.update dropped index drop) index (item :: rest) =
      if drop then keepUnless dropped (index + 1) rest
      else item :: keepUnless dropped (index + 1) rest := by
  have same : keepUnless (Function.update dropped index drop) (index + 1) rest =
      keepUnless dropped (index + 1) rest :=
    keepUnless_congr fun place low _ => Function.update_of_ne (by omega) _ _
  rw [keepUnless_cons, Function.update_self, same]

/-- **Cutting runs of what is left takes out further blank lines.** -/
theorem exists_keepUnless_cutRuns (bound run : Nat) (marked : Nat → Bool) (index : Nat)
    (lines : List String) :
    ∃ dropped, cutRuns bound run (keepUnless marked index lines) =
        keepUnless dropped index lines ∧ DropsBlank marked dropped index lines := by
  induction lines generalizing run index with
  | nil => exact ⟨marked, rfl, fun _ was => was, by simp⟩
  | cons line rest ih =>
    cases here : marked index with
    | true =>
      obtain ⟨dropped, left, later⟩ := ih run (index + 1)
      refine ⟨Function.update dropped index true, ?_, later.cons (fun _ => rfl) fun _ => .inl here⟩
      rw [keepUnless_cons, if_pos here, left, keepUnless_update_cons, if_pos rfl]
    | false =>
      have stays : keepUnless marked index (line :: rest) =
          line :: keepUnless marked (index + 1) rest := by
        rw [keepUnless_cons, if_neg (by simp [here])]
      rw [stays]
      cases isBlank : Text.isBlankLine line with
      | false =>
        obtain ⟨dropped, left, later⟩ := ih 0 (index + 1)
        refine ⟨Function.update dropped index false, ?_, later.cons (by simp [here]) (by simp)⟩
        rw [cutRuns_of_text isBlank, left, keepUnless_update_cons, if_neg Bool.false_ne_true]
      | true =>
        obtain ⟨dropped, left, later⟩ := ih (run + 1) (index + 1)
        rw [cutRuns_of_blank isBlank, left]
        split
        · refine ⟨Function.update dropped index false, ?_, later.cons (by simp [here]) (by simp)⟩
          rw [keepUnless_update_cons, if_neg Bool.false_ne_true]
        · refine ⟨Function.update dropped index true, ?_,
            later.cons (fun _ => rfl) fun _ => .inr isBlank⟩
          rw [keepUnless_update_cons, if_pos rfl]

/-- Compaction keeps lines and their order. -/
theorem compactRuns_sublist (most : Nat) (lines : List String) :
    (compactRuns most lines).Sublist lines := by
  obtain ⟨dropped, left, _⟩ := exists_keepUnless_cutRuns (runBound most) 0 (fun _ => false) 0 lines
  rw [keepUnless_eq_self fun _ _ _ => rfl] at left
  rw [compactRuns, left]
  exact keepUnless_sublist 0 lines

/-- The lines that compaction leaves of a text can be joined and split again. -/
theorem unbroken_compactRuns (most : Nat) (text : String) :
    ∀ line ∈ compactRuns most (Text.toLines text), '\n' ∉ line.toList := by
  intro line mem
  exact Text.unbroken_toLines text line ((compactRuns_sublist most _).subset mem)

end MediaSweep
