import Mathlib.Algebra.BigOperators.Group.List.Basic
import Mathlib.Algebra.GroupWithZero.Nat
import Mathlib.Order.Interval.Finset.Nat
import MediaSweep.Proofs.Sheet.LineSet

/-!
# Counting marked lines

The lines that some spans cover form a finite set (`coveredLines`), in which a line counts once
however many spans cover it.  Spans that stand apart cover as many lines as their sizes add up to
(`card_coveredLines`), and that is how a set of marked lines knows its size: it keeps its runs apart
(`LineSet.size_ofSpans`).

The size is a number of lines of the sheet only if no mark lies behind the last line.  Then what is
removed and what is left make up the whole (`LineSet.length_remove_add_size`).
-/

namespace MediaSweep

set_option autoImplicit false

/-! ## The lines that spans cover -/

/-- The indices of the lines that some span covers. -/
def coveredLines (spans : List Span) : Finset Nat :=
  spans.toFinset.biUnion fun s => Finset.Icc s.first s.last

theorem coveredLines_cons (s : Span) (rest : List Span) :
    coveredLines (s :: rest) = Finset.Icc s.first s.last ∪ coveredLines rest := by
  rw [coveredLines, List.toFinset_cons, Finset.biUnion_insert, coveredLines]

theorem mem_coveredLines {spans : List Span} {index : Nat} :
    index ∈ coveredLines spans ↔ spans.any (·.covers index) = true := by
  simp only [coveredLines, Finset.mem_biUnion, List.mem_toFinset, Finset.mem_Icc, List.any_eq_true,
    Span.covers_iff]

theorem coveredLines_append (spans others : List Span) :
    coveredLines (spans ++ others) = coveredLines spans ∪ coveredLines others := by
  rw [coveredLines, List.toFinset_append, Finset.union_biUnion, coveredLines, coveredLines]

/-- **Spans that stand apart cover as many lines as their sizes add up to.** -/
theorem card_coveredLines {spans : List Span} (ordered : spans.Pairwise Span.Before) :
    (coveredLines spans).card = (spans.map Span.size).sum := by
  induction spans with
  | nil => rfl
  | cons s rest ih =>
    obtain ⟨apart, ordered⟩ := List.pairwise_cons.1 ordered
    have disjoint : Disjoint (Finset.Icc s.first s.last) (coveredLines rest) := by
      rw [Finset.disjoint_left]
      intro index here later
      obtain ⟨other, mem, covers⟩ := List.any_eq_true.1 (mem_coveredLines.1 later)
      have behind : s.last < other.first := apart other mem
      have low := (Span.covers_iff.1 covers).1
      have high := (Finset.mem_Icc.1 here).2
      omega
    have high := s.first_le_last
    have size : s.last + 1 - s.first = s.size := by
      rw [Span.size]
      omega
    rw [coveredLines_cons, Finset.card_union_of_disjoint disjoint, ih ordered, Nat.card_Icc, size,
      List.map_cons, List.sum_cons]

/-! ## Removing and counting -/

namespace LineSet

variable {α : Type}

/-- What is left and the runs make up the whole list. -/
theorem length_keepFrom_add {index : Nat} {runs : List Span} {items : List α}
    (ordered : runs.Pairwise Span.Before) (ahead : ∀ r ∈ runs, index ≤ r.first)
    (within : ∀ r ∈ runs, r.last < index + items.length) :
    (keepFrom index runs items).length + (runs.map Span.size).sum = items.length := by
  induction runs generalizing index items with
  | nil => rfl
  | cons r rest ih =>
    obtain ⟨apart, ordered⟩ := List.pairwise_cons.1 ordered
    obtain ⟨low, _⟩ := List.forall_mem_cons.1 ahead
    obtain ⟨inside, later⟩ := List.forall_mem_cons.1 within
    have high := r.first_le_last
    have behind := @ih (r.last + 1) (items.drop (r.last + 1 - index)) ordered apart (by
      intro other mem
      have := later other mem
      rw [List.length_drop]
      omega)
    rw [List.length_drop] at behind
    rw [keepFrom, List.length_append, List.length_take, List.map_cons, List.sum_cons, Span.size]
    omega

variable {set : LineSet}

theorem size_eq_sum (set : LineSet) : set.size = (set.runs.reverse.map Span.size).sum := by
  rw [List.map_reverse, List.sum_reverse]
  rfl

theorem ordered_runs (set : LineSet) : set.runs.reverse.Pairwise Span.Before :=
  List.pairwise_reverse.2 set.separated

/-- **The size of a set of marked lines is the number of lines that the spans cover.** -/
theorem size_ofSpans (spans : List Span) : (ofSpans spans).size = (coveredLines spans).card := by
  rw [size_eq_sum, ← card_coveredLines (ordered_runs _)]
  congr 1
  ext index
  have marked := contains_ofSpans spans index
  rw [contains] at marked
  rw [mem_coveredLines, mem_coveredLines, List.any_reverse, marked]

/-- **What is removed and what is left make up the whole**, when no mark lies behind the end. -/
theorem length_remove_add_size {items : List α}
    (within : ∀ index, set.contains index = true → index < items.length) :
    (set.remove items).length + set.size = items.length := by
  rw [size_eq_sum, remove]
  refine length_keepFrom_add set.ordered_runs (fun _ _ => Nat.zero_le _) fun r mem => ?_
  rw [Nat.zero_add]
  refine within r.last (List.any_eq_true.2 ⟨r, List.mem_reverse.1 mem, ?_⟩)
  exact Span.covers_iff.2 ⟨r.first_le_last, Nat.le_refl _⟩

end LineSet

end MediaSweep
