import Mathlib.Order.Basic
import MediaSweep.Sheet.LineSet

/-!
# Removing marked lines

A set of lines removes run after run.  What is left does not depend on the runs: an element stays
exactly when its index is not marked.  `keepUnless` says that one element at a time, and
`LineSet.remove_eq_keepUnless` is the agreement of the two.  Kept in the same way, the indices of a
list tell where each element that is left stood before (`take_keepUnless`).
-/

namespace MediaSweep

set_option autoImplicit false

variable {α : Type} {marked marked' : Nat → Bool}

/-! ## Keeping what is not marked -/

/-- What is left of a list, whose first element has the given index, when the elements at the marked
indices go. -/
def keepUnless (marked : Nat → Bool) (index : Nat) : List α → List α
  | [] => []
  | item :: rest =>
    if marked index then keepUnless marked (index + 1) rest
    else item :: keepUnless marked (index + 1) rest

theorem keepUnless_cons (index : Nat) (item : α) (rest : List α) :
    keepUnless marked index (item :: rest) =
      if marked index then keepUnless marked (index + 1) rest
      else item :: keepUnless marked (index + 1) rest := rfl

/-- A list can be cut in two first. -/
theorem keepUnless_split (index count : Nat) (items : List α) :
    keepUnless marked index items =
      keepUnless marked index (items.take count) ++
        keepUnless marked (index + count) (items.drop count) := by
  induction count generalizing index items with
  | zero => rfl
  | succ count ih =>
    cases items with
    | nil => rfl
    | cons item rest =>
      have shift : index + 1 + count = index + (count + 1) := by omega
      rw [List.take_succ_cons, List.drop_succ_cons, keepUnless_cons, keepUnless_cons, ih, shift]
      split <;> rfl

/-- Only the marks on indices of the list matter. -/
theorem keepUnless_congr {index : Nat} {items : List α}
    (same : ∀ place, index ≤ place → place < index + items.length → marked place = marked' place) :
    keepUnless marked index items = keepUnless marked' index items := by
  induction items generalizing index with
  | nil => rfl
  | cons item rest ih =>
    rw [List.length_cons] at same
    rw [keepUnless_cons, keepUnless_cons, same index (Nat.le_refl _) (by omega),
      ih fun place low high => same place (by omega) (by omega)]

theorem keepUnless_eq_self {index : Nat} {items : List α}
    (free : ∀ place, index ≤ place → place < index + items.length → marked place = false) :
    keepUnless marked index items = items := by
  induction items generalizing index with
  | nil => rfl
  | cons item rest ih =>
    rw [List.length_cons] at free
    rw [keepUnless_cons, free index (Nat.le_refl _) (by omega), if_neg Bool.false_ne_true,
      ih fun place low high => free place (by omega) (by omega)]

theorem keepUnless_eq_nil {index : Nat} {items : List α}
    (all : ∀ place, index ≤ place → place < index + items.length → marked place = true) :
    keepUnless marked index items = [] := by
  induction items generalizing index with
  | nil => rfl
  | cons item rest ih =>
    rw [List.length_cons] at all
    rw [keepUnless_cons, if_pos (all index (Nat.le_refl _) (by omega)),
      ih fun place low high => all place (by omega) (by omega)]

/-- An element at an index that is not marked stays. -/
theorem mem_keepUnless {index place : Nat} {items : List α} {item : α}
    (found : items[place]? = some item) (free : marked (index + place) = false) :
    item ∈ keepUnless marked index items := by
  induction items generalizing index place with
  | nil => exact absurd found (by simp)
  | cons head rest ih =>
    rw [keepUnless_cons]
    cases place with
    | zero =>
      obtain rfl := Option.some_inj.1 found
      simp [show marked index = false from free]
    | succ place =>
      have later : item ∈ keepUnless marked (index + 1) rest :=
        ih found (by rwa [Nat.add_assoc, Nat.add_comm 1])
      split
      · exact later
      · exact List.mem_cons_of_mem head later

/-- An element that stays is at an index that is not marked. -/
theorem exists_free_of_mem_keepUnless {index : Nat} {items : List α} {item : α}
    (mem : item ∈ keepUnless marked index items) :
    ∃ place, items[place]? = some item ∧ marked (index + place) = false := by
  induction items generalizing index with
  | nil => exact absurd mem List.not_mem_nil
  | cons head rest ih =>
    have later : item ∈ keepUnless marked (index + 1) rest →
        ∃ place, (head :: rest)[place]? = some item ∧ marked (index + place) = false := by
      intro mem
      obtain ⟨place, found, free⟩ := ih mem
      exact ⟨place + 1, found, by rwa [Nat.add_comm place, ← Nat.add_assoc]⟩
    rw [keepUnless_cons] at mem
    cases here : marked index with
    | true =>
      rw [here, if_pos rfl] at mem
      exact later mem
    | false =>
      rw [here, if_neg Bool.false_ne_true] at mem
      rcases List.mem_cons.1 mem with rfl | mem
      · exact ⟨0, rfl, here⟩
      · exact later mem

/-- What stays keeps its order. -/
theorem keepUnless_sublist (index : Nat) (items : List α) :
    (keepUnless marked index items).Sublist items := by
  induction items generalizing index with
  | nil => exact List.nil_sublist _
  | cons item rest ih =>
    rw [keepUnless_cons]
    split
    · exact (ih (index + 1)).cons item
    · exact (ih (index + 1)).cons_cons item

/-- With more marks less stays, and in the same order. -/
theorem keepUnless_sublist_keepUnless (index : Nat) (items : List α)
    (more : ∀ place, marked place = true → marked' place = true) :
    (keepUnless marked' index items).Sublist (keepUnless marked index items) := by
  induction items generalizing index with
  | nil => exact List.nil_sublist _
  | cons item rest ih =>
    have later := ih (index + 1)
    rw [keepUnless_cons, keepUnless_cons]
    cases here : marked index with
    | true =>
      rw [if_pos (more index here), if_pos rfl]
      exact later
    | false =>
      rw [if_neg Bool.false_ne_true]
      split
      · exact later.cons item
      · exact later.cons_cons item

theorem length_keepUnless_le (index : Nat) (items : List α)
    (more : ∀ place, marked place = true → marked' place = true) :
    (keepUnless marked' index items).length ≤ (keepUnless marked index items).length :=
  (keepUnless_sublist_keepUnless index items more).length_le

/-- Marks that take no more elements are the same marks. -/
theorem marked_of_length_keepUnless {index : Nat} {items : List α}
    (more : ∀ place, marked place = true → marked' place = true)
    (same : (keepUnless marked' index items).length = (keepUnless marked index items).length) :
    ∀ place, index ≤ place → place < index + items.length →
      marked' place = true → marked place = true := by
  induction items generalizing index with
  | nil =>
    intro place low high
    simp only [List.length_nil] at high
    omega
  | cons item rest ih =>
    have later := length_keepUnless_le (index + 1) rest more
    rw [keepUnless_cons, keepUnless_cons] at same
    have here : marked' index = true → marked index = true := by
      intro taken
      by_contra free
      rw [if_pos taken, if_neg free, List.length_cons] at same
      omega
    have rest_same : (keepUnless marked' (index + 1) rest).length =
        (keepUnless marked (index + 1) rest).length := by
      cases taken : marked index with
      | true => simpa [taken, more index taken] using same
      | false =>
        have free : marked' index = false := by
          cases other : marked' index with
          | true => exact absurd (here other) (by simp [taken])
          | false => rfl
        simpa [taken, free] using same
    intro place low high
    rw [List.length_cons] at high
    rcases Nat.eq_or_lt_of_le low with rfl | low
    · exact here
    · exact ih rest_same place low (by omega)

/-! ## Indices that are kept -/

theorem map_keepUnless {β : Type} (f : α → β) (start : Nat) (items : List α) :
    (keepUnless marked start items).map f = keepUnless marked start (items.map f) := by
  induction items generalizing start with
  | nil => rfl
  | cons item rest ih =>
    rw [keepUnless_cons, List.map_cons, keepUnless_cons, ← ih]
    split <;> rfl

/-- An index is kept when it is not marked. -/
theorem keepUnless_range' (start count : Nat) :
    keepUnless marked start (List.range' start count) =
      (List.range' start count).filter fun index => !marked index := by
  induction count generalizing start with
  | zero => rfl
  | succ count ih =>
    rw [List.range'_succ, keepUnless_cons, ih, List.filter_cons]
    cases marked start <;> rfl

/-- What is kept above a kept element is kept of the elements above it. -/
theorem take_keepUnless {start place index : Nat} {items : List α}
    (found : (keepUnless marked start (List.range' start items.length))[place]? = some index) :
    start ≤ index ∧ marked index = false ∧
      (keepUnless marked start items).take place =
        keepUnless marked start (items.take (index - start)) := by
  induction items generalizing start place with
  | nil => exact absurd found (by simp [keepUnless])
  | cons item rest ih =>
    have later : ∀ {place : Nat},
        (keepUnless marked (start + 1) (List.range' (start + 1) rest.length))[place]? = some index →
        marked index = false ∧ index - start = index - (start + 1) + 1 ∧
          (keepUnless marked (start + 1) rest).take place =
            keepUnless marked (start + 1) (rest.take (index - (start + 1))) := by
      intro place behind
      obtain ⟨low, free, above⟩ := ih behind
      exact ⟨free, by omega, above⟩
    rw [List.length_cons, List.range'_succ, keepUnless_cons] at found
    rw [keepUnless_cons]
    cases here : marked start with
    | true =>
      rw [here, if_pos rfl] at found
      obtain ⟨free, shift, above⟩ := later found
      rw [if_pos rfl, above, shift, List.take_succ_cons, keepUnless_cons, here, if_pos rfl]
      exact ⟨by omega, free, rfl⟩
    | false =>
      rw [here, if_neg Bool.false_ne_true] at found
      rw [if_neg Bool.false_ne_true]
      cases place with
      | zero =>
        obtain rfl := Option.some.inj found
        rw [Nat.sub_self]
        exact ⟨Nat.le_refl _, here, rfl⟩
      | succ place =>
        obtain ⟨free, shift, above⟩ := later found
        rw [List.take_succ_cons, above, shift, List.take_succ_cons, keepUnless_cons, here,
          if_neg Bool.false_ne_true]
        exact ⟨by omega, free, rfl⟩

/-! ## Runs -/

/-- Removing run after run leaves what no run covers. -/
theorem LineSet.keepFrom_eq_keepUnless {index : Nat} {runs : List Span} {items : List α}
    (ordered : runs.Pairwise Span.Before) (ahead : ∀ r ∈ runs, index ≤ r.first) :
    keepFrom index runs items =
      keepUnless (fun place => runs.any (·.covers place)) index items := by
  induction runs generalizing index items with
  | nil => exact (keepUnless_eq_self fun _ _ _ => rfl).symm
  | cons r rest ih =>
    obtain ⟨apart, ordered⟩ := List.pairwise_cons.1 ordered
    have low := ahead r List.mem_cons_self
    have high := r.first_le_last
    have gap : index + (r.first - index) = r.first := by omega
    have run : r.first + (r.last + 1 - r.first) = r.last + 1 := by omega
    have both : r.first - index + (r.last + 1 - r.first) = r.last + 1 - index := by omega
    rw [keepFrom, ih ordered apart, keepUnless_split index (r.first - index), gap,
      keepUnless_split r.first (r.last + 1 - r.first), run, List.drop_drop, both]
    -- before the first run nothing is covered, inside it everything, and behind it only the rest is
    have before : keepUnless (fun place => (r :: rest).any (·.covers place)) index
        (items.take (r.first - index)) = items.take (r.first - index) := by
      refine keepUnless_eq_self fun place above below => ?_
      have short : place < r.first := by
        have := List.length_take_le (r.first - index) items
        omega
      refine List.any_eq_false.2 (List.forall_mem_cons.2 ⟨?_, fun later mem => ?_⟩)
      · rw [Span.covers_iff]
        omega
      · have : r.last < later.first := apart later mem
        rw [Span.covers_iff]
        omega
    have inside : keepUnless (fun place => (r :: rest).any (·.covers place)) r.first
        ((items.drop (r.first - index)).take (r.last + 1 - r.first)) = [] := by
      refine keepUnless_eq_nil fun place above below => ?_
      have := List.length_take_le (r.last + 1 - r.first) (items.drop (r.first - index))
      rw [List.any_cons, Bool.or_eq_true, Span.covers_iff]
      omega
    have behind : keepUnless (fun place => (r :: rest).any (·.covers place)) (r.last + 1)
        (items.drop (r.last + 1 - index)) =
        keepUnless (fun place => rest.any (·.covers place)) (r.last + 1)
          (items.drop (r.last + 1 - index)) := by
      refine keepUnless_congr fun place above _ => ?_
      have free : r.covers place = false := by
        rw [← Bool.not_eq_true, Span.covers_iff]
        omega
      rw [List.any_cons, free, Bool.false_or]
    rw [before, inside, behind, List.nil_append]

/-- **An element stays exactly when its index is not marked.** -/
theorem LineSet.remove_eq_keepUnless (set : LineSet) (items : List α) :
    set.remove items = keepUnless set.contains 0 items := by
  rw [remove, keepFrom_eq_keepUnless (List.pairwise_reverse.2 set.separated)
    fun _ _ => Nat.zero_le _]
  simp only [List.any_reverse]
  rfl

/-- The lines marked by some spans are the lines that one of them covers. -/
theorem LineSet.contains_ofSpans (spans : List Span) (index : Nat) :
    (ofSpans spans).contains index = spans.any (·.covers index) := by
  have added : ∀ set : LineSet, (spans.foldl mark set).contains index =
      (set.contains index || spans.any (·.covers index)) := by
    induction spans with
    | nil => simp
    | cons s rest ih =>
      intro set
      rw [List.foldl_cons, ih, contains_mark, List.any_cons, Bool.or_comm (s.covers index),
        Bool.or_assoc]
  rw [ofSpans, added, contains_empty, Bool.false_or]

end MediaSweep
