import MediaSweep.Proofs.Sheet.LineCount

/-!
# What was marked

A set of marked lines keeps runs that do not meet, and not the spans that were marked.  Still all
its answers are about the spans: a line is in the set when a span covers it, the size is the number
of lines that are covered, however often, the set is empty when nothing was marked, and of a list
there stay the elements at the places that no span covers (`LineSet.Answers`).

So it is after any row of deeds, in which spans are marked one by one or collected at once and
elements are taken out of lists in between (`LineSet.answers_after`).  The step is that a deed with
the set of some spans makes the set of the spans that are marked then (`LineSet.perform_ofSpans`);
by induction on the deeds the set is at all times the one that a single collection would make.
-/

namespace MediaSweep

set_option autoImplicit false

variable {α : Type}

/-! ## What stays of a list -/

/-- The elements that stay are those at the places that are not marked. -/
theorem keepUnless_eq_filter_zipIdx (marked : Nat → Bool) (index : Nat) (items : List α) :
    keepUnless marked index items =
      ((items.zipIdx index).filter fun entry => !marked entry.2).map Prod.fst := by
  induction items generalizing index with
  | nil => rfl
  | cons item rest ih =>
    rw [keepUnless_cons, ih, List.zipIdx_cons, List.filter_cons]
    cases marked index <;> rfl

/-- The elements that stay and the places that are marked make up the list. -/
theorem length_keepUnless_add_card (marked : Nat → Bool) (items : List α) :
    (keepUnless marked 0 items).length +
      {index ∈ Finset.range items.length | marked index = true}.card = items.length := by
  have free : (keepUnless marked 0 items).length =
      (List.range items.length).countP fun index => !marked index := by
    rw [keepUnless_eq_filter_zipIdx, List.length_map, ← List.countP_eq_length_filter,
      List.range_eq_range', ← List.zipIdx_map_snd, List.countP_map]
    rfl
  have taken : {index ∈ Finset.range items.length | marked index = true}.card =
      (List.range items.length).countP marked := by
    rw [List.countP_eq_length_filter]
    simp only [Finset.card, Finset.filter, Finset.range_val, Multiset.range, Multiset.filter_coe,
      Multiset.coe_card, Bool.decide_eq_true]
  have all := List.length_eq_countP_add_countP marked (l := List.range items.length)
  simp only [List.length_range, Bool.not_eq_true, Bool.decide_eq_false] at all
  omega

namespace LineSet

/-! ## The set of some spans -/

/-- A set answers every question about marked lines by some spans. -/
structure Answers (set : LineSet) (spans : List Span) : Prop where
  /-- A line is in the set when some span covers it. -/
  contains_iff : ∀ index, set.contains index = true ↔
    ∃ s ∈ spans, s.first ≤ index ∧ index ≤ s.last
  /-- The size is the number of lines that are covered. -/
  size_eq : set.size = (coveredLines spans).card
  /-- The set is empty when there is no span. -/
  isEmpty_iff : set.isEmpty = true ↔ spans = []
  /-- Of a list there stay the elements at the places that no span covers, in their order. -/
  remove_eq : ∀ {α : Type} (items : List α), set.remove items =
    (items.zipIdx.filter fun entry => !spans.any (·.covers entry.2)).map Prod.fst
  /-- A list gets shorter by the places in it that are covered. -/
  length_remove_add : ∀ {α : Type} (items : List α),
    (set.remove items).length + {index ∈ coveredLines spans | index < items.length}.card =
      items.length

theorem insertSpan_ne_nil (s : Span) (runs : List Span) : insertSpan s runs ≠ [] := by
  induction runs generalizing s with
  | nil => exact List.cons_ne_nil s []
  | cons r rest ih =>
    rw [insertSpan]
    split
    · exact List.cons_ne_nil _ _
    · split
      · exact List.cons_ne_nil _ _
      · exact ih (s.hull r)

theorem ofSpans_append (spans others : List Span) :
    ofSpans (spans ++ others) = others.foldl mark (ofSpans spans) :=
  List.foldl_append

/-- No span is empty, so only the set of no spans is. -/
theorem isEmpty_ofSpans_iff (spans : List Span) :
    (ofSpans spans).isEmpty = true ↔ spans = [] := by
  rw [isEmpty, List.isEmpty_iff]
  constructor
  · intro empty_runs
    by_contra some_span
    obtain ⟨earlier, last, rfl⟩ := List.eq_nil_or_concat' spans |>.resolve_left some_span
    rw [ofSpans_append] at empty_runs
    exact insertSpan_ne_nil last _ empty_runs
  · rintro rfl
    rfl

/-- **The set of some spans answers by them.** -/
theorem answers_ofSpans (spans : List Span) : (ofSpans spans).Answers spans where
  contains_iff index := by
    simp only [contains_ofSpans, List.any_eq_true, Span.covers_iff]
  size_eq := size_ofSpans spans
  isEmpty_iff := isEmpty_ofSpans_iff spans
  remove_eq items := by
    rw [remove_eq_keepUnless, keepUnless_eq_filter_zipIdx]
    simp only [contains_ofSpans]
  length_remove_add items := by
    have marked : {index ∈ coveredLines spans | index < items.length} =
        {index ∈ Finset.range items.length | (ofSpans spans).contains index = true} := by
      ext index
      rw [Finset.mem_filter, Finset.mem_filter, Finset.mem_range, mem_coveredLines,
        contains_ofSpans, and_comm]
    rw [marked, remove_eq_keepUnless]
    exact length_keepUnless_add_card _ items

/-! ## Deeds with a set -/

/-- Something that is done with a set of marked lines. -/
inductive Deed (α : Type) where
  /-- The lines between two indices are marked. -/
  | mark (first last : Nat)
  /-- The set is made anew from the lines between pairs of indices. -/
  | collect (ends : List (Nat × Nat))
  /-- The elements at marked places are taken out of a list. -/
  | remove (items : List α)

/-- The set after a deed, and what a removal leaves of its list. -/
def perform (set : LineSet) : Deed α → LineSet × Option (List α)
  | .mark first last => (set.mark (.between first last), none)
  | .collect ends => (ofSpans (ends.map fun e => .between e.1 e.2), none)
  | .remove items => (set, some (set.remove items))

/-- The set after some deeds, one after the other. -/
def after (set : LineSet) (deeds : List (Deed α)) : LineSet :=
  deeds.foldl (fun set deed => (set.perform deed).1) set

/-- The spans that are marked after a deed, when some were before. -/
def Deed.spans (marked : List Span) : Deed α → List Span
  | .mark first last => marked ++ [.between first last]
  | .collect ends => ends.map fun e => .between e.1 e.2
  | .remove _ => marked

/-- The spans that are marked after some deeds, when none were before: those since the last
collection. -/
def spansAfter (deeds : List (Deed α)) : List Span :=
  deeds.foldl Deed.spans []

/-- **A deed with the set of some spans makes the set of the spans that are marked then.** -/
theorem perform_ofSpans (marked : List Span) (deed : Deed α) :
    ((ofSpans marked).perform deed).1 = ofSpans (deed.spans marked) := by
  cases deed with
  | mark first last => exact (ofSpans_append marked [.between first last]).symm
  | collect ends => rfl
  | remove items => rfl

/-- After any deeds the set is the one of the spans that are marked then. -/
theorem after_eq_ofSpans (deeds : List (Deed α)) :
    empty.after deeds = ofSpans (spansAfter deeds) := by
  have run : ∀ marked,
      (ofSpans marked).after deeds = ofSpans (deeds.foldl Deed.spans marked) := by
    induction deeds with
    | nil => exact fun _ => rfl
    | cons deed rest ih =>
      intro marked
      rw [List.foldl_cons, ← ih, ← perform_ofSpans]
      rfl
  exact run []

/-- What a set leaves of a list only depends on the marks in the list. -/
theorem remove_congr {set other : LineSet} {items : List α}
    (same : ∀ index < items.length, set.contains index = other.contains index) :
    set.remove items = other.remove items := by
  rw [remove_eq_keepUnless, remove_eq_keepUnless]
  exact keepUnless_congr fun index _ inside => same index (by omega)

/-- A set is empty when no line is in it. -/
theorem Answers.isEmpty_iff_free {set : LineSet} {spans : List Span} (answers : set.Answers spans) :
    set.isEmpty = true ↔ ∀ index, set.contains index = false := by
  rw [answers.isEmpty_iff]
  constructor
  · rintro rfl index
    rw [← Bool.not_eq_true, answers.contains_iff]
    simp
  · intro free
    refine List.eq_nil_iff_forall_not_mem.2 fun s mem => ?_
    have covered := (answers.contains_iff s.first).2 ⟨s, mem, Nat.le_refl _, s.first_le_last⟩
    rw [free] at covered
    exact Bool.false_ne_true covered

/-- Sets with the same lines give the same answers, whatever spans made them. -/
theorem Answers.congr {set other : LineSet} {spans others : List Span}
    (answers : set.Answers spans) (answers' : other.Answers others)
    (same : ∀ index, set.contains index = other.contains index) :
    set.size = other.size ∧ set.isEmpty = other.isEmpty := by
  constructor
  · rw [answers.size_eq, answers'.size_eq]
    congr 1
    ext index
    rw [mem_coveredLines, mem_coveredLines, List.any_eq_true, List.any_eq_true]
    simp only [Span.covers_iff]
    rw [← answers.contains_iff, ← answers'.contains_iff, same]
  · rw [Bool.eq_iff_iff, answers.isEmpty_iff_free, answers'.isEmpty_iff_free]
    simp only [same]

/-- **After any deeds a set answers by the spans that are marked.**  A removal leaves of its list
the elements at the places that no span covers, and the set as it was.  What is left of a list only
depends on the marks in the list, and the size and whether the set is empty only on which lines are
marked: not on the order of the deeds, nor on spans that repeat or overlap. -/
theorem answers_after (deeds : List (Deed α)) :
    let set := empty.after deeds
    let spans := spansAfter deeds
    set.Answers spans ∧
    (∀ items : List α, set.perform (.remove items) = (set,
      some ((items.zipIdx.filter fun entry => !spans.any (·.covers entry.2)).map Prod.fst))) ∧
    ∀ others : List (Deed α),
      let other := empty.after others
      (∀ items : List α,
        (∀ index < items.length, set.contains index = other.contains index) →
          set.remove items = other.remove items) ∧
      ((∀ index, set.contains index = other.contains index) →
        set.size = other.size ∧ set.isEmpty = other.isEmpty) := by
  have answers (deeds : List (Deed α)) : (empty.after deeds).Answers (spansAfter deeds) := by
    rw [after_eq_ofSpans]
    exact answers_ofSpans _
  intro set spans
  refine ⟨answers deeds, fun items => ?_, fun others => ⟨fun items => remove_congr, ?_⟩⟩
  · rw [perform, (answers deeds).remove_eq]
  · exact (answers deeds).congr (answers others)

/-- Spans that overlap, one with its ends the wrong way round, and a removal and a collection
between them. -/
def overlapDeeds : List (Deed Char) :=
  [.mark 0 0, .collect [(2, 5), (4, 7)], .remove ['a', 'b', 'c', 'd'], .mark 9 3, .mark 2 2]

/-- The same lines as they would be marked in order. -/
def orderedDeeds : List (Deed Char) :=
  [.mark 2 7, .mark 9 9]

theorem answers_after_overlapDeeds :
    let set := empty.after overlapDeeds
    let other := empty.after orderedDeeds
    (∀ index, set.contains index = other.contains index) ∧
      set.size = other.size ∧ set.isEmpty = other.isEmpty ∧ set.size = 7 ∧
      set.remove ['a', 'b', 'c', 'd'] = other.remove ['a', 'b', 'c', 'd'] ∧
      set.remove ['a', 'b', 'c', 'd'] = ['a', 'b'] := by
  intro set other
  have same : ∀ index, set.contains index = other.contains index := by
    intro index
    rw [Bool.eq_iff_iff]
    simp [set, other, overlapDeeds, orderedDeeds, after, perform, ofSpans, Span.between]
    omega
  obtain ⟨_, _, alike⟩ := answers_after overlapDeeds
  obtain ⟨removals, counts⟩ := alike orderedDeeds
  exact ⟨same, (counts same).1, (counts same).2, by decide,
    removals ['a', 'b', 'c', 'd'] fun index _ => same index, by decide⟩

end LineSet

end MediaSweep
