import MediaSweep.Sheet.Span

/-!
# Sets of lines marked for removal

Spans may be marked in any order, repeat and overlap; what counts in the end is which line
indices some span covers.  A set of lines keeps that in a normal form: runs that do not meet, from
the last to the first.  Marking a span merges it with the runs it meets, so the size of the set is
the sum of the sizes of its runs and no line is counted or removed twice.

The main statements are `contains_mark`, which says what marking adds, and the invariant
`separated`, part of the type.
-/

namespace MediaSweep

set_option autoImplicit false

/-- Put a span among separated runs, merging it with the runs it meets. -/
def insertSpan (s : Span) : List Span → List Span
  | [] => [s]
  | r :: rest =>
    if r.last < s.first then s :: r :: rest
    else if s.last < r.first then r :: insertSpan s rest
    else insertSpan (s.hull r) rest

/-- The first run ends before the second one starts. -/
def Span.Before (earlier later : Span) : Prop :=
  earlier.last < later.first

theorem last_lt_of_mem_insertSpan {bound : Nat} {s : Span} {runs : List Span}
    (below : s.last < bound) (allBelow : ∀ r ∈ runs, r.last < bound) :
    ∀ r ∈ insertSpan s runs, r.last < bound := by
  induction runs generalizing s with
  | nil =>
    intro r hr
    simp only [insertSpan, List.mem_singleton] at hr
    exact hr ▸ below
  | cons r rest ih =>
    have restBelow : ∀ q ∈ rest, q.last < bound := fun q hq => allBelow q (List.mem_cons_of_mem r hq)
    have rBelow := allBelow r List.mem_cons_self
    rw [insertSpan]
    split
    · intro q hq
      rcases List.mem_cons.1 hq with rfl | hq
      · exact below
      · exact allBelow q hq
    · split
      · intro q hq
        rcases List.mem_cons.1 hq with rfl | hq
        · exact rBelow
        · exact ih below restBelow q hq
      · exact ih (by simp only [Span.hull]; omega) restBelow

theorem separated_insertSpan {s : Span} {runs : List Span}
    (separated : runs.Pairwise fun later earlier => earlier.Before later) :
    (insertSpan s runs).Pairwise fun later earlier => earlier.Before later := by
  induction runs generalizing s with
  | nil => simp [insertSpan]
  | cons r rest ih =>
    obtain ⟨hr, hrest⟩ := List.pairwise_cons.1 separated
    rw [insertSpan]
    split
    · rename_i hlt
      refine List.pairwise_cons.2 ⟨?_, separated⟩
      intro q hq
      rcases List.mem_cons.1 hq with rfl | hq
      · exact hlt
      · have := hr q hq
        have := r.first_le_last
        simp only [Span.Before] at *
        omega
    · split
      · rename_i hlt
        refine List.pairwise_cons.2 ⟨?_, ih hrest⟩
        exact last_lt_of_mem_insertSpan hlt hr
      · exact ih hrest

theorem any_covers_insertSpan (s : Span) (runs : List Span) (index : Nat) :
    (insertSpan s runs).any (·.covers index) = (s.covers index || runs.any (·.covers index)) := by
  induction runs generalizing s with
  | nil => simp [insertSpan]
  | cons r rest ih =>
    rw [insertSpan]
    split
    · simp
    · split
      · simp only [List.any_cons, ih]
        cases r.covers index <;> cases s.covers index <;> rfl
      · rename_i h₁ h₂
        rw [ih, List.any_cons, ← Bool.or_assoc]
        congr 1
        have := s.first_le_last
        have := r.first_le_last
        rw [Bool.eq_iff_iff, Bool.or_eq_true]
        simp only [Span.covers_iff, Span.hull]
        omega

/-- The lines marked for removal: runs that do not meet, from the last to the first. -/
structure LineSet where
  runs : List Span
  separated : runs.Pairwise fun later earlier => earlier.Before later

namespace LineSet

/-- No line is marked. -/
def empty : LineSet :=
  ⟨[], .nil⟩

/-- Mark every line of a span. -/
def mark (set : LineSet) (s : Span) : LineSet :=
  ⟨insertSpan s set.runs, separated_insertSpan set.separated⟩

/-- Mark the lines of some spans, one span after the other. -/
def ofSpans (spans : List Span) : LineSet :=
  spans.foldl mark empty

/-- Whether the line of this index is marked. -/
def contains (set : LineSet) (index : Nat) : Bool :=
  set.runs.any (·.covers index)

/-- The number of marked lines. -/
def size (set : LineSet) : Nat :=
  (set.runs.map Span.size).foldr (· + ·) 0

/-- Whether no line is marked. -/
def isEmpty (set : LineSet) : Bool :=
  set.runs.isEmpty

/-- What is left of a list whose first element has the given index, without the elements in the
given runs, which come from the first to the last. -/
def keepFrom {α : Type} (index : Nat) : List Span → List α → List α
  | [], items => items
  | r :: rest, items =>
    items.take (r.first - index) ++ keepFrom (r.last + 1) rest (items.drop (r.last + 1 - index))

/-- The elements at the indices that are not marked, in their order. -/
def remove {α : Type} (set : LineSet) (items : List α) : List α :=
  keepFrom 0 set.runs.reverse items

@[simp]
theorem contains_empty (index : Nat) : empty.contains index = false := rfl

/-- Marking a span adds the lines that it covers and no other. -/
@[simp]
theorem contains_mark (set : LineSet) (s : Span) (index : Nat) :
    (set.mark s).contains index = (s.covers index || set.contains index) :=
  any_covers_insertSpan s set.runs index

end LineSet

end MediaSweep
