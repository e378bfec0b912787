/-!
# Spans of lines

A span is a run of neighbouring lines, given by the indices of its first and its last line,
counted from zero.  It is never empty and never inverted: that is part of the type, and
`Span.between` builds one from any two indices by lifting the last up to the first.  People
count lines from one, and so does the text of a span.
-/

namespace MediaSweep

set_option autoImplicit false

/-- The lines from `first` to `last`, both included. -/
structure Span where
  first : Nat
  last : Nat
  first_le_last : first ≤ last
  deriving DecidableEq, Repr

namespace Span

/-- The span from one index to another; an end before the start is lifted to it. -/
def between (first last : Nat) : Span :=
  ⟨first, max first last, Nat.le_max_left first last⟩

/-- The number of lines. -/
def size (s : Span) : Nat :=
  s.last - s.first + 1

/-- The number of the first line, counted from one. -/
def firstLine (s : Span) : Nat :=
  s.first + 1

/-- The number of the last line, counted from one. -/
def lastLine (s : Span) : Nat :=
  s.last + 1

/-- Whether the span holds the line of this index. -/
def covers (s : Span) (index : Nat) : Bool :=
  s.first ≤ index && index ≤ s.last

/-- The text of a span: its first and last line numbers with a dash between. -/
def text (s : Span) : String :=
  toString s.firstLine ++ "-" ++ toString s.lastLine

/-- The least span that holds both. -/
def hull (s t : Span) : Span :=
  ⟨min s.first t.first, max s.last t.last, by have := s.first_le_last; omega⟩

@[simp]
theorem covers_iff {s : Span} {index : Nat} :
    s.covers index = true ↔ s.first ≤ index ∧ index ≤ s.last := by
  simp [covers]

@[simp]
theorem first_between (first last : Nat) : (between first last).first = first := rfl

theorem last_between {first last : Nat} (ordered : first ≤ last) :
    (between first last).last = last := by
  simp [between, Nat.max_eq_right ordered]

/-- A span is known by its ends. -/
theorem eq_of_ends {s t : Span} (firsts : s.first = t.first) (lasts : s.last = t.last) : s = t := by
  cases s
  cases t
  simp_all

theorem size_pos (s : Span) : 0 < s.size := by
  simp [size]

end Span

end MediaSweep
