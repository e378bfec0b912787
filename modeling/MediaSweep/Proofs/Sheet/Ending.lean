import Mathlib.Data.Int.Basic
import Mathlib.Order.Bounds.Basic
import MediaSweep.Sheet.Braces

/-!
# Where a block can end

Two notions of an end are in use, and both are about the depths of the sheet alone.

A block that starts at some line is *over* at a later one (`OverAt`) when the depth after that line
is below the depth before the block, or is back at it and a brace was opened on the way.  It is
*closed* at a line (`ClosesAt`) when that line closes a brace and the depth after it is exactly the
depth before the block.

A line that closes a block also ends it (`ClosesAt.overAt`).  The converse fails for a line that
closes more than the block, and only for such a line: the first line at which a block is over closes
it as soon as the depth is right (`closesAt_of_overAt`).
-/

namespace MediaSweep

set_option autoImplicit false

variable {lines : List String}

/-- Where the rest of a sheet starts with a line, that is the line of its index. -/
theorem getElem?_of_drop_eq_cons {index : Nat} {line : String} {rest : List String}
    (ahead : lines.drop index = line :: rest) :
    lines[index]? = some line ∧ lines.drop (index + 1) = rest := by
  constructor
  · rw [← List.head?_drop, ahead]
    rfl
  · rw [← List.tail_drop, ahead]
    rfl

/-! ## Depths -/

/-- The depth of the place before the line of an index. -/
def depthAt (lines : List String) (index : Nat) : Int :=
  depthAfter (lines.take index)

@[simp]
theorem depthAt_zero (lines : List String) : depthAt lines 0 = 0 := rfl

theorem depthAt_succ {index : Nat} {line : String} (found : lines[index]? = some line) :
    depthAt lines (index + 1) = depthAt lines index + lineDelta line := by
  simp [depthAt, List.take_add_one, found]

/-- Some line from one index up to another, the last one left out, opens a brace. -/
def OpensBetween (lines : List String) (first stop : Nat) : Prop :=
  ∃ index line, first ≤ index ∧ index < stop ∧ lines[index]? = some line ∧
    openBrace ∈ line.toList

theorem not_opensBetween_self (first : Nat) : ¬ OpensBetween lines first first := by
  rintro ⟨index, _, low, high, _⟩
  omega

theorem opensBetween_succ {first stop : Nat} {line : String} (ordered : first ≤ stop)
    (found : lines[stop]? = some line) :
    OpensBetween lines first (stop + 1) ↔
      OpensBetween lines first stop ∨ openBrace ∈ line.toList := by
  constructor
  · rintro ⟨index, other, low, high, there, opens⟩
    rcases Nat.lt_succ_iff_lt_or_eq.1 high with before | rfl
    · exact .inl ⟨index, other, low, before, there, opens⟩
    · rw [found, Option.some_inj] at there
      exact .inr (there ▸ opens)
  · rintro (⟨index, other, low, high, there, opens⟩ | opens)
    · exact ⟨index, other, low, by omega, there, opens⟩
    · exact ⟨stop, line, ordered, by omega, found, opens⟩

/-- Where no line opens a brace, the depth does not grow. -/
theorem depthAt_le_of_not_opensBetween {first stop : Nat} (ordered : first ≤ stop)
    (within : stop ≤ lines.length) (unopened : ¬ OpensBetween lines first stop) :
    depthAt lines stop ≤ depthAt lines first := by
  induction stop, ordered using Nat.le_induction with
  | base => exact le_refl _
  | succ stop ordered ih =>
    have found : lines[stop]? = some lines[stop] := List.getElem?_eq_getElem within
    rw [opensBetween_succ ordered found, not_or] at unopened
    have step := depthAt_succ found
    have := ih (by omega) unopened.1
    have := lineDelta_nonpos unopened.2
    omega

/-- Where no line changes the depth, it stays. -/
theorem depthAt_eq_of_flat {start stop : Nat} (ordered : start ≤ stop)
    (within : stop ≤ lines.length)
    (flat : ∀ index line, start ≤ index → index < stop → lines[index]? = some line →
      lineDelta line = 0) : depthAt lines stop = depthAt lines start := by
  induction stop, ordered using Nat.le_induction with
  | base => rfl
  | succ stop ordered ih =>
    have found : lines[stop]? = some lines[stop] := List.getElem?_eq_getElem within
    rw [depthAt_succ found, flat stop _ ordered (Nat.lt_succ_self stop) found, Int.add_zero,
      ih (by omega) fun index line low high => flat index line low (by omega)]

/-! ## Over and closed -/

/-- A block that starts with the line `first` is over after the line `last`: the depth is below the
one before the block, or back at it after a brace was opened. -/
def OverAt (lines : List String) (first last : Nat) : Prop :=
  first ≤ last ∧ last < lines.length ∧
    (depthAt lines (last + 1) < depthAt lines first ∨
      OpensBetween lines first (last + 1) ∧ depthAt lines (last + 1) ≤ depthAt lines first)

/-- The line `last` closes a block that starts with the line `first`: it closes a brace, and the
depth after it is the one before the block. -/
def ClosesAt (lines : List String) (first last : Nat) : Prop :=
  first ≤ last ∧ (∃ line, lines[last]? = some line ∧ closeBrace ∈ line.toList) ∧
    depthAt lines (last + 1) = depthAt lines first

theorem depthAt_le_of_overAt {first last : Nat} (ended : OverAt lines first last) :
    depthAt lines (last + 1) ≤ depthAt lines first := by
  rcases ended.2.2 with below | ⟨_, level⟩
  · exact below.le
  · exact level

/-- Before a block is over, the depth is not below the one before it. -/
theorem le_depthAt_of_not_overAt {first last : Nat} (ordered : first ≤ last)
    (within : last < lines.length) (running : ¬ OverAt lines first last) :
    depthAt lines first ≤ depthAt lines (last + 1) := by
  by_contra below
  exact running ⟨ordered, within, .inl (by omega)⟩

/-- **A line that closes a block ends it.**  Without an opening brace on the way, the closing one
would have led below the depth before the block. -/
theorem ClosesAt.overAt {first last : Nat} (closes : ClosesAt lines first last) :
    OverAt lines first last := by
  obtain ⟨ordered, ⟨line, found, close⟩, level⟩ := closes
  have within : last < lines.length := (List.getElem?_eq_some_iff.1 found).1
  refine ⟨ordered, within, .inr ⟨?_, level.le⟩⟩
  rw [opensBetween_succ ordered found]
  by_contra unopened
  rw [not_or] at unopened
  have before := depthAt_le_of_not_opensBetween ordered within.le unopened.1
  have drop := lineDelta_neg unopened.2 close
  have step := depthAt_succ found
  omega

/-- Up to the first line at which a block is over, no brace is opened or the depth is above the one
before the block. -/
theorem opensBetween_imp_lt_of_running {first stop : Nat} (within : stop ≤ lines.length)
    (running : ∀ last < stop, ¬ OverAt lines first last)
    (opens : OpensBetween lines first stop) : depthAt lines first < depthAt lines stop := by
  obtain ⟨index, _, low, high, _⟩ := id opens
  obtain ⟨last, rfl⟩ : ∃ last, stop = last + 1 := ⟨stop - 1, by omega⟩
  by_contra level
  exact running last (by omega) ⟨by omega, by omega, .inr ⟨opens, by omega⟩⟩

/-- The depth stays at least at the one before a block until the block is over. -/
theorem le_depthAt_of_running {first stop : Nat} (ordered : first ≤ stop)
    (within : stop ≤ lines.length) (running : ∀ last < stop, ¬ OverAt lines first last) :
    depthAt lines first ≤ depthAt lines stop := by
  rcases Nat.eq_or_lt_of_le ordered with rfl | later
  · exact le_refl _
  · obtain ⟨last, rfl⟩ : ∃ last, stop = last + 1 := ⟨stop - 1, by omega⟩
    exact le_depthAt_of_not_overAt (by omega) (by omega) (running last (by omega))

/-- **The first line at which a block is over closes it, when the depth is right.** -/
theorem closesAt_of_overAt {first last : Nat} (ended : OverAt lines first last)
    (running : ∀ earlier < last, ¬ OverAt lines first earlier)
    (level : depthAt lines (last + 1) = depthAt lines first) : ClosesAt lines first last := by
  obtain ⟨ordered, within, below | ⟨opens, _⟩⟩ := ended
  · omega
  · have found : lines[last]? = some lines[last] := List.getElem?_eq_getElem within
    refine ⟨ordered, ⟨_, found, ?_⟩, level⟩
    by_contra unclosed
    have step := depthAt_succ found
    have rise := lineDelta_nonneg unclosed
    have floor := le_depthAt_of_running ordered within.le running
    rcases (opensBetween_succ ordered found).1 opens with before | here
    · have := opensBetween_imp_lt_of_running within.le running before
      omega
    · have := lineDelta_pos here unclosed
      omega

end MediaSweep
