import Mathlib.Data.Int.Basic
import Mathlib.Data.List.Infix
import Mathlib.Order.Nat
import MediaSweep.Sheet.Braces

/-!
# Braces that match

Here braces are matched character by character.  A text is balanced when no part from its start
closes more braces than it opens and the whole closes as many as it opens.  An opening brace matches
the closing one that has balanced text between them.

The depth before a place is the change that the braces before it make.  Two braces match when the
depth between them stays above the one before them and the closing brace leads back to it
(`matching_iff_depthBefore`).  So in a balanced text every opening brace matches exactly one closing
brace (`Balanced.exists_matching`, `Matching.unique`), and where the depth falls below that of an
earlier place, a brace is closed whose partner stands before that place (`exists_matching_of_dip`).
-/

namespace MediaSweep

set_option autoImplicit false

variable {cs : List Char} {place : Nat}

/-! ## Balanced texts -/

/-- No part from the start closes more braces than it opens, and the whole closes them all. -/
def Balanced (cs : List Char) : Prop :=
  (∀ start, start <+: cs → start.count closeBrace ≤ start.count openBrace) ∧
    cs.count openBrace = cs.count closeBrace

/-- A text starts in finitely many ways. -/
instance (cs : List Char) : Decidable (Balanced cs) :=
  decidable_of_iff
    ((∀ start ∈ cs.inits, start.count closeBrace ≤ start.count openBrace) ∧
      cs.count openBrace = cs.count closeBrace)
    (by simp only [Balanced, List.mem_inits])

theorem balanced_iff_delta :
    Balanced cs ↔ (∀ start, start <+: cs → 0 ≤ (BraceTally.ofChars start).delta) ∧
      (BraceTally.ofChars cs).delta = 0 := by
  simp only [Balanced, BraceTally.ofChars, BraceTally.delta, Int.sub_nonneg, Int.sub_eq_zero,
    Int.ofNat_le, Int.ofNat_inj]

/-- The depth before a place of a text. -/
def depthBefore (cs : List Char) (place : Nat) : Int :=
  (BraceTally.ofChars (cs.take place)).delta

theorem Balanced.depthBefore_nonneg (balanced : Balanced cs) (place : Nat) :
    0 ≤ depthBefore cs place :=
  (balanced_iff_delta.1 balanced).1 _ (List.take_prefix place cs)

theorem Balanced.depthBefore_length (balanced : Balanced cs) : depthBefore cs cs.length = 0 := by
  rw [depthBefore, List.take_length]
  exact (balanced_iff_delta.1 balanced).2

theorem depthBefore_succ {c : Char} (found : cs[place]? = some c) :
    depthBefore cs (place + 1) = depthBefore cs place + (BraceTally.ofChars [c]).delta := by
  rw [depthBefore, List.take_add_one, found, BraceTally.delta_ofChars_append]
  rfl

/-- Between two places the depth changes by the braces between them. -/
theorem depthBefore_eq_add (cs : List Char) {place later : Nat} (ordered : place ≤ later) :
    depthBefore cs later =
      depthBefore cs place + (BraceTally.ofChars ((cs.take later).drop place)).delta := by
  have split := List.take_append_drop place (cs.take later)
  rw [List.take_take, Nat.min_eq_left ordered] at split
  rw [depthBefore, depthBefore, ← BraceTally.delta_ofChars_append, split]

/-! ## Single braces -/

/-- Whether a character is a brace. -/
def isBrace (c : Char) : Bool :=
  c = openBrace || c = closeBrace

@[simp]
theorem delta_openBrace : (BraceTally.ofChars [openBrace]).delta = 1 := by decide

@[simp]
theorem delta_closeBrace : (BraceTally.ofChars [closeBrace]).delta = -1 := by decide

theorem delta_eq_zero {c : Char} (other : isBrace c = false) :
    (BraceTally.ofChars [c]).delta = 0 := by
  simp only [isBrace, Bool.or_eq_false_iff, decide_eq_false_iff_not] at other
  simp [BraceTally.ofChars, BraceTally.delta, other.1, other.2]

/-- From one place to the next the depth rises by an opening brace, falls by a closing one, or
stays. -/
theorem depthBefore_succ_cases (cs : List Char) (place : Nat) :
    (cs[place]? = some openBrace ∧ depthBefore cs (place + 1) = depthBefore cs place + 1) ∨
      (cs[place]? = some closeBrace ∧ depthBefore cs (place + 1) = depthBefore cs place - 1) ∨
      depthBefore cs (place + 1) = depthBefore cs place := by
  cases found : cs[place]? with
  | none =>
    have finished := List.getElem?_eq_none_iff.1 found
    refine .inr (.inr ?_)
    rw [depthBefore, depthBefore, List.take_of_length_le (by omega),
      List.take_of_length_le finished]
  | some c =>
    have step := depthBefore_succ found
    by_cases opens : c = openBrace
    · rw [opens, delta_openBrace] at step
      exact .inl ⟨congrArg some opens, step⟩
    by_cases close : c = closeBrace
    · rw [close, delta_closeBrace] at step
      exact .inr (.inl ⟨congrArg some close, step⟩)
    · have other : isBrace c = false := by simp [isBrace, close, opens]
      rw [delta_eq_zero other, Int.add_zero] at step
      exact .inr (.inr step)

/-- A brace stands at a place. -/
def BraceAt (cs : List Char) (place : Nat) : Prop :=
  ∃ c, cs[place]? = some c ∧ isBrace c = true

/-- Where no brace stands, the depth stays. -/
theorem depthBefore_eq_of_plain {later : Nat} (ordered : place ≤ later)
    (plain : ∀ between, place ≤ between → between < later → ¬ BraceAt cs between) :
    depthBefore cs later = depthBefore cs place := by
  induction later, ordered using Nat.le_induction with
  | base => rfl
  | succ later ordered ih =>
    have before := ih fun between low high => plain between low (by omega)
    cases found : cs[later]? with
    | none =>
      have finished : cs.length ≤ later := List.getElem?_eq_none_iff.1 found
      rw [← before, depthBefore, depthBefore, List.take_of_length_le (by omega),
        List.take_of_length_le finished]
    | some c =>
      have other : isBrace c = false := by
        rw [← Bool.not_eq_true]
        exact fun brace => plain later ordered (Nat.lt_succ_self later) ⟨c, found, brace⟩
      rw [depthBefore_succ found, delta_eq_zero other, Int.add_zero, before]

/-! ## Falls and rises -/

/-- Where the depth falls below that of an earlier place, a closing brace leads out first. -/
theorem exists_first_fall {low : Nat} (ordered : place ≤ low)
    (dip : depthBefore cs low < depthBefore cs place) :
    ∃ closing, place ≤ closing ∧ closing < low ∧ cs[closing]? = some closeBrace ∧
      depthBefore cs closing = depthBefore cs place ∧
      ∀ between, place ≤ between → between ≤ closing →
        depthBefore cs place ≤ depthBefore cs between := by
  have apart : place ≠ low := by
    rintro rfl
    exact Int.lt_irrefl _ dip
  have last_falls : depthBefore cs (low - 1 + 1) < depthBefore cs place := by
    rwa [Nat.sub_add_cancel (by omega)]
  have falls : ∃ closing, place ≤ closing ∧ depthBefore cs (closing + 1) < depthBefore cs place :=
    ⟨low - 1, by omega, last_falls⟩
  have least := Nat.isLeast_find falls
  generalize Nat.find falls = closing at least
  obtain ⟨⟨behind, fallen⟩, least⟩ := least
  have before : closing ≤ low - 1 := least ⟨by omega, last_falls⟩
  have above : ∀ between, place ≤ between → between ≤ closing →
      depthBefore cs place ≤ depthBefore cs between := by
    intro between low high
    rcases Nat.eq_or_lt_of_le low with rfl | later
    · exact Int.le_refl _
    · by_contra fallen'
      have : closing ≤ between - 1 := least ⟨by omega, by
        rw [Nat.sub_add_cancel (by omega)]
        omega⟩
      omega
  have level := above closing behind (Nat.le_refl closing)
  rcases depthBefore_succ_cases cs closing with ⟨_, rise⟩ | ⟨closes, fall⟩ | same
  · omega
  · exact ⟨closing, behind, by omega, closes, by omega, above⟩
  · omega

/-- Above the ground, a brace before the place was opened last and not closed since. -/
theorem exists_last_rise (above_ground : 0 < depthBefore cs place) :
    ∃ opening, opening < place ∧ cs[opening]? = some openBrace ∧
      depthBefore cs place = depthBefore cs opening + 1 ∧
      ∀ between, opening < between → between ≤ place →
        depthBefore cs place ≤ depthBefore cs between := by
  have lower := Nat.findGreatest_spec (P := fun opening =>
    depthBefore cs opening < depthBefore cs place) (Nat.zero_le place) above_ground
  have higher : ∀ between, Nat.findGreatest (fun opening =>
      depthBefore cs opening < depthBefore cs place) place < between →
      between ≤ place → depthBefore cs place ≤ depthBefore cs between := by
    intro between low high
    exact Int.le_of_not_gt (Nat.findGreatest_is_greatest low high)
  have before := Nat.findGreatest_le (P := fun opening =>
    depthBefore cs opening < depthBefore cs place) place
  generalize Nat.findGreatest (fun opening => depthBefore cs opening < depthBefore cs place) place
    = opening at lower higher before
  have apart : opening ≠ place := by
    rintro rfl
    exact Int.lt_irrefl _ lower
  have next := higher (opening + 1) (by omega) (by omega)
  rcases depthBefore_succ_cases cs opening with ⟨opens, rise⟩ | ⟨_, fall⟩ | same
  · exact ⟨opening, by omega, opens, by omega, higher⟩
  · omega
  · omega

/-! ## Matching braces -/

/-- The brace opened at one place is closed at another: between them the text is balanced. -/
structure Matching (cs : List Char) (opening closing : Nat) : Prop where
  opens : cs[opening]? = some openBrace
  closes : cs[closing]? = some closeBrace
  ordered : opening < closing
  between : Balanced ((cs.take closing).drop (opening + 1))

variable {opening closing : Nat}

/-- **Matching braces by depths.**  From the opening brace to the closing one the depth stays above
the one before them, and in the end it is deeper by that one brace. -/
theorem matching_iff_depthBefore :
    Matching cs opening closing ↔
      cs[opening]? = some openBrace ∧ cs[closing]? = some closeBrace ∧ opening < closing ∧
        depthBefore cs closing = depthBefore cs opening + 1 ∧
        ∀ place, opening < place → place ≤ closing →
          depthBefore cs opening + 1 ≤ depthBefore cs place := by
  constructor
  · rintro ⟨opens, closes, ordered, between⟩
    have inside := depthBefore_succ opens
    rw [delta_openBrace] at inside
    obtain ⟨nonneg, total⟩ := balanced_iff_delta.1 between
    refine ⟨opens, closes, ordered, ?_, fun place low high => ?_⟩
    · rw [depthBefore_eq_add cs (show opening + 1 ≤ closing from ordered), total, inside,
        Int.add_zero]
    · rw [depthBefore_eq_add cs (show opening + 1 ≤ place from low), inside]
      have := nonneg _ ((List.take_prefix_take_left high).drop (opening + 1))
      omega
  · rintro ⟨opens, closes, ordered, level, above⟩
    have inside := depthBefore_succ opens
    rw [delta_openBrace] at inside
    refine ⟨opens, closes, ordered, balanced_iff_delta.2 ⟨fun start ahead => ?_, ?_⟩⟩
    · -- a part from the start ends at a place that is not behind the closing brace
      rw [List.prefix_iff_eq_take.1 ahead, List.take_drop, List.take_take]
      have := depthBefore_eq_add cs
        (show opening + 1 ≤ min (opening + 1 + start.length) closing by omega)
      have := above (min (opening + 1 + start.length) closing) (by omega) (by omega)
      omega
    · have := depthBefore_eq_add cs (show opening + 1 ≤ closing from ordered)
      omega

/-- An opening brace matches one closing brace only. -/
theorem Matching.unique {other : Nat} (matching : Matching cs opening closing)
    (matching' : Matching cs opening other) : other = closing := by
  have no_later : ∀ {closing other : Nat}, Matching cs opening closing →
      Matching cs opening other → ¬ closing < other := by
    intro closing other matching matching' later
    obtain ⟨_, closes, ordered, level, _⟩ := matching_iff_depthBefore.1 matching
    have above := (matching_iff_depthBefore.1 matching').2.2.2.2 (closing + 1) (by omega) later
    rw [depthBefore_succ closes, delta_closeBrace, level] at above
    omega
  have := no_later matching matching'
  have := no_later matching' matching
  omega

/-- **In a balanced text every opening brace is closed**, where the depth first comes back. -/
theorem Balanced.exists_matching (balanced : Balanced cs) (opens : cs[opening]? = some openBrace) :
    ∃ closing, Matching cs opening closing := by
  have within : opening + 1 ≤ cs.length := (List.getElem?_eq_some_iff.1 opens).1
  have inside := depthBefore_succ opens
  rw [delta_openBrace] at inside
  have floor := balanced.depthBefore_nonneg opening
  have dip : depthBefore cs cs.length < depthBefore cs (opening + 1) := by
    rw [balanced.depthBefore_length, inside]
    omega
  obtain ⟨closing, behind, _, closes, level, above⟩ := exists_first_fall within dip
  refine ⟨closing, matching_iff_depthBefore.2 ⟨opens, closes, behind, by omega, ?_⟩⟩
  intro place low high
  rw [← inside]
  exact above place low high

/-- Behind a brace that closes what was opened before a place, the depth is below the one there. -/
theorem Matching.depthBefore_closing_lt (matching : Matching cs opening closing)
    (outside : opening < place) (inside : place ≤ closing) :
    depthBefore cs (closing + 1) < depthBefore cs place := by
  obtain ⟨_, closes, _, level, above⟩ := matching_iff_depthBefore.1 matching
  have high := above place outside inside
  rw [depthBefore_succ closes, delta_closeBrace, level]
  omega

/-- **Where the depth falls below that of an earlier place, a brace is closed that was opened before
that place.** -/
theorem exists_matching_of_dip {low : Nat} (floor : 0 ≤ depthBefore cs low) (ordered : place ≤ low)
    (dip : depthBefore cs low < depthBefore cs place) :
    ∃ opening closing, Matching cs opening closing ∧ opening < place ∧ place ≤ closing ∧
      closing < low := by
  obtain ⟨closing, behind, short, closes, level, above⟩ := exists_first_fall ordered dip
  have above_ground : 0 < depthBefore cs place := by omega
  obtain ⟨opening, before, opens, rise, higher⟩ := exists_last_rise above_ground
  refine ⟨opening, closing, matching_iff_depthBefore.2 ⟨opens, closes, by omega, by omega, ?_⟩,
    before, behind, short⟩
  intro between later earlier
  rw [← rise]
  rcases Nat.le_total between place with inFront | inside
  · exact higher between later inFront
  · exact above between inside earlier

end MediaSweep
