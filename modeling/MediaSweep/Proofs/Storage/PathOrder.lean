import Mathlib.Data.List.Sort
import MediaSweep.Proofs.Storage.Selection

/-!
# The order of paths

Paths are ordered by their parts, from the left, and so two paths that say the same differ in their
texts but have one place in the order.  The order of parts is strict, and of two different parts one
comes before the other; both carry over to lists of parts (`partsBefore_trans`,
`partsBefore_or`) and with them to paths.

Bringing paths into their order leaves them strictly increasing (`pairwise_orderPaths`) and drops
none that does not have the same path before it (`exists_same_of_mem`).  What is left is known by
the parts that occur (`map_parts_eq`).
-/

namespace MediaSweep

set_option autoImplicit false

/-! ## Parts -/

namespace PathPart

theorem before_name {a b : String} : (name a).before (name b) = true ↔ a < b :=
  decide_eq_true_iff

theorem before_irrefl (a : PathPart) : a.before a = false := by
  cases a with
  | name text => exact decide_eq_false (String.lt_irrefl text)
  | _ => rfl

theorem before_trans {a b c : PathPart} (first : a.before b = true) (second : b.before c = true) :
    a.before c = true := by
  cases a <;> cases b <;> cases c <;> first | rfl | contradiction | skip
  case name.name.name =>
    exact before_name.2 (String.lt_trans (before_name.1 first) (before_name.1 second))

/-- Of two different parts one comes first. -/
theorem before_or {a b : PathPart} (differ : a ≠ b) : a.before b = true ∨ b.before a = true := by
  cases a <;> cases b <;> first | exact .inl rfl | exact .inr rfl | exact absurd rfl differ | skip
  case name.name text other =>
    rw [before_name, before_name]
    rcases Std.lt_trichotomy text other with first | same | second
    · exact .inl first
    · exact absurd (congrArg name same) differ
    · exact .inr second

end PathPart

namespace Path

variable {a b : PathPart} {as bs cs : List PathPart}

theorem partsBefore_cons :
    partsBefore (a :: as) (b :: bs) = true ↔
      a.before b = true ∨ a = b ∧ partsBefore as bs = true := by
  simp [partsBefore]

theorem partsBefore_irrefl (as : List PathPart) : partsBefore as as = false := by
  induction as with
  | nil => rfl
  | cons a as ih => simp [partsBefore, ih, a.before_irrefl]

theorem partsBefore_trans (first : partsBefore as bs = true) (second : partsBefore bs cs = true) :
    partsBefore as cs = true := by
  induction as generalizing bs cs with
  | nil =>
    cases cs with
    | nil => simp [partsBefore] at second
    | cons c cs => rfl
  | cons a as ih =>
    cases bs with
    | nil => simp [partsBefore] at first
    | cons b bs =>
      cases cs with
      | nil => simp [partsBefore] at second
      | cons c cs =>
        rw [partsBefore_cons] at first second ⊢
        rcases first with first | ⟨rfl, first⟩
        · rcases second with second | ⟨rfl, second⟩
          · exact .inl (PathPart.before_trans first second)
          · exact .inl first
        · rcases second with second | ⟨rfl, second⟩
          · exact .inl second
          · exact .inr ⟨rfl, ih first second⟩

/-- Of two different lists of parts one comes first. -/
theorem partsBefore_or (differ : as ≠ bs) :
    partsBefore as bs = true ∨ partsBefore bs as = true := by
  induction as generalizing bs with
  | nil =>
    cases bs with
    | nil => exact absurd rfl differ
    | cons b bs => exact .inl rfl
  | cons a as ih =>
    cases bs with
    | nil => exact .inr rfl
    | cons b bs =>
      simp only [partsBefore_cons]
      by_cases same : a = b
      · subst same
        rcases ih (fun same => differ (by rw [same])) with first | first
        · exact .inl (.inr ⟨rfl, first⟩)
        · exact .inr (.inr ⟨rfl, first⟩)
      · exact (PathPart.before_or same).imp .inl .inl

/-! ## Paths -/

variable {p q r : Path}

theorem same_iff : p.same q = true ↔ p.parts = q.parts :=
  decide_eq_true_iff

theorem before_irrefl (p : Path) : p.before p = false :=
  partsBefore_irrefl p.parts

theorem before_trans (first : p.before q = true) (second : q.before r = true) :
    p.before r = true :=
  partsBefore_trans first second

theorem not_before_of_before (first : p.before q = true) : q.before p = false := by
  rw [← Bool.not_eq_true]
  intro back
  have round := before_trans first back
  rw [before_irrefl] at round
  cases round

/-- A path that does not come after another one is the same or comes before it. -/
theorem before_of_not_before (behind : q.before p = false) (differ : ¬ p.same q = true) :
    p.before q = true :=
  (partsBefore_or (mt same_iff.2 differ)).resolve_right (Bool.eq_false_iff.1 behind)

/-- Not to come after a path carries over. -/
theorem not_before_trans (first : q.before p = false) (second : r.before q = false) :
    r.before p = false := by
  by_cases same : p.same q = true
  · rw [before, same_iff.1 same]
    exact second
  · rw [← Bool.not_eq_true]
    intro back
    have forth := before_trans back (before_of_not_before first same)
    rw [second] at forth
    cases forth

end Path

/-! ## Paths in their order -/

open MediaSweep.Path

theorem pairwise_dropRepeats {paths : List Path}
    (sorted : paths.Pairwise fun p q => q.before p = false) :
    (dropRepeats paths).Pairwise fun p q => p.before q = true := by
  fun_induction dropRepeats paths with
  | case1 => exact .nil
  | case2 p => exact .cons (by simp) .nil
  | case3 p q rest same ih =>
    exact ih (sorted.sublist (.cons_cons p (.cons q (.refl rest))))
  | case4 p q rest differ ih =>
    obtain ⟨first, others⟩ := List.pairwise_cons.1 sorted
    have next : p.before q = true := before_of_not_before (first q List.mem_cons_self) differ
    refine .cons (fun r mem => ?_) (ih others)
    rcases List.mem_cons.1 (mem_of_mem_dropRepeats mem) with rfl | behind
    · exact next
    · -- what comes behind the second one does not come before it
      have later := (List.pairwise_cons.1 others).1 r behind
      by_cases same : q.same r = true
      · rwa [before, ← same_iff.1 same]
      · exact before_trans next (before_of_not_before later same)

theorem exists_same_of_mem_dropRepeats {paths : List Path} {path : Path} (mem : path ∈ paths) :
    ∃ kept ∈ dropRepeats paths, kept.same path = true := by
  fun_induction dropRepeats paths generalizing path with
  | case1 => cases mem
  | case2 p => exact ⟨path, mem, same_iff.2 rfl⟩
  | case3 p q rest same ih =>
    rw [List.mem_cons, List.mem_cons] at mem
    rcases mem with first | second | behind
    · exact ih (List.mem_cons.2 (.inl first))
    · obtain ⟨kept, found, alike⟩ := ih List.mem_cons_self
      rw [second]
      exact ⟨kept, found, same_iff.2 ((same_iff.1 alike).trans (same_iff.1 same))⟩
    · exact ih (List.mem_cons_of_mem _ behind)
  | case4 p q rest differ ih =>
    rcases List.mem_cons.1 mem with rfl | mem
    · exact ⟨path, List.mem_cons_self, same_iff.2 rfl⟩
    · obtain ⟨kept, found, alike⟩ := ih mem
      exact ⟨kept, List.mem_cons_of_mem _ found, alike⟩

/-- **Ordered paths strictly increase**, so no two of them are the same. -/
theorem pairwise_orderPaths (paths : List Path) :
    (orderPaths paths).Pairwise fun p q => p.before q = true := by
  have transitive : ∀ p q r : Path, (!q.before p) = true → (!r.before q) = true →
      (!r.before p) = true := by
    intro p q r first second
    rw [Bool.not_eq_true'] at first second ⊢
    exact not_before_trans first second
  have total : ∀ p q : Path, (!q.before p || !p.before q) = true := by
    intro p q
    cases back : q.before p with
    | false => rfl
    | true =>
      rw [not_before_of_before back]
      rfl
  have sorted := List.pairwise_mergeSort transitive total paths
  exact pairwise_dropRepeats (sorted.imp fun first => by simpa using first)

/-- **Each path is there or one that is the same.** -/
theorem exists_same_of_mem {paths : List Path} {path : Path} (mem : path ∈ paths) :
    ∃ kept ∈ orderPaths paths, kept.same path = true :=
  exists_same_of_mem_dropRepeats (List.mem_mergeSort.2 mem)

/-- **Strictly increasing paths are known by the parts that occur.** -/
theorem map_parts_eq {files others : List Path}
    (increasing : files.Pairwise fun p q => p.before q = true)
    (increasing' : others.Pairwise fun p q => p.before q = true)
    (there : ∀ p ∈ files, ∃ q ∈ others, q.same p = true)
    (back : ∀ q ∈ others, ∃ p ∈ files, p.same q = true) :
    files.map parts = others.map parts := by
  have : Std.Irrefl fun as bs : List PathPart => partsBefore as bs = true :=
    ⟨fun as first => by simp [partsBefore_irrefl] at first⟩
  have : Std.Antisymm fun as bs : List PathPart => partsBefore as bs = true :=
    ⟨fun as bs first second => by
      simpa [partsBefore_irrefl] using partsBefore_trans first second⟩
  refine List.Pairwise.eq_of_mem_iff (r := fun as bs => partsBefore as bs = true)
    (List.pairwise_map.2 increasing) (List.pairwise_map.2 increasing') fun as => ?_
  constructor
  · intro mem
    obtain ⟨p, found, rfl⟩ := List.mem_map.1 mem
    obtain ⟨q, other, alike⟩ := there p found
    exact List.mem_map.2 ⟨q, other, same_iff.1 alike⟩
  · intro mem
    obtain ⟨q, found, rfl⟩ := List.mem_map.1 mem
    obtain ⟨p, other, alike⟩ := back q found
    exact List.mem_map.2 ⟨p, other, same_iff.1 alike⟩

end MediaSweep
