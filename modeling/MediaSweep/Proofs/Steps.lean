/-!
# Computations of several steps

What a computation that can fail has gone through when it succeeded or was refused, for two steps
and for one step with each item of a list.
-/

namespace MediaSweep

set_option autoImplicit false

/-! ## Two steps -/

section

variable {ε α β : Type} {first : Except ε α} {next : α → Except ε β}

/-- A computation in two steps succeeds only if both do. -/
theorem exists_of_bind_eq_ok {b : β} (done : first.bind next = .ok b) :
    ∃ a, first = .ok a ∧ next a = .ok b := by
  cases first with
  | error fault => cases done
  | ok a => exact ⟨a, rfl, done⟩

/-- A computation in two steps is refused at one of them. -/
theorem refused_of_bind_eq_error {fault : ε} (refused : first.bind next = .error fault) :
    first = .error fault ∨ ∃ a, first = .ok a ∧ next a = .error fault := by
  cases first with
  | error found => exact .inl (congrArg Except.error (Except.error.inj refused))
  | ok a => exact .inr ⟨a, rfl, refused⟩

end

/-! ## One step for each item -/

/-- What succeeds for each item of a list succeeds for the list. -/
theorem mapM_eq_pure {m : Type → Type} [Monad m] [LawfulMonad m] {α β : Type} {step : α → m β}
    {result : α → β} {items : List α} (each : ∀ a ∈ items, step a = pure (result a)) :
    items.mapM step = pure (items.map result) := by
  induction items with
  | nil => rw [List.mapM_nil, List.map_nil]
  | cons a rest ih =>
    obtain ⟨here, each⟩ := List.forall_mem_cons.1 each
    rw [List.mapM_cons, here, pure_bind, ih each, pure_bind, List.map_cons]

/-- What succeeded for a list succeeded for each of its items, and everything that came out came out
for one of them. -/
theorem each_of_mapM_eq_ok {ε α β : Type} {step : α → Except ε β} {items : List α}
    {results : List β} (done : items.mapM step = .ok results) :
    (∀ a ∈ items, ∃ b, step a = .ok b) ∧ ∀ b ∈ results, ∃ a ∈ items, step a = .ok b := by
  induction items generalizing results with
  | nil =>
    cases done
    exact ⟨by simp, by simp⟩
  | cons a rest ih =>
    rw [List.mapM_cons] at done
    obtain ⟨b, here, done⟩ := exists_of_bind_eq_ok done
    obtain ⟨others, later, done⟩ := exists_of_bind_eq_ok done
    cases done
    obtain ⟨inputs, outputs⟩ := ih later
    refine ⟨List.forall_mem_cons.2 ⟨⟨b, here⟩, inputs⟩, List.forall_mem_cons.2 ⟨?_, ?_⟩⟩
    · exact ⟨a, List.mem_cons_self, here⟩
    · intro other mem
      obtain ⟨source, held, read⟩ := outputs other mem
      exact ⟨source, List.mem_cons_of_mem a held, read⟩

end MediaSweep
