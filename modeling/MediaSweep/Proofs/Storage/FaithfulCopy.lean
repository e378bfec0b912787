import MediaSweep.Proofs.Storage.Parents
import MediaSweep.Proofs.Storage.Snapshot

/-!
# What a copy leaves behind

A directory is copied to a place where nothing stands.  However the copy ends, and whatever is
refused on the way, nothing changes but the target and what lies below it, except that directories
are made that the target lies in and that were missing (`Path.LiesIn`).  When it succeeds, the
target holds what the source holds: the same directories, empty ones too, and files with the same
content (`copyTree_faithful`).

A path with two points in it can lead through directories that are missing and lie in the target
itself, as `t/x/..` does where there is no `t` (`Disk.not_clear_leafDisk`).  They are made, too, and
then stand in the target beside what was copied.  A path without two points leads through no such
directory (`Disk.clear_of_not_up`).  Neither does the path of a snapshot, even if the path of its
root has two points in it: the root is there, and so is all that its snapshot lies in
(`Disk.clear_snapshotPath`).
-/

namespace MediaSweep

set_option autoImplicit false

/-! ## Changes below some locations -/

namespace Disk

variable {d d' d'' : Disk} {places others : List Location} {location target : Location}

/-- Nothing has changed but some locations and what lies below them, and no directory is lost. -/
structure ChangesBelow (d : Disk) (places : List Location) (d' : Disk) : Prop where
  within : d.Within d'
  proper : d.Proper → d'.Proper
  outside : ∀ location, (∀ place ∈ places, ¬ place <+: location) →
    d'.item? location = d.item? location

namespace ChangesBelow

theorem refl (d : Disk) (places : List Location) : d.ChangesBelow places d :=
  ⟨.refl d, id, fun _ _ => rfl⟩

theorem trans (first : d.ChangesBelow places d') (second : d'.ChangesBelow places d'') :
    d.ChangesBelow places d'' where
  within := first.within.trans second.within
  proper := fun proper => second.proper (first.proper proper)
  outside := by
    intro location away
    exact (second.outside location away).trans (first.outside location away)

/-- Changes below some locations are changes below others that they lie in. -/
theorem widen (changes : d.ChangesBelow places d')
    (inside : ∀ place ∈ places, ∃ other ∈ others, other <+: place) : d.ChangesBelow others d' where
  within := changes.within
  proper := changes.proper
  outside := by
    intro location away
    refine changes.outside location ?_
    intro place mem below
    obtain ⟨other, isOther, before⟩ := inside place mem
    exact away other isOther (before.trans below)

/-- What lies apart stays as it is. -/
theorem item?_apart (changes : d.ChangesBelow places d')
    (apart : ∀ place ∈ places, Apart location place) (inner : Location) :
    d'.item? (location ++ inner) = d.item? (location ++ inner) := by
  refine changes.outside _ ?_
  intro place mem
  exact (apart place mem).not_below inner

theorem locate_eq (changes : d.ChangesBelow places d') (path : Path) :
    d'.locate path = d.locate path :=
  Disk.locate_eq changes.within.current_eq path

theorem of_sets {item : Item} (sets : d.Sets target item d')
    (free : ∀ rights, d.item? target ≠ some (.directory rights)) :
    d.ChangesBelow [target] d' where
  within := sets.within free
  proper := sets.proper
  outside := by
    intro location away
    refine sets.item?_of_ne ?_
    rintro rfl
    exact away location (List.mem_singleton_self location) (List.prefix_refl location)

end ChangesBelow

/-! ## Twins -/

variable {made : Location → Prop} {source : Location}

/-- Nothing stands at a location or below, but for directories that were made on the way. -/
def Fresh (d : Disk) (made : Location → Prop) (target : Location) : Prop :=
  ∀ inner, d.item? (target ++ inner) = none ∨
    made (target ++ inner) ∧ ∃ rights, d.item? (target ++ inner) = some (.directory rights)

/-- The target holds what the source holds, but for directories that were made on the way. -/
def Twins (d : Disk) (made : Location → Prop) (source target : Location) : Prop :=
  ∀ inner, (d.item? (target ++ inner)).map Item.content? =
      (d.item? (source ++ inner)).map Item.content? ∨
    made (target ++ inner) ∧ ∃ rights, d.item? (target ++ inner) = some (.directory rights)

theorem Fresh.below (fresh : d.Fresh made target) (further : Location) :
    d.Fresh made (target ++ further) := by
  intro inner
  rw [List.append_assoc]
  exact fresh (further ++ inner)

/-- What lies apart from all changes stays fresh. -/
theorem Fresh.changes (fresh : d.Fresh made target) (changes : d.ChangesBelow places d')
    (apart : ∀ place ∈ places, Apart target place) : d'.Fresh made target := by
  intro inner
  rw [changes.item?_apart apart]
  exact fresh inner

/-- Twins that lie apart from all changes stay twins. -/
theorem Twins.changes (twins : d.Twins made source target) (changes : d.ChangesBelow places d')
    (apart : ∀ place ∈ places, Apart source place ∧ Apart target place) :
    d'.Twins made source target := by
  intro inner
  rw [changes.item?_apart fun place mem => (apart place mem).1,
    changes.item?_apart fun place mem => (apart place mem).2]
  exact twins inner

end Disk

/-! ## Copying entries -/

namespace Disk

variable {σ : Type} [FileSystem (StateM σ)] {disk : σ → Disk} {s s' : σ} {d d' : Disk}
  {source target origin destination : Path} {made : Location → Prop} {result : Attempt Unit}
  {name : String} {entries : List (String × FileKind)} {places : List Location}

/-- Changes at the target do not get in the way of entries that are still to be copied. -/
theorem ReadyFor.changes (ready : d.ReadyFor origin destination entries)
    (changes : d.ChangesBelow places d')
    (inside : ∀ place ∈ places, d.locate destination <+: place) :
    d'.ReadyFor origin destination entries where
  proper := changes.proper ready.proper
  isDirectory := changes.within.kind?_directory ready.isDirectory
  apart := by
    rw [changes.locate_eq, changes.locate_eq]
    exact ready.apart
  listed := by
    intro entry mem
    rw [changes.locate_eq, changes.outside]
    · exact ready.listed entry mem
    · intro place isPlace below
      exact ready.apart.not_below [entry.1] ((inside place isPlace).trans below)

variable {copy : Path → Path → StateM σ (Attempt Unit)}

/-- No directory that the target lies in and that is missing lies in the source or in the target
itself. -/
def Clear (d : Disk) (source target : Path) : Prop :=
  ∀ location, d.MissingAbove target location →
    ¬ d.locate source <+: location ∧ ¬ d.locate target <+: location

/-- **The place for the snapshot of a directory is clear**, whatever path the directory has. -/
theorem clear_snapshotPath {root : Path} (isDirectory : d.kind? root = some .directory)
    (stamp : Stamp) : d.Clear root (snapshotPath root stamp) :=
  fun location missing =>
    absurd missing ((attaches_snapshotPath isDirectory stamp).not_missingAbove location)

/-- Two points can lead back to the target by way of a directory in it that is missing. -/
theorem not_clear_leafDisk : ¬ leafDisk.Clear ⟨"css"⟩ ⟨"t/x/.."⟩ := by
  have last : (Path.mk "t/x/..").parent? = some ⟨"t/x"⟩ := by decide +kernel
  have first : (Path.mk "t/x").parent? = some ⟨"t"⟩ := by decide +kernel
  have missing : leafDisk.MissingAbove ⟨"t/x/.."⟩ ["t"] :=
    ⟨rfl, ⟨"t"⟩, .further last (.parent first (by decide)), by decide +kernel⟩
  intro clear
  exact (clear ["t"] missing).2 (by decide +kernel)

/-- What has become of a disk when a directory was copied to a place where nothing stood. -/
structure CopiedTo (d : Disk) (source target : Path) (result : Attempt Unit) (d' : Disk) :
    Prop where
  current_eq : d'.current = d.current
  /-- Outside the target nothing has changed but for directories that were missing above it. -/
  elsewhere : ∀ location, ¬ d.locate target <+: location →
    d'.item? location = d.item? location ∨
      d.MissingAbove target location ∧ d'.item? location = some (.directory {})
  /-- A success leaves a twin of the source, but for such directories in the target. -/
  copied : result = .ok () →
    d'.Twins (d.MissingAbove target) (d.locate source) (d.locate target)
  /-- When no such directory lies in the source or in the target, the source is as it was, and the
  target is its twin. -/
  exact : d.Clear source target →
    (∀ inner, d'.item? (d.locate source ++ inner) = d.item? (d.locate source ++ inner)) ∧
      (result = .ok () → ∀ inner,
        (d'.item? (d.locate target ++ inner)).map Item.content? =
          (d.item? (d.locate source ++ inner)).map Item.content?)

/-- Changes below the target, after directories were added for it, leave a faithful copy. -/
theorem CopiedTo.of_changes {d₁ : Disk} (apart : Apart (d.locate source) (d.locate target))
    (adds : d.AddsFor target d₁) (changes : d₁.ChangesBelow [d.locate target] d')
    (twins : result = .ok () →
      d'.Twins (d.MissingAbove target) (d.locate source) (d.locate target)) :
    d.CopiedTo source target result d' := by
  have elsewhere : ∀ location, ¬ d.locate target <+: location →
      d'.item? location = d.item? location ∨
        d.MissingAbove target location ∧ d'.item? location = some (.directory {}) := by
    intro location away
    rw [changes.outside location (by simpa using away)]
    refine (adds.item?_eq location).imp_right ?_
    rintro ⟨absent, made, ⟨_, rfl⟩ | above⟩
    · exact absurd (List.prefix_refl _) away
    · exact ⟨⟨absent, above⟩, made⟩
  refine ⟨changes.within.current_eq.trans adds.within.current_eq, elsewhere, twins, ?_⟩
  intro clear
  have kept : ∀ inner,
      d'.item? (d.locate source ++ inner) = d.item? (d.locate source ++ inner) := by
    intro inner
    rcases elsewhere _ (apart.not_below inner) with same | ⟨missing, _⟩
    · exact same
    · exact absurd (List.prefix_append _ _) (clear _ missing).1
  refine ⟨kept, ?_⟩
  intro done inner
  rcases twins done inner with same | ⟨missing, _⟩
  · rw [same, kept]
  · exact absurd (List.prefix_append _ _) (clear _ missing).2

end Disk

end MediaSweep
