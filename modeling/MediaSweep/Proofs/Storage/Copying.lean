import MediaSweep.Proofs.Storage.Joining

/-!
# Copying directories

A directory is copied by making its target and copying entry after entry.  However that ends, the
disk has only changed at the target and below, and what is there now is what was there or a copy of
what stands at the same place below the source (`Disk.Mirrors`).  When it succeeds, everything below
the source has its copy (`Disk.Holds`).  Both need a source and a target that lie apart
(`Disk.Ready`): a directory cannot be copied into itself, because the copy holds a copy of itself and
so on (`copyTree_into_itself`).
-/

namespace MediaSweep

set_option autoImplicit false

/-! ## Running programs -/

section

variable {σ α β : Type} {s s' s'' : σ} {first : StateM σ α} {next : α → StateM σ β} {a : α} {b : β}

/-- A program in two steps runs both. -/
theorem exists_of_run_bind (ran : (first >>= next) s = (b, s'')) :
    ∃ a s', first s = (a, s') ∧ next a s' = (b, s'') :=
  ⟨(first s).1, (first s).2, rfl, ran⟩

theorem run_bind (ran : first s = (a, s')) (next : α → StateM σ β) :
    (first >>= next) s = next a s' := by
  show next (first s).1 (first s).2 = next a s'
  rw [ran]

end

/-- The content of a file. -/
def Item.content? : Item → Option ByteArray
  | file _ content => some content
  | directory _ => none

/-! ## Locations apart -/

/-- Neither of two locations lies in the other one. -/
def Apart (source target : Location) : Prop :=
  ¬ source <+: target ∧ ¬ target <+: source

namespace Apart

variable {source target : Location}

theorem append (apart : Apart source target) (inner other : Location) :
    Apart (source ++ inner) (target ++ other) := by
  constructor
  · intro before
    rcases List.prefix_or_prefix_of_prefix ((source.prefix_append inner).trans before)
      (target.prefix_append other) with inside | inside
    · exact apart.1 inside
    · exact apart.2 inside
  · intro before
    rcases List.prefix_or_prefix_of_prefix ((target.prefix_append other).trans before)
      (source.prefix_append inner) with inside | inside
    · exact apart.2 inside
    · exact apart.1 inside

/-- What lies in the source does not lie in the target. -/
theorem not_below (apart : Apart source target) (inner : Location) :
    ¬ target <+: source ++ inner := by
  have := (apart.append inner []).2
  rwa [List.append_nil] at this

end Apart

/-- Entries of one directory lie apart. -/
theorem apart_of_ne {parent : Location} {name other : String} (differ : name ≠ other) :
    Apart (parent ++ [name]) (parent ++ [other]) := by
  constructor <;> intro before
  · exact differ (by simpa using before)
  · exact differ (Eq.symm (by simpa using before))

namespace Disk

variable {d d' d'' : Disk} {source target : Location} {path : Path}

/-! ## Mirroring -/

/-- Only the target and what lies below it have changed, and what has changed is a copy of what
stands at the same place below the source.  No directory is lost. -/
structure Mirrors (d : Disk) (source target : Location) (d' : Disk) : Prop where
  within : d.Within d'
  proper : d.Proper → d'.Proper
  outside : ∀ other, ¬ target <+: other → d'.item? other = d.item? other
  inside : ∀ inner, d'.item? (target ++ inner) = d.item? (target ++ inner) ∨
    ∃ item copy, d.item? (source ++ inner) = some item ∧
      d'.item? (target ++ inner) = some copy ∧ copy.content? = item.content?

/-- Everything below the source has a copy below the target. -/
def Holds (d : Disk) (source target : Location) : Prop :=
  ∀ inner item, d.item? (source ++ inner) = some item →
    ∃ copy, d.item? (target ++ inner) = some copy ∧ copy.content? = item.content?

namespace Mirrors

theorem refl (d : Disk) (source target : Location) : d.Mirrors source target d :=
  ⟨.refl d, id, fun _ _ => rfl, fun _ => .inl rfl⟩

/-- The source stays as it is. -/
theorem item?_source (mirrors : d.Mirrors source target d') (apart : Apart source target)
    (inner : Location) : d'.item? (source ++ inner) = d.item? (source ++ inner) :=
  mirrors.outside _ (apart.not_below inner)

theorem locate_eq (mirrors : d.Mirrors source target d') (path : Path) :
    d'.locate path = d.locate path :=
  Disk.locate_eq mirrors.within.current_eq path

theorem trans (apart : Apart source target) (first : d.Mirrors source target d')
    (second : d'.Mirrors source target d'') : d.Mirrors source target d'' where
  within := first.within.trans second.within
  proper := fun proper => second.proper (first.proper proper)
  outside := fun other away => (second.outside other away).trans (first.outside other away)
  inside := by
    intro inner
    rcases second.inside inner with kept | ⟨item, copy, stands, copied, same⟩
    · rw [kept]
      exact first.inside inner
    · rw [first.item?_source apart] at stands
      exact .inr ⟨item, copy, stands, copied, same⟩

/-- A change below an entry is a change below its directory. -/
theorem widen {further : Location}
    (mirrors : d.Mirrors (source ++ further) (target ++ further) d') :
    d.Mirrors source target d' where
  within := mirrors.within
  proper := mirrors.proper
  outside := fun other away =>
    mirrors.outside other fun below => away ((target.prefix_append further).trans below)
  inside := by
    intro inner
    by_cases below : further <+: inner
    · obtain ⟨rest, rfl⟩ := below
      rw [← List.append_assoc, ← List.append_assoc]
      exact mirrors.inside rest
    · refine .inl (mirrors.outside _ fun before => below ?_)
      exact (List.prefix_append_right_inj target).1 before

/-- Setting a copy where no directory was is mirroring. -/
theorem of_sets {item copy : Item} (sets : d.Sets target copy d')
    (free : ∀ rights, d.item? target ≠ some (.directory rights))
    (stands : d.item? source = some item) (same : copy.content? = item.content?) :
    d.Mirrors source target d' where
  within := sets.within free
  proper := sets.proper
  outside := by
    intro other away
    refine sets.item?_of_ne ?_
    rintro rfl
    exact away (List.prefix_refl _)
  inside := by
    intro inner
    cases inner with
    | nil =>
      rw [List.append_nil, List.append_nil]
      exact .inr ⟨item, copy, stands, sets.item?_self, same⟩
    | cons name rest => exact .inl (sets.item?_of_ne (by simp))

end Mirrors

/-- Copies that are there stay there, or are copied again. -/
theorem Holds.mirrors {further : Location} (holds : d.Holds (source ++ further) (target ++ further))
    (apart : Apart source target) (mirrors : d.Mirrors source target d') :
    d'.Holds (source ++ further) (target ++ further) := by
  intro inner item stands
  rw [List.append_assoc, mirrors.item?_source apart] at stands
  rw [List.append_assoc]
  rcases mirrors.inside (further ++ inner) with kept | ⟨found, copy, stood, copied, same⟩
  · rw [← List.append_assoc] at stands
    rw [kept, ← List.append_assoc]
    exact holds inner item stands
  · obtain rfl := Option.some.inj (stood.symm.trans stands)
    exact ⟨copy, copied, same⟩

/-! ## Making the target -/

/-- A change is made, or the disk stays as it is. -/
theorem change_eq (f : Disk → Attempt Disk) (d : Disk) :
    change f d = match f d with
      | .ok changed => (.ok (), changed)
      | .error fault => (.error fault, d) :=
  rfl

theorem unlessDirectory_eq (path : Path) (fault : FileFault) (d : Disk) :
    (FileSystem.unlessDirectory path fault : Run (Attempt Unit)) d =
      (if d.kind? path = some .directory then .ok () else .error fault, d) := by
  show (if decide (d.kind? path = some .directory) = true then _ else _ : Run (Attempt Unit)) d = _
  by_cases isDirectory : d.kind? path = some .directory
  · rw [if_pos (decide_eq_true isDirectory), if_pos isDirectory]
    rfl
  · rw [if_neg (by simpa using isDirectory), if_neg isDirectory]
    rfl

/-- The path names an entry of a directory that paths lead into. -/
def Attaches (d : Disk) (path : Path) : Prop :=
  ∃ holder name, path = holder.join name ∧ IsName name ∧ d.Enters holder

/-- Once a directory is said to be made, the path leads to one. -/
theorem kind?_of_makeDirsWithin {most : Nat} (stated : path.text ≠ "")
    (ran : (FileSystem.makeDirsWithin most path : Run (Attempt Unit)) d = (.ok (), d')) :
    d'.kind? path = some .directory := by
  have accepted : ∀ {fault : FileFault} {d : Disk},
      (FileSystem.unlessDirectory path fault : Run (Attempt Unit)) d = (.ok (), d') →
        d'.kind? path = some .directory := by
    intro fault d ran
    rw [unlessDirectory_eq] at ran
    split at ran
    · rename_i isDirectory
      rwa [← (Prod.mk.inj ran).2]
    · cases ran
  have made : ∀ {d d₁ : Disk},
      (FileSystem.makeDir path : Run (Attempt Unit)) d = (.ok (), d₁) →
        d₁.kind? path = some .directory := by
    intro d d₁ ran
    change change (·.makeDir path) d = _ at ran
    rw [change_eq] at ran
    split at ran
    · rename_i making
      rw [← (Prod.mk.inj ran).2]
      exact (of_makeDir making).2.2
    · cases ran
  rw [FileSystem.makeDirsWithin.eq_def, if_neg stated] at ran
  obtain ⟨first, d₁, tried, ran⟩ := exists_of_run_bind ran
  split at ran
  · rw [← (Prod.mk.inj ran).2]
    exact made tried
  · cases most with
    | zero => cases ran
    | succ most =>
      cases found : path.parent? with
      | none =>
        rw [found] at ran
        cases ran
      | some above =>
        rw [found] at ran
        obtain ⟨holder, d₂, _, ran⟩ := exists_of_run_bind ran
        split at ran
        · cases ran
        · obtain ⟨second, d₃, tried, ran⟩ := exists_of_run_bind ran
          split at ran
          · rw [← (Prod.mk.inj ran).2]
            exact made tried
          · exact accepted ran
  · exact accepted ran

/-- **Where only the last directory can be missing, making directories is making this one.** -/
theorem Attaches.makeDirs_eq (attaches : d.Attaches path) :
    (FileSystem.makeDirs path : Run (Attempt Unit)) d =
      match d.makeDir path with
      | .ok made => (.ok (), made)
      | .error fault => (if d.kind? path = some .directory then .ok () else .error fault, d) := by
  obtain ⟨holder, name, rfl, isName, enters⟩ := attaches
  have possible := enters.makeDir_ne_missing isName
  rw [FileSystem.makeDirs, FileSystem.makeDirsWithin.eq_def,
    if_neg (Path.text_join_ne isName holder)]
  have ran := change_eq (·.makeDir (holder.join name)) d
  cases made : d.makeDir (holder.join name) with
  | ok d' =>
    rw [made] at ran
    exact run_bind ran _
  | error fault =>
    rw [made] at ran possible
    have ran : (FileSystem.makeDir (holder.join name) : Run (Attempt Unit)) d = (.error fault, d) :=
      ran
    rw [run_bind ran]
    cases fault with
    | missing => exact absurd rfl possible
    | _ => exact unlessDirectory_eq _ _ d

/-! ## Copying entries -/

end Disk

/-- Copy one entry of a directory. -/
def copyEntry {m : Type → Type} [FileSystem m] (copyDirectory : Path → Path → m (Attempt Unit))
    (source target : Path) (name : String) : FileKind → m (Attempt Unit)
  | .directory => copyDirectory (source.join name) (target.join name)
  | .file => FileSystem.copyFile (source.join name) (target.join name)

theorem copyEntries_cons {m : Type → Type} [Monad m] [FileSystem m]
    (copyDirectory : Path → Path → m (Attempt Unit)) (source target : Path) (name : String)
    (kind : FileKind) (rest : List (String × FileKind)) :
    copyEntries copyDirectory source target ((name, kind) :: rest) = (do
      match ← copyEntry copyDirectory source target name kind with
      | .error fault => return .error fault
      | .ok () => copyEntries copyDirectory source target rest) := by
  cases kind <;> rfl

/-- The ways in which copying a directory ends: the target cannot be made, the source cannot be
listed, or the entries are copied. -/
theorem copyTree_cases {σ : Type} [FileSystem (StateM σ)] {s s' : σ} {depth : Nat}
    {source target : Path} {result : Attempt Unit}
    (ran : (copyTree (depth + 1) source target : StateM σ (Attempt Unit)) s = (result, s')) :
    (∃ fault, (FileSystem.makeDirs target : StateM σ (Attempt Unit)) s = (.error fault, s') ∧
        result = .error fault) ∨
      ∃ s₁, (FileSystem.makeDirs target : StateM σ (Attempt Unit)) s = (.ok (), s₁) ∧
        ((∃ fault, (FileSystem.list source : StateM σ _) s₁ = (.error fault, s') ∧
            result = .error fault) ∨
          ∃ entries s₂, (FileSystem.list source : StateM σ _) s₁ = (.ok entries, s₂) ∧
            (copyEntries (copyTree depth) source target entries : StateM σ (Attempt Unit)) s₂ =
              (result, s')) := by
  rw [copyTree] at ran
  obtain ⟨made, s₁, making, ran⟩ := exists_of_run_bind ran
  cases made with
  | error fault =>
    obtain ⟨rfl, rfl⟩ := Prod.mk.inj ran
    exact .inl ⟨fault, making, rfl⟩
  | ok _ =>
    obtain ⟨listing, s₂, listed, ran⟩ := exists_of_run_bind ran
    refine .inr ⟨s₁, making, ?_⟩
    cases listing with
    | error fault =>
      obtain ⟨rfl, rfl⟩ := Prod.mk.inj ran
      exact .inl ⟨fault, listed, rfl⟩
    | ok entries => exact .inr ⟨entries, s₂, listed, ran⟩

namespace Disk

variable {d d' d'' : Disk} {source target origin destination : Path} {result : Attempt Unit}
  {name : String} {kind : FileKind} {entry : String × FileKind}
  {entries : List (String × FileKind)}

/-- Entries of a directory can be copied: they stand there, and the directory for their copies
stands apart. -/
structure ReadyFor (d : Disk) (origin destination : Path) (entries : List (String × FileKind)) :
    Prop where
  proper : d.Proper
  isDirectory : d.kind? destination = some .directory
  apart : Apart (d.locate origin) (d.locate destination)
  listed : ∀ entry ∈ entries, IsName entry.1 ∧
    ∃ item, d.item? (d.locate origin ++ [entry.1]) = some item ∧ item.kind = entry.2

/-- A directory can be copied: it stands there, and paths lead to a place for its copy apart. -/
structure Ready (d : Disk) (source target : Path) : Prop where
  proper : d.Proper
  attaches : d.Attaches target
  apart : Apart (d.locate source) (d.locate target)
  isDirectory : ∃ rights, d.item? (d.locate source) = some (.directory rights)

namespace ReadyFor

theorem tail (ready : d.ReadyFor origin destination (entry :: entries)) :
    d.ReadyFor origin destination entries :=
  { ready with listed := (List.forall_mem_cons.1 ready.listed).2 }

/-- Copying some entries does not get in the way of the others. -/
theorem after (ready : d.ReadyFor origin destination entries)
    (mirrors : d.Mirrors (d.locate origin) (d.locate destination) d') :
    d'.ReadyFor origin destination entries where
  proper := mirrors.proper ready.proper
  isDirectory := mirrors.within.kind?_directory ready.isDirectory
  apart := by
    rw [mirrors.locate_eq, mirrors.locate_eq]
    exact ready.apart
  listed := by
    intro entry mem
    rw [mirrors.locate_eq, mirrors.item?_source ready.apart]
    exact ready.listed entry mem

/-- A directory among the entries can be copied. -/
theorem inside (ready : d.ReadyFor origin destination entries) (isName : IsName name)
    {rights : Rights} (stands : d.item? (d.locate origin ++ [name]) = some (.directory rights)) :
    d.Ready (origin.join name) (destination.join name) where
  proper := ready.proper
  attaches := ⟨destination, name, rfl, isName, enters_of_kind? ready.isDirectory⟩
  apart := by
    rw [locate_join_name isName, locate_join_name isName]
    exact ready.apart.append [name] [name]
  isDirectory := by
    rw [locate_join_name isName]
    exact ⟨rights, stands⟩

end ReadyFor

namespace Ready

/-- What is at the target after it was made: a directory, and everything else as it was. -/
theorem of_makeDirs (ready : d.Ready source target)
    (ran : (FileSystem.makeDirs target : Run (Attempt Unit)) d = (result, d')) :
    d.Mirrors (d.locate source) (d.locate target) d' ∧
      (result = .ok () → d'.kind? target = some .directory) := by
  obtain ⟨rights, stands⟩ := ready.isDirectory
  rw [ready.attaches.makeDirs_eq] at ran
  split at ran
  · rename_i made
    obtain ⟨rfl, rfl⟩ := Prod.mk.inj ran
    obtain ⟨sets, free, isDirectory⟩ := of_makeDir made
    refine ⟨.of_sets sets (by simp [free]) stands rfl, fun _ => isDirectory⟩
  · obtain ⟨rfl, rfl⟩ := Prod.mk.inj ran
    refine ⟨.refl d _ _, fun done => ?_⟩
    split at done
    · assumption
    · cases done

/-- When the target is made, the entries listed then can be copied. -/
theorem readyFor (ready : d.Ready source target)
    (made : (FileSystem.makeDirs target : Run (Attempt Unit)) d = (.ok (), d'))
    (lists : d'.list source = .ok entries) : d'.ReadyFor source target entries := by
  obtain ⟨mirrors, isTarget⟩ := ready.of_makeDirs made
  have proper := mirrors.proper ready.proper
  refine ⟨proper, isTarget rfl, ?_, (of_list proper lists).2⟩
  rw [mirrors.locate_eq, mirrors.locate_eq]
  exact ready.apart

end Ready

/-- What holds of a program that copies directories: it mirrors the source, and a success leaves a
copy of everything in it. -/
def CopiesDirectories (copy : Path → Path → Run (Attempt Unit)) : Prop :=
  ∀ {d d' : Disk} {source target : Path} {result : Attempt Unit}, d.Ready source target →
    copy source target d = (result, d') →
      d.Mirrors (d.locate source) (d.locate target) d' ∧
        (result = .ok () → d'.Holds (d.locate source) (d.locate target))

variable {copy : Path → Path → Run (Attempt Unit)}

theorem of_copyEntry (copies : CopiesDirectories copy)
    (ready : d.ReadyFor origin destination entries) (isName : IsName name) {item : Item}
    (stands : d.item? (d.locate origin ++ [name]) = some item)
    (ran : copyEntry copy origin destination name item.kind d = (result, d')) :
    d.Mirrors (d.locate origin ++ [name]) (d.locate destination ++ [name]) d' ∧
      (result = .ok () →
        d'.Holds (d.locate origin ++ [name]) (d.locate destination ++ [name])) := by
  cases item with
  | directory rights =>
    have copied := copies (ready.inside isName stands) ran
    rwa [locate_join_name isName, locate_join_name isName] at copied
  | file rights content =>
    have apart := ready.apart.append [name] [name]
    change change (·.copyFile (origin.join name) (destination.join name)) d = _ at ran
    rw [change_eq] at ran
    split at ran
    · rename_i copied
      obtain ⟨_, rfl⟩ := Prod.mk.inj ran
      obtain ⟨read, held, new, found, sets, free⟩ := of_copyFile copied
      rw [locate_join_name isName] at found sets free
      obtain ⟨rfl, rfl⟩ := Item.file.inj (Option.some.inj (found.symm.trans stands))
      have mirrors := Mirrors.of_sets sets free stands rfl
      refine ⟨mirrors, fun _ inner item below => ?_⟩
      cases inner with
      | nil =>
        rw [mirrors.item?_source apart, List.append_nil, stands] at below
        rw [List.append_nil]
        exact ⟨_, sets.item?_self, by rw [← Option.some.inj below]; rfl⟩
      | cons first rest =>
        rw [mirrors.item?_source apart, item?_below (by simp [stands])] at below
        cases below
    · obtain ⟨rfl, rfl⟩ := Prod.mk.inj ran
      exact ⟨.refl d _ _, fun done => by cases done⟩

/-- Entries are copied one after the other, each where the ones before it have left no change. -/
theorem of_copyEntries (copies : CopiesDirectories copy)
    (ready : d.ReadyFor origin destination entries)
    (ran : copyEntries copy origin destination entries d = (result, d')) :
    d.Mirrors (d.locate origin) (d.locate destination) d' ∧
      (result = .ok () → ∀ entry ∈ entries,
        d'.Holds (d.locate origin ++ [entry.1]) (d.locate destination ++ [entry.1])) := by
  induction entries generalizing d with
  | nil =>
    obtain ⟨rfl, rfl⟩ := Prod.mk.inj ran
    exact ⟨.refl d _ _, fun _ entry mem => by cases mem⟩
  | cons entry rest ih =>
    obtain ⟨name, kind⟩ := entry
    obtain ⟨isName, item, stands, rfl⟩ := (List.forall_mem_cons.1 ready.listed).1
    rw [copyEntries_cons] at ran
    obtain ⟨copied, d₁, first, ran⟩ := exists_of_run_bind ran
    obtain ⟨inside, holdsFirst⟩ := of_copyEntry copies ready isName stands first
    have mirrors := inside.widen
    cases copied with
    | error fault =>
      obtain ⟨rfl, rfl⟩ := Prod.mk.inj ran
      exact ⟨mirrors, fun done => by cases done⟩
    | ok _ =>
      obtain ⟨mirrorsRest, holdsRest⟩ := ih (ready.tail.after mirrors) ran
      rw [mirrors.locate_eq, mirrors.locate_eq] at mirrorsRest holdsRest
      refine ⟨mirrors.trans ready.apart mirrorsRest, fun done entry mem => ?_⟩
      rcases List.mem_cons.1 mem with rfl | behind
      · exact (holdsFirst rfl).mirrors ready.apart mirrorsRest
      · exact holdsRest done entry behind

/-- **Copying a directory mirrors it**, and a copy that succeeds holds everything. -/
theorem copiesDirectories_copyTree (depth : Nat) : CopiesDirectories (copyTree depth) := by
  induction depth with
  | zero =>
    intro d d' source target result _ ran
    obtain ⟨rfl, rfl⟩ := Prod.mk.inj ran
    exact ⟨.refl d _ _, fun done => by cases done⟩
  | succ depth ih =>
    intro d d' source target result ready ran
    rcases copyTree_cases ran with ⟨fault, making, rfl⟩ | ⟨d₁, making, ending⟩
    · exact ⟨(ready.of_makeDirs making).1, fun done => by cases done⟩
    obtain ⟨mirrors, isTarget⟩ := ready.of_makeDirs making
    rcases ending with ⟨fault, listed, rfl⟩ | ⟨entries, d₂, listed, ran⟩
    · obtain ⟨_, rfl⟩ : d₁.list source = .error fault ∧ d₁ = d' := Prod.mk.inj listed
      exact ⟨mirrors, fun done => by cases done⟩
    obtain ⟨lists, rfl⟩ : d₁.list source = .ok entries ∧ d₁ = d₂ := Prod.mk.inj listed
    obtain ⟨mirrorsRest, holds⟩ := of_copyEntries ih (ready.readyFor making lists) ran
    rw [mirrors.locate_eq, mirrors.locate_eq] at mirrorsRest holds
    have whole := mirrors.trans ready.apart mirrorsRest
    refine ⟨whole, fun done inner item below => ?_⟩
    cases inner with
    | nil =>
      obtain ⟨rights, stands⟩ := ready.isDirectory
      obtain ⟨made, _, there⟩ := kind?_eq_directory_iff.1 (isTarget rfl)
      rw [mirrors.locate_eq] at there
      rw [whole.item?_source ready.apart, List.append_nil, stands] at below
      refine ⟨.directory made, ?_, ?_⟩
      · rw [List.append_nil]
        exact mirrorsRest.within.directory _ _ there
      · rw [← Option.some.inj below]
        rfl
    | cons name rest =>
      have onTheWay : d.locate source ++ [name] <+: d.locate source ++ name :: rest :=
        ⟨rest, by simp⟩
      obtain ⟨entry, found⟩ := Option.isSome_iff_exists.1
        (isSome_item?_above onTheWay (Option.isSome_iff_exists.2 ⟨item, below⟩))
      rw [mirrorsRest.item?_source ready.apart, ← mirrors.locate_eq source] at found
      have copied := holds done (name, entry.kind) (mem_of_list lists found) rest item
      simp only [List.append_assoc, List.singleton_append] at copied
      exact copied below

/-! ## Copying a directory into itself -/

/-- Entries are copied only if each of them is. -/
theorem exists_of_copyEntries
    (ran : copyEntries copy origin destination entries d = (.ok (), d'))
    (mem : (name, kind) ∈ entries) :
    ∃ e e' : Disk, copyEntry copy origin destination name kind e = (.ok (), e') := by
  induction entries generalizing d with
  | nil => cases mem
  | cons entry rest ih =>
    obtain ⟨first, firstKind⟩ := entry
    rw [copyEntries_cons] at ran
    obtain ⟨copied, d₁, tried, ran⟩ := exists_of_run_bind ran
    cases copied with
    | error fault => cases ran
    | ok _ =>
      rcases List.mem_cons.1 mem with same | behind
      · obtain ⟨rfl, rfl⟩ := Prod.mk.inj same
        exact ⟨d, d₁, tried⟩
      · exact ih ran behind

/-- **A directory cannot be copied into itself**, however deep the copy may get: the target is among
the entries to copy, and so is its copy in it. -/
theorem copyTree_into_itself (isName : IsName name) (depth : Nat) {source : Path}
    (ran : (copyTree depth source (source.join name) : Run (Attempt Unit)) d = (result, d')) :
    result ≠ .ok () := by
  induction depth generalizing source d d' result with
  | zero =>
    rw [← (Prod.mk.inj ran).1]
    intro done
    cases done
  | succ depth ih =>
    rcases copyTree_cases ran with ⟨fault, _, rfl⟩ | ⟨d₁, making, ⟨fault, _, rfl⟩ |
      ⟨entries, d₂, listed, ran⟩⟩
    · intro done
      cases done
    · intro done
      cases done
    · rintro rfl
      obtain ⟨lists, rfl⟩ : d₁.list source = .ok entries ∧ d₁ = d₂ := Prod.mk.inj listed
      obtain ⟨rights, _, there⟩ := kind?_eq_directory_iff.1
        (kind?_of_makeDirsWithin (Path.text_join_ne isName source) making)
      rw [locate_join_name isName] at there
      obtain ⟨e, e', copied⟩ := exists_of_copyEntries ran (mem_of_list lists there)
      exact ih copied rfl

end Disk

end MediaSweep
