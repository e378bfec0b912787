import MediaSweep.Proofs.Storage.Copying

/-!
# What a copy looks into

The programs that copy directories run on every file system.  Here they run on one that keeps a
record of the directories listed and of the files copied (`Watched`).  Forgetting the record gives
the run on the disk (`Watched.shadows_copyTree`).

The record of a copy, kept while source and target lie apart, has nothing in it but what stood in
the source before (`Watched.looksInside_copyTree`): a copy never looks at what it has made.
-/

namespace MediaSweep

set_option autoImplicit false

/-- A disk with the locations of the directories listed on it and of the files copied from it. -/
structure Watch where
  disk : Disk
  listed : List Location
  copied : List Location

/-- Programs that are watched. -/
abbrev Watched := StateM Watch

namespace Watched

variable {α β : Type}

/-- Run a program on the disk, and record nothing. -/
def onDisk (program : Disk.Run α) : Watched α := fun w =>
  ((program w.disk).1, { w with disk := (program w.disk).2 })

/-- Record that a directory is listed, by its location. -/
def noteListed (path : Path) : Watched Unit :=
  modify fun w => { w with listed := w.disk.locate path :: w.listed }

/-- Record that a file is copied, by its location. -/
def noteCopied (path : Path) : Watched Unit :=
  modify fun w => { w with copied := w.disk.locate path :: w.copied }

/-- Operations do what they do on the disk.  Two of them leave a record first. -/
instance : FileSystem Watched where
  readBytes path := onDisk (FileSystem.readBytes path)
  writeBytes path content := onDisk (FileSystem.writeBytes path content)
  copyFile source target := do
    noteCopied source
    onDisk (FileSystem.copyFile source target)
  makeDir path := onDisk (FileSystem.makeDir path)
  list path := do
    noteListed path
    onDisk (FileSystem.list path)
  kind? path := onDisk (FileSystem.kind? path)

/-! ## Forgetting the record -/

theorem onDisk_bind (program : Disk.Run α) (next : α → Disk.Run β) :
    onDisk (program >>= next) = onDisk program >>= fun a => onDisk (next a) :=
  rfl

theorem unlessDirectory_eq (path : Path) (fault : FileFault) :
    (FileSystem.unlessDirectory path fault : Watched (Attempt Unit)) =
      onDisk (FileSystem.unlessDirectory path fault) := by
  funext w
  show (if decide (w.disk.kind? path = some .directory) = true then _ else _ : Watched _) w =
    onDisk (fun d =>
      (if decide (d.kind? path = some .directory) = true then _ else _ : Disk.Run _) d) w
  rw [onDisk]
  split <;> rfl

/-- Making directories looks into none. -/
theorem makeDirsWithin_eq (most : Nat) (path : Path) :
    (FileSystem.makeDirsWithin most path : Watched (Attempt Unit)) =
      onDisk (FileSystem.makeDirsWithin most path) := by
  induction most generalizing path with
  | zero =>
    rw [FileSystem.makeDirsWithin.eq_def, FileSystem.makeDirsWithin.eq_def]
    split
    · rfl
    · rw [onDisk_bind]
      refine bind_congr fun made => ?_
      rcases made with fault | _
      · cases fault with
        | missing => rfl
        | _ => exact unlessDirectory_eq path _
      · rfl
  | succ most ih =>
    rw [FileSystem.makeDirsWithin.eq_def, FileSystem.makeDirsWithin.eq_def]
    split
    · rfl
    · rw [onDisk_bind]
      refine bind_congr fun made => ?_
      rcases made with fault | _
      · cases fault with
        | missing =>
          cases path.parent? with
          | none => rfl
          | some above =>
            dsimp only
            rw [ih, onDisk_bind]
            refine bind_congr fun held => ?_
            rcases held with fault | _
            · rfl
            · dsimp only
              rw [onDisk_bind]
              refine bind_congr fun again => ?_
              rcases again with fault | _
              · exact unlessDirectory_eq path fault
              · rfl
        | _ => exact unlessDirectory_eq path _
      · rfl

/-- Forgetting the record of a watched program gives a program on the disk. -/
def Shadows (watched : Watched α) (program : Disk.Run α) : Prop :=
  ∀ w, program w.disk = ((watched w).1, (watched w).2.disk)

theorem shadows_onDisk (program : Disk.Run α) : Shadows (onDisk program) program :=
  fun _ => rfl

theorem Shadows.bind {first : Watched α} {second : Disk.Run α} {next : α → Watched β}
    {following : α → Disk.Run β} (shadows : Shadows first second)
    (others : ∀ a, Shadows (next a) (following a)) :
    Shadows (first >>= next) (second >>= following) := by
  intro w
  rw [run_bind (shadows w)]
  exact others _ _

variable {copy : Path → Path → Watched (Attempt Unit)}
  {plain : Path → Path → Disk.Run (Attempt Unit)} {source target : Path}

theorem shadows_copyEntry
    (shadows : ∀ source target, Shadows (copy source target) (plain source target))
    (source target : Path) (name : String) (kind : FileKind) :
    Shadows (copyEntry copy source target name kind) (copyEntry plain source target name kind) := by
  cases kind with
  | directory => exact shadows _ _
  | file => exact fun _ => rfl

theorem shadows_copyEntries
    (shadows : ∀ source target, Shadows (copy source target) (plain source target))
    (source target : Path) (entries : List (String × FileKind)) :
    Shadows (copyEntries copy source target entries) (copyEntries plain source target entries) := by
  induction entries with
  | nil => exact fun _ => rfl
  | cons entry rest ih =>
    obtain ⟨name, kind⟩ := entry
    rw [copyEntries_cons, copyEntries_cons]
    refine (shadows_copyEntry shadows source target name kind).bind fun copied => ?_
    rcases copied with fault | _
    · exact fun _ => rfl
    · exact ih

/-- **Watching a copy does not change it.** -/
theorem shadows_copyTree (depth : Nat) (source target : Path) :
    Shadows (copyTree depth source target) (copyTree depth source target) := by
  induction depth generalizing source target with
  | zero => exact fun _ => rfl
  | succ depth ih =>
    rw [copyTree, copyTree, FileSystem.makeDirs, makeDirsWithin_eq]
    refine (shadows_onDisk _).bind fun made => ?_
    rcases made with fault | _
    · exact fun _ => rfl
    · have lists : Shadows (FileSystem.list source) (FileSystem.list source) := fun _ => rfl
      refine lists.bind fun listing => ?_
      rcases listing with fault | entries
      · exact fun _ => rfl
      · exact shadows_copyEntries ih source target entries

end Watched

/-! ## What is recorded -/

namespace Watch

variable {w w' w'' : Watch} {source : Location}

/-- What was recorded in between is at or below the source: directories that were there as such were
listed, and files that were there were copied. -/
structure Saw (w : Watch) (source : Location) (w' : Watch) : Prop where
  listed : ∀ location ∈ w'.listed, location ∈ w.listed ∨
    source <+: location ∧ ∃ rights, w.disk.item? location = some (.directory rights)
  copied : ∀ location ∈ w'.copied, location ∈ w.copied ∨
    source <+: location ∧ ∃ rights content, w.disk.item? location = some (.file rights content)

namespace Saw

theorem of_eq (listed : w'.listed = w.listed) (copied : w'.copied = w.copied) : w.Saw source w' :=
  ⟨fun _ mem => .inl (listed ▸ mem), fun _ mem => .inl (copied ▸ mem)⟩

theorem trans (first : w.Saw source w') (second : w'.Saw source w'')
    (same : ∀ inner, w'.disk.item? (source ++ inner) = w.disk.item? (source ++ inner)) :
    w.Saw source w'' where
  listed := by
    intro location mem
    rcases second.listed location mem with before | ⟨⟨inner, rfl⟩, stands⟩
    · exact first.listed location before
    · rw [same] at stands
      exact .inr ⟨source.prefix_append inner, stands⟩
  copied := by
    intro location mem
    rcases second.copied location mem with before | ⟨⟨inner, rfl⟩, stands⟩
    · exact first.copied location before
    · rw [same] at stands
      exact .inr ⟨source.prefix_append inner, stands⟩

theorem widen {further : Location} (saw : w.Saw (source ++ further) w') : w.Saw source w' where
  listed := fun location mem => (saw.listed location mem).imp_right fun ⟨below, stands⟩ =>
    ⟨(source.prefix_append further).trans below, stands⟩
  copied := fun location mem => (saw.copied location mem).imp_right fun ⟨below, stands⟩ =>
    ⟨(source.prefix_append further).trans below, stands⟩

end Saw

end Watch

namespace Watched

open Disk (Mirrors CopiesDirectories)

/-- What holds of a watched program that copies directories: it looks into nothing but its source.
-/
def LooksInside (copy : Path → Path → Watched (Attempt Unit)) : Prop :=
  ∀ {w w' : Watch} {source target : Path} {result : Attempt Unit}, w.disk.Ready source target →
    copy source target w = (result, w') → w.Saw (w.disk.locate source) w'

variable {copy : Path → Path → Watched (Attempt Unit)}
  {plain : Path → Path → Disk.Run (Attempt Unit)} {source target : Path} {w w' : Watch}
  {result : Attempt Unit} {entries : List (String × FileKind)}

theorem run_makeDirs
    (ran : (FileSystem.makeDirs target : Watched (Attempt Unit)) w = (result, w')) :
    (FileSystem.makeDirs target : Disk.Run (Attempt Unit)) w.disk = (result, w'.disk) ∧
      w'.listed = w.listed ∧ w'.copied = w.copied := by
  rw [FileSystem.makeDirs, makeDirsWithin_eq] at ran
  obtain ⟨rfl, rfl⟩ := Prod.mk.inj ran
  exact ⟨rfl, rfl, rfl⟩

theorem run_list {listing : Attempt (List (String × FileKind))}
    (ran : (FileSystem.list source : Watched _) w = (listing, w')) :
    w.disk.list source = listing ∧
      w' = { w with listed := w.disk.locate source :: w.listed } := by
  obtain ⟨rfl, rfl⟩ := Prod.mk.inj ran
  exact ⟨rfl, rfl⟩

theorem saw_copyEntry (looks : LooksInside copy) (ready : w.disk.ReadyFor source target entries)
    {name : String} (isName : IsName name) {item : Item}
    (stands : w.disk.item? (w.disk.locate source ++ [name]) = some item)
    (ran : copyEntry copy source target name item.kind w = (result, w')) :
    w.Saw (w.disk.locate source) w' := by
  cases item with
  | directory rights =>
    have saw := looks (ready.inside isName stands) ran
    rw [Disk.locate_join_name isName] at saw
    exact saw.widen
  | file rights content =>
    obtain rfl := (Prod.mk.inj ran).2
    refine ⟨fun location mem => .inl mem, fun location mem => ?_⟩
    rcases List.mem_cons.1 mem with rfl | before
    · rw [Disk.locate_join_name isName]
      exact .inr ⟨List.prefix_append _ _, rights, content, stands⟩
    · exact .inl before

theorem saw_copyEntries (looks : LooksInside copy) (copies : CopiesDirectories plain)
    (shadows : ∀ source target, Shadows (copy source target) (plain source target))
    (ready : w.disk.ReadyFor source target entries)
    (ran : copyEntries copy source target entries w = (result, w')) :
    w.Saw (w.disk.locate source) w' := by
  induction entries generalizing w with
  | nil =>
    obtain ⟨rfl, rfl⟩ := Prod.mk.inj ran
    exact .of_eq rfl rfl
  | cons entry rest ih =>
    obtain ⟨name, kind⟩ := entry
    obtain ⟨isName, item, stands, rfl⟩ := (List.forall_mem_cons.1 ready.listed).1
    rw [copyEntries_cons] at ran
    obtain ⟨copied, w₁, first, ran⟩ := exists_of_run_bind ran
    have saw := saw_copyEntry looks ready isName stands first
    have plainly := shadows_copyEntry shadows source target name item.kind w
    rw [first] at plainly
    have mirrors := (Disk.of_copyEntry copies ready isName stands plainly).1.widen
    cases copied with
    | error fault =>
      obtain ⟨rfl, rfl⟩ := Prod.mk.inj ran
      exact saw
    | ok _ =>
      have sawRest := ih (ready.tail.after mirrors) ran
      rw [mirrors.locate_eq] at sawRest
      exact saw.trans sawRest (mirrors.item?_source ready.apart)

/-- **A copy looks into nothing but its source**, as it was when the copy began. -/
theorem looksInside_copyTree (depth : Nat) : LooksInside (copyTree depth) := by
  induction depth with
  | zero =>
    intro w w' source target result _ ran
    obtain ⟨rfl, rfl⟩ := Prod.mk.inj ran
    exact .of_eq rfl rfl
  | succ depth ih =>
    intro w w' source target result ready ran
    have sawSource : ∀ {w₁ : Watch},
        w.disk.Mirrors (w.disk.locate source) (w.disk.locate target) w₁.disk →
          w₁.Saw (w.disk.locate source)
            { w₁ with listed := w₁.disk.locate source :: w₁.listed } := by
      intro w₁ mirrors
      obtain ⟨rights, stands⟩ := ready.isDirectory
      refine ⟨fun location mem => ?_, fun location mem => .inl mem⟩
      rcases List.mem_cons.1 mem with rfl | before
      · rw [mirrors.locate_eq]
        exact .inr ⟨List.prefix_refl _, rights, mirrors.within.directory _ _ stands⟩
      · exact .inl before
    rcases copyTree_cases ran with ⟨fault, making, _⟩ | ⟨w₁, making, ending⟩
    · obtain ⟨_, listed, copied⟩ := run_makeDirs making
      exact .of_eq listed copied
    obtain ⟨plainly, listed, copied⟩ := run_makeDirs making
    obtain ⟨mirrors, _⟩ := ready.of_makeDirs plainly
    have saw :=
      (Watch.Saw.of_eq listed copied).trans (sawSource mirrors) (mirrors.item?_source ready.apart)
    rcases ending with ⟨fault, listing, _⟩ | ⟨entries, w₂, listing, ran⟩
    · obtain ⟨_, rfl⟩ := run_list listing
      exact saw
    obtain ⟨lists, rfl⟩ := run_list listing
    refine saw.trans ?_ (mirrors.item?_source ready.apart)
    rw [← mirrors.locate_eq source]
    exact saw_copyEntries ih (Disk.copiesDirectories_copyTree depth) (shadows_copyTree depth)
      (ready.readyFor plainly lists) ran

end Watched

end MediaSweep
