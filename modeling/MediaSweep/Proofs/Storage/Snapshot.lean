import MediaSweep.Proofs.Storage.Depth
import MediaSweep.Proofs.Storage.Visits

/-!
# Where a snapshot is put

The snapshot of a directory gets the name of the directory with the time at its end, and stands
beside it.  That needs a name.  A path may lead to a directory without one, as those do that end in
a point, in two points or at the top: then a name is made up, but it is joined to the path, and the
snapshot lies in the directory that is to be copied (`Disk.not_prefix_snapshotPath_iff`).

Beside its root a snapshot looks into nothing but the root as it was, changes nothing in it and
comes to an end (`Disk.TakenAside`).  In its root it does not succeed (`Disk.snapshot_beside_iff`).
-/

namespace MediaSweep

set_option autoImplicit false

/-! ## The name of a snapshot -/

theorem toList_pushn (text : String) (c : Char) (n : Nat) :
    (text.pushn c n).toList = text.toList ++ List.replicate n c := by
  rw [String.pushn_eq_repeat_push]
  induction n with
  | zero => simp [Nat.repeat]
  | succ n ih => rw [Nat.repeat, String.toList_push, ih, List.append_assoc, ← List.replicate_succ']

namespace Stamp

theorem unbroken_padded (width n : Nat) : '/' ∉ (padded width n).toList := by
  intro mem
  rw [padded, String.toList_append, toList_pushn] at mem
  rcases List.mem_append.1 mem with zeros | digits
  · simp at zeros
  · rw [Nat.toString_eq_repr, Nat.toList_repr] at digits
    exact absurd (Nat.isDigit_of_mem_toDigits (b := 10) (by decide) (by decide) digits) (by decide)

theorem unbroken_yearText (year : Int) : '/' ∉ (yearText year).toList := by
  rw [yearText, String.toList_append, List.mem_append, not_or]
  refine ⟨?_, unbroken_padded 4 _⟩
  split
  · decide
  · split <;> decide

theorem unbroken_text (stamp : Stamp) : '/' ∉ stamp.text.toList := by
  simp [text, unbroken_yearText, unbroken_padded]

end Stamp

/-- The name that the snapshot of a root has. -/
def snapshotName (root : Path) (stamp : Stamp) : String :=
  root.fileName?.getD namelessRoot ++ ".backup." ++ stamp.text

theorem snapshotPath_eq (root : Path) (stamp : Stamp) :
    snapshotPath root stamp = root.withFileName (snapshotName root stamp) :=
  rfl

theorem length_lt_snapshotName (root : Path) (stamp : Stamp) :
    (root.fileName?.getD namelessRoot).length + 8 ≤ (snapshotName root stamp).length := by
  have middle : ".backup.".length = 8 := rfl
  rw [snapshotName, String.length_append, String.length_append, middle]
  exact Nat.le_add_right _ _

theorem isName_snapshotName (root : Path) (stamp : Stamp) : IsName (snapshotName root stamp) := by
  have long : ∀ {text : String}, text.length < 8 → snapshotName root stamp ≠ text := by
    rintro _ short rfl
    have := length_lt_snapshotName root stamp
    omega
  have unbroken : '/' ∉ (root.fileName?.getD namelessRoot).toList := by
    cases named : root.fileName? with
    | none => decide
    | some name =>
      obtain ⟨above, beside⟩ := Path.exists_beside named
      exact beside.isName.unbroken
  refine ⟨long (by decide), long (by decide), long (by decide), ?_⟩
  simp [snapshotName, unbroken, stamp.unbroken_text]

namespace Disk

variable {d : Disk} {root : Path} {name : String}

/-- Without a name at its end, a root gets its snapshot inside. -/
theorem snapshotPath_of_nameless (nameless : root.fileName? = none) (stamp : Stamp) :
    snapshotPath root stamp = root.join (snapshotName root stamp) := by
  rw [snapshotPath_eq, Path.withFileName, if_neg (by simp [nameless])]

/-- **A root with a name lies apart from its snapshot.** -/
theorem apart_snapshotPath (named : root.fileName? = some name) (d : Disk) (stamp : Stamp) :
    Apart (d.locate root) (d.locate (snapshotPath root stamp)) := by
  obtain ⟨above, beside⟩ := Path.exists_beside named
  rw [snapshotPath_eq, beside.withFileName_eq, locate_join_name (isName_snapshotName root stamp),
    locate_of_beside beside]
  refine apart_of_ne fun same => ?_
  have longer := length_lt_snapshotName root stamp
  rw [← same, named, Option.getD_some] at longer
  omega

/-- **The snapshot is outside its root exactly when the path of the root ends in a name.** -/
theorem not_prefix_snapshotPath_iff (d : Disk) (root : Path) (stamp : Stamp) :
    ¬ d.locate root <+: d.locate (snapshotPath root stamp) ↔ root.fileName?.isSome := by
  cases named : root.fileName? with
  | some name => exact iff_of_true (apart_snapshotPath named d stamp).1 rfl
  | none =>
    refine iff_of_false (fun outside => outside ?_) (by simp)
    rw [snapshotPath_of_nameless named, locate_join_name (isName_snapshotName root stamp)]
    exact List.prefix_append _ _

/-- Only the last directory can be missing where the snapshot of a root is put, beside the root or
in it. -/
theorem attaches_snapshotPath (isDirectory : d.kind? root = some .directory) (stamp : Stamp) :
    d.Attaches (snapshotPath root stamp) := by
  have isName := isName_snapshotName root stamp
  cases named : root.fileName? with
  | none =>
    exact ⟨root, snapshotName root stamp, snapshotPath_of_nameless named stamp, isName,
      enters_of_kind? isDirectory⟩
  | some name =>
    obtain ⟨above, beside⟩ := Path.exists_beside named
    obtain ⟨_, found, _⟩ := kind?_eq_directory_iff.1 isDirectory
    exact ⟨above, snapshotName root stamp, beside.withFileName_eq _, isName,
      enters_of_beside beside found⟩

/-- A root with a name can be copied to the place for its snapshot. -/
theorem ready_snapshotPath (proper : d.Proper) (isDirectory : d.kind? root = some .directory)
    (named : root.fileName? = some name) (stamp : Stamp) :
    d.Ready root (snapshotPath root stamp) where
  proper := proper
  attaches := attaches_snapshotPath isDirectory stamp
  apart := apart_snapshotPath named d stamp
  isDirectory := by
    obtain ⟨rights, _, there⟩ := kind?_eq_directory_iff.1 isDirectory
    exact ⟨rights, there⟩

/-! ## Taking a snapshot -/

/-- **A snapshot that was taken** lies apart from its root and holds all that stood there. -/
theorem of_copied {d' : Disk} {stamp : Stamp} (proper : d.Proper)
    (isDirectory : d.kind? root = some .directory)
    (ran : (copyTree nestingLimit root (snapshotPath root stamp) : Run (Attempt Unit)) d =
      (.ok (), d')) :
    Apart (d.locate root) (d.locate (snapshotPath root stamp)) ∧
      d.Mirrors (d.locate root) (d.locate (snapshotPath root stamp)) d' ∧
      d'.Holds (d.locate root) (d.locate (snapshotPath root stamp)) := by
  cases named : root.fileName? with
  | none =>
    -- a root without a name cannot have been copied
    rw [snapshotPath_of_nameless named] at ran
    exact absurd rfl (copyTree_into_itself (isName_snapshotName _ _) _ ran)
  | some name =>
    have ready := ready_snapshotPath proper isDirectory named stamp
    obtain ⟨mirrors, holds⟩ := copiesDirectories_copyTree nestingLimit ready ran
    exact ⟨ready.apart, mirrors, holds rfl⟩

/-- What is recorded while a snapshot is taken. -/
def watchSnapshot (d : Disk) (root : Path) (stamp : Stamp) : Watch :=
  ((takeSnapshot root stamp : Watched (Except Failure Path)) ⟨d, [], []⟩).2

/-- A snapshot that is taken beside its root: it looks into nothing but the root as it was, changes
nothing in the root, and comes to an end because the root does. -/
structure TakenAside (d : Disk) (root : Path) (stamp : Stamp) : Prop where
  listed : ∀ location ∈ (d.watchSnapshot root stamp).listed,
    d.locate root <+: location ∧ ∃ rights, d.item? location = some (.directory rights)
  copied : ∀ location ∈ (d.watchSnapshot root stamp).copied,
    d.locate root <+: location ∧ ∃ rights content, d.item? location = some (.file rights content)
  changed : ∀ location,
    ((takeSnapshot root stamp : Run (Except Failure Path)) d).2.item? location ≠ d.item? location →
      d.locate (snapshotPath root stamp) <+: location ∧ ¬ d.locate root <+: location
  ends : ∃ levels, d.Shallow (d.locate root) levels ∧ ∀ depth, levels < depth →
    (copyTree depth root (snapshotPath root stamp) : Run (Attempt Unit)) d =
      (copyTree nestingLimit root (snapshotPath root stamp) : Run (Attempt Unit)) d

/-- A snapshot is a copy, and the disk is the one that the copy leaves. -/
theorem run_takeSnapshot {σ : Type} [FileSystem (StateM σ)] {root : Path} {stamp : Stamp}
    {s s' : σ} {copied : Attempt Unit}
    (ran : (copyTree nestingLimit root (snapshotPath root stamp) : StateM σ (Attempt Unit)) s =
      (copied, s')) :
    (takeSnapshot root stamp : StateM σ (Except Failure Path)) s =
      ((copied.map fun () => snapshotPath root stamp).mapError (.backup root), s') := by
  rw [takeSnapshot, run_bind ran]
  cases copied <;> rfl

/-- A root with a name has its snapshot taken beside it. -/
theorem takenAside_of_named (proper : d.Proper) (isDirectory : d.kind? root = some .directory)
    (named : root.fileName? = some name) (stamp : Stamp) : d.TakenAside root stamp := by
  have ready := ready_snapshotPath proper isDirectory named stamp
  have saw := Watched.looksInside_copyTree nestingLimit (w := ⟨d, [], []⟩) ready rfl
  have mirrors := (copiesDirectories_copyTree nestingLimit ready rfl).1
  refine ⟨fun location mem => ?_, fun location mem => ?_, fun location changed => ?_, ?_⟩
  · rw [watchSnapshot, run_takeSnapshot rfl] at mem
    exact (saw.listed location mem).resolve_left (by simp)
  · rw [watchSnapshot, run_takeSnapshot rfl] at mem
    exact (saw.copied location mem).resolve_left (by simp)
  · rw [run_takeSnapshot rfl] at changed
    have below := not_imp_comm.1 (mirrors.outside location) changed
    refine ⟨below, fun inside => ?_⟩
    rcases List.prefix_or_prefix_of_prefix inside below with around | around
    · exact ready.apart.1 around
    · exact ready.apart.2 around
  · obtain ⟨levels, shallow⟩ := proper.exists_shallow (d.locate root)
    refine ⟨levels, shallow, fun depth enough => ?_⟩
    rw [copyTree_eq_of_nestingLimit_le ready (Nat.le_max_right depth nestingLimit)]
    exact copyTree_eq_of_shallow ready shallow enough
      (Nat.lt_of_lt_of_le enough (Nat.le_max_left _ _))

/-- **A snapshot is taken beside its root exactly when the path of the root ends in a name.**  Else
the snapshot would lie in the root and be copied with it, and no copy succeeds, however deep it may
get. -/
theorem snapshot_beside_iff (proper : d.Proper) (isDirectory : d.kind? root = some .directory)
    (stamp : Stamp) :
    (¬ d.locate root <+: d.locate (snapshotPath root stamp) ↔ root.fileName?.isSome) ∧
      (root.fileName?.isSome → d.TakenAside root stamp) ∧
      (root.fileName? = none → ∀ depth,
        ((copyTree depth root (snapshotPath root stamp) : Run (Attempt Unit)) d).1 ≠ .ok ()) := by
  refine ⟨not_prefix_snapshotPath_iff d root stamp, fun isNamed => ?_, fun nameless depth => ?_⟩
  · obtain ⟨name, named⟩ := Option.isSome_iff_exists.1 isNamed
    exact takenAside_of_named proper isDirectory named stamp
  · rw [snapshotPath_of_nameless nameless]
    exact copyTree_into_itself (isName_snapshotName root stamp) depth rfl

/-- A disk with one stylesheet in a directory. -/
def leafDisk : Disk where
  entries := [("css", .directory {} [("a.css", .file newFile ".a \x7b\x7d".toUTF8)])]
  current := []

theorem proper_leafDisk : leafDisk.Proper := by
  have css : IsName "css" := ⟨by decide, by decide, by decide, by decide⟩
  have sheet : IsName "a.css" := ⟨by decide, by decide, by decide, by decide⟩
  exact .single css (.single sheet (.file _ _))

/-- Noon of the ninth of March 2024. -/
def springNoon : Stamp := ⟨2024, 3, 9, 12, 0, 0⟩

/-- The directory of the stylesheet has its snapshot beside it. -/
theorem snapshot_beside_leafDisk :
    leafDisk.Proper ∧ leafDisk.kind? ⟨"css"⟩ = some .directory ∧
      (Path.mk "css").fileName?.isSome = true ∧
      ¬ leafDisk.locate ⟨"css"⟩ <+: leafDisk.locate (snapshotPath ⟨"css"⟩ springNoon) ∧
      leafDisk.TakenAside ⟨"css"⟩ springNoon := by
  have found : leafDisk.find ⟨"css"⟩ = .ok ["css"] :=
    find_eq_ok_iff.2 ⟨⟨by simp, by decide, by decide⟩, rfl, rfl⟩
  have isDirectory : leafDisk.kind? ⟨"css"⟩ = some .directory := kind?_of_find found rfl
  have isNamed : (Path.mk "css").fileName?.isSome = true := by decide +kernel
  obtain ⟨outside, aside, _⟩ := snapshot_beside_iff proper_leafDisk isDirectory springNoon
  exact ⟨proper_leafDisk, isDirectory, isNamed, outside.2 isNamed, aside isNamed⟩

/-- The directory that the program works in has no name at the end of its path: its snapshot lies
inside and cannot be completed. -/
theorem snapshot_inside_leafDisk :
    leafDisk.Proper ∧ leafDisk.kind? ⟨"."⟩ = some .directory ∧
      leafDisk.locate ⟨"."⟩ <+: leafDisk.locate (snapshotPath ⟨"."⟩ springNoon) ∧
      ∀ depth, ((copyTree depth ⟨"."⟩ (snapshotPath ⟨"."⟩ springNoon) : Run (Attempt Unit))
        leafDisk).1 ≠ .ok () := by
  have nameless : (Path.mk ".").fileName? = none := by decide +kernel
  have found : leafDisk.find ⟨"."⟩ = .ok [] :=
    find_eq_ok_iff.2 ⟨⟨by simp, by decide, by decide⟩, rfl, rfl⟩
  refine ⟨proper_leafDisk, kind?_of_find found rfl, by decide +kernel, fun depth => ?_⟩
  rw [snapshotPath_of_nameless nameless]
  exact copyTree_into_itself (isName_snapshotName _ _) depth rfl

end Disk

end MediaSweep
