import MediaSweep.Proofs.Storage.Copying
import MediaSweep.Storage.Selection

/-!
# Which files a selection finds

Looking for stylesheets leaves the disk as it is.  What is found is a file that lies directly in the
root or in one of the subdirectories joined to it (`Selection.of_find`).  A subdirectory is any
path: joined to the root it leads into the root unless it is absolute or has two points among its
pieces (`Disk.prefix_locate_join`).
-/

namespace MediaSweep

set_option autoImplicit false

theorem mem_of_mem_dropRepeats {paths : List Path} {path : Path} (mem : path ∈ dropRepeats paths) :
    path ∈ paths := by
  fun_induction dropRepeats paths with
  | case1 => exact mem
  | case2 p => exact mem
  | case3 p q rest same ih =>
    rcases List.mem_cons.1 (ih mem) with rfl | behind
    · exact List.mem_cons_self
    · exact List.mem_cons_of_mem _ (List.mem_cons_of_mem _ behind)
  | case4 p q rest differ ih =>
    rcases List.mem_cons.1 mem with rfl | behind
    · exact List.mem_cons_self
    · exact List.mem_cons_of_mem _ (ih behind)

theorem mem_of_mem_orderPaths {paths : List Path} {path : Path} (mem : path ∈ orderPaths paths) :
    path ∈ paths :=
  List.mem_mergeSort.1 (mem_of_mem_dropRepeats mem)

namespace Disk

variable {d d' : Disk} {path : Path} {directories : List Path}

/-- A file that lies directly in one of some directories. -/
structure FoundIn (d : Disk) (directories : List Path) (path : Path) : Prop where
  isFile : d.kind? path = some .file
  directly : ∃ directory ∈ directories, ∃ name, IsName name ∧ path = directory.join name

theorem FoundIn.mono {others : List Path} (found : d.FoundIn directories path)
    (more : ∀ directory ∈ directories, directory ∈ others) : d.FoundIn others path := by
  obtain ⟨isFile, directory, mem, name, isName, rfl⟩ := found
  exact ⟨isFile, directory, more directory mem, name, isName, rfl⟩

theorem FoundIn.locate_eq (found : d.FoundIn directories path) (e : Disk) :
    ∃ directory ∈ directories, ∃ name, e.locate path = e.locate directory ++ [name] := by
  obtain ⟨directory, mem, name, isName, rfl⟩ := found.directly
  exact ⟨directory, mem, name, locate_join_name isName e directory⟩

end Disk

namespace Selection

open Disk (Run FoundIn)

variable {s : Selection} {d d' : Disk} {root directory : Path} {directories paths : List Path}
  {result : Except Failure (List Path)}

theorem run_keepFiles (paths : List Path) (d : Disk) :
    (keepFiles paths : Run (List Path)) d =
      (paths.filter fun path => d.kind? path = some .file, d) := by
  induction paths with
  | nil => rfl
  | cons path rest ih =>
    rw [keepFiles]
    have looked : (FileSystem.isFile path : Run Bool) d =
        (decide (d.kind? path = some .file), d) := rfl
    rw [run_bind looked, run_bind ih, List.filter_cons]
    rfl

theorem run_isDirectory (path : Path) (d : Disk) :
    (FileSystem.isDirectory path : Run Bool) d = (decide (d.kind? path = some .directory), d) :=
  rfl

/-- What is found in a directory that can be listed. -/
theorem run_inDirectory {entries : List (String × FileKind)}
    (lists : d.list directory = .ok entries) :
    (s.inDirectory directory : Run (Except Failure (List Path))) d =
      (.ok (((entries.map fun e => directory.join e.1).filter s.admits).filter
        fun path => d.kind? path = some .file), d) := by
  have listing : (FileSystem.list directory : Run _) d = (.ok entries, d) :=
    congrArg (·, d) lists
  rw [inDirectory, run_bind listing]
  dsimp only
  rw [run_bind (run_keepFiles _ d)]
  rfl

theorem of_inDirectory (proper : d.Proper)
    (ran : (s.inDirectory directory : Run (Except Failure (List Path))) d = (result, d')) :
    d' = d ∧ ∀ files, result = .ok files → ∀ path ∈ files, d.FoundIn [directory] path := by
  cases lists : d.list directory with
  | error fault =>
    have listing : (FileSystem.list directory : Run _) d = (.error fault, d) :=
      congrArg (·, d) lists
    rw [inDirectory, run_bind listing] at ran
    obtain ⟨rfl, rfl⟩ := Prod.mk.inj ran
    exact ⟨rfl, fun files done => by cases done⟩
  | ok entries =>
    rw [run_inDirectory lists] at ran
    obtain ⟨rfl, rfl⟩ := Prod.mk.inj ran
    refine ⟨rfl, fun files done path mem => ?_⟩
    obtain rfl := Except.ok.inj done
    obtain ⟨kept, isFile⟩ := List.mem_filter.1 mem
    obtain ⟨entry, isEntry, rfl⟩ := List.mem_map.1 (List.mem_filter.1 kept).1
    exact ⟨by simpa using isFile, directory, by simp, entry.1,
      ((Disk.of_list proper lists).2 entry isEntry).1, rfl⟩

theorem of_inDirectories (proper : d.Proper)
    (ran : (s.inDirectories directories : Run (Except Failure (List Path))) d = (result, d')) :
    d' = d ∧ ∀ files, result = .ok files → ∀ path ∈ files, d.FoundIn directories path := by
  induction directories generalizing d d' result with
  | nil =>
    obtain ⟨rfl, rfl⟩ := Prod.mk.inj ran
    refine ⟨rfl, fun files done path mem => ?_⟩
    obtain rfl := Except.ok.inj done
    cases mem
  | cons directory others ih =>
    have later : ∀ {path : Path}, d.FoundIn others path → d.FoundIn (directory :: others) path :=
      fun found => found.mono fun _ => List.mem_cons_of_mem _
    rw [inDirectories] at ran
    rw [run_bind (run_isDirectory directory d)] at ran
    split at ran
    · obtain ⟨first, d₁, looking, ran⟩ := exists_of_run_bind ran
      obtain ⟨rfl, here⟩ := of_inDirectory proper looking
      cases first with
      | error failure =>
        obtain ⟨rfl, rfl⟩ := Prod.mk.inj ran
        exact ⟨rfl, fun files done => by cases done⟩
      | ok found =>
        obtain ⟨behind, d₂, going, ran⟩ := exists_of_run_bind ran
        obtain ⟨same, elsewhere⟩ := ih proper going
        obtain ⟨rfl, rfl⟩ := Prod.mk.inj ran
        refine ⟨same, fun files done path mem => ?_⟩
        cases behind with
        | error failure => cases done
        | ok rest =>
          obtain rfl := Except.ok.inj done
          rcases List.mem_append.1 mem with first | last
          · exact (here found rfl path first).mono (by simp)
          · exact later (elsewhere rest rfl path last)
    · obtain ⟨rfl, elsewhere⟩ := ih proper ran
      exact ⟨rfl, fun files done path mem => later (elsewhere files done path mem)⟩

/-- **What is found are files directly in the root or in one of the subdirectories joined to it.**
-/
theorem of_find (proper : d.Proper)
    (ran : (s.find root : Run (Except Failure (List Path))) d = (result, d')) :
    d' = d ∧ ∀ files, result = .ok files → d.kind? root = some .directory ∧
      ∀ path ∈ files, d.FoundIn (root :: s.subdirectories.map root.join) path := by
  rw [find] at ran
  rw [run_bind (run_isDirectory root d)] at ran
  split at ran
  · rename_i isDirectory
    obtain ⟨looking, d₁, going, ran⟩ := exists_of_run_bind ran
    obtain ⟨same, found⟩ := of_inDirectories proper going
    obtain ⟨rfl, rfl⟩ := Prod.mk.inj ran
    refine ⟨same, fun files done => ⟨of_decide_eq_true isDirectory, fun path mem => ?_⟩⟩
    cases looking with
    | error failure => cases done
    | ok paths =>
      obtain rfl := Except.ok.inj done
      exact found paths rfl path (mem_of_mem_orderPaths mem)
  · obtain ⟨rfl, rfl⟩ := Prod.mk.inj ran
    exact ⟨rfl, fun files done => by cases done⟩

end Selection

/-! ## Subdirectories that stay in the root -/

/-- A text that leads into a directory when it is joined to its path. -/
structure StaysInside (inner : String) : Prop where
  relative : (Path.mk inner).isAbsolute = false
  not_up : ".." ∉ Path.pieces inner

theorem prefix_leadsTo {pieces : List String} (not_up : ".." ∉ pieces) (start : Location) :
    start <+: leadsTo start pieces := by
  induction pieces generalizing start with
  | nil => exact List.prefix_refl _
  | cons piece rest ih =>
    obtain ⟨here, behind⟩ := not_or.1 (mt List.mem_cons.2 not_up)
    rw [leadsTo_cons]
    refine List.IsPrefix.trans ?_ (ih behind _)
    rw [leadFrom]
    split
    · exact List.prefix_refl _
    · rw [if_neg (Ne.symm here)]
      exact List.prefix_append _ _

theorem Disk.prefix_locate_join {inner : String} (stays : StaysInside inner) (d : Disk)
    (root : Path) : d.locate root <+: d.locate (root.join inner) := by
  rw [locate_join stays.relative]
  exact prefix_leadsTo stays.not_up _

end MediaSweep
