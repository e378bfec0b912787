import MediaSweep.Proofs.Storage.Selection
import MediaSweep.Proofs.Storage.Snapshot
import MediaSweep.Proofs.Task.Sweep
import MediaSweep.Task.Blanket

/-!
# Getting back what was rewritten

A blanket run that backs up copies the whole root before it sweeps the first file, and tells of the
backup only when all of it was copied (`of_runBlanket`).  The files it sweeps were found before
that, in the root and in the subdirectories joined to it.  So what a run rewrites has its former
content in the backup if it lies in the root (`recoverable_runBlanket`), and all of it lies there
when no subdirectory leads out.  One that does is swept all the same, and not copied.
-/

namespace MediaSweep

set_option autoImplicit false

/-! ## Who tells of a backup -/

/-- The first letter of a detail. -/
def Notice.letter? : Notice → Option Char
  | .detail text => text.toList.head?
  | _ => none

theorem head?_toList_append {front : String} {c : Char} (first : front.toList.head? = some c)
    (back : String) : (front ++ back).toList.head? = some c := by
  obtain ⟨rest, whole⟩ := List.head?_eq_some_iff.1 first
  rw [String.toList_append, whole]
  rfl

theorem exists_head?_toString (n : Nat) :
    ∃ c : Char, c.isDigit ∧ (toString n).toList.head? = some c := by
  rw [Nat.toString_eq_repr, Nat.toList_repr]
  obtain ⟨c, rest, whole⟩ := List.exists_cons_of_ne_nil (Nat.toDigits_ne_nil (b := 10) (n := n))
  refine ⟨c, Nat.isDigit_of_mem_toDigits (b := 10) (by decide) (by decide) (n := n) ?_, ?_⟩
  · rw [whole]
    exact List.mem_cons_self
  · rw [whole]
    rfl

/-- The details told of a file begin with a tick or with a number. -/
theorem letter?_of_mem_tellOutcome {dryRun : Bool} {outcome : Except Failure SweepOutcome}
    {notice : Notice} (mem : notice ∈ Sweep.tellOutcome dryRun outcome) :
    notice.letter? ≠ some 'B' := by
  rw [Sweep.tellOutcome.eq_def] at mem
  split at mem
  · obtain rfl := List.mem_singleton.1 mem
    decide
  · rcases List.mem_cons.1 mem with rfl | mem
    · have tick : ∀ back : String, (Notice.detail (toString "✓ " ++ back)).letter? = some '✓' :=
        fun back => head?_toList_append (by decide) back
      rw [String.append_assoc, String.append_assoc, tick]
      decide
    · obtain rfl := List.mem_singleton.1 mem
      rename_i before _ _ _ _
      obtain ⟨c, isDigit, first⟩ := exists_head?_toString before
      have number : ∀ back : String, (Notice.detail (toString before ++ back)).letter? = some c :=
        fun back => head?_toList_append first back
      simp only [String.append_assoc]
      rw [number]
      rintro ⟨rfl⟩
      exact absurd isDigit (by decide)
  · obtain rfl := List.mem_singleton.1 mem
    simp [Notice.letter?]

/-- A task tells of the files that it sweeps and of the totals, and in other words than of a backup.
-/
theorem letter?_of_mem_notices {root : Path} {dryRun : Bool} {sweep : Sweep} {notice : Notice}
    (mem : notice ∈ sweep.notices root dryRun) : notice.letter? ≠ some 'B' := by
  obtain ⟨⟨path, outcome⟩, _, told⟩ := List.mem_flatMap.1 mem
  rcases List.mem_cons.1 told with rfl | told
  · simp [Notice.letter?]
  · exact letter?_of_mem_tellOutcome told

theorem letter?_of_mem_totals {dryRun : Bool} {sweep : Sweep} {notice : Notice}
    (mem : notice ∈ sweep.totals dryRun) : notice.letter? ≠ some 'B' := by
  have begins : ∀ {front back : String} {c : Char}, front.toList.head? = some c →
      (Notice.detail (front ++ back)).letter? = some c := fun first => head?_toList_append first _
  rw [Sweep.totals] at mem
  rcases List.mem_append.1 mem with listed | last
  · simp only [List.mem_cons, List.not_mem_nil, or_false] at listed
    rcases listed with rfl | rfl | rfl | rfl | rfl
    · decide
    · simp [Notice.letter?]
    · rw [begins (c := 'M') (by decide)]
      decide
    · rw [begins (c := 'L') (by decide)]
      decide
    · rw [String.append_assoc, String.append_assoc, begins (c := 'F') (by decide)]
      decide
  · split at last
    · cases last
    · obtain rfl := List.mem_singleton.1 last
      simp [Notice.letter?]

open Disk (Run)

variable {d d' d'' : Disk} {request : BlanketRequest} {usual : Settings} {stamp : Stamp}
  {settings : BlanketSettings} {report : Report} {copy : Path}

/-- A backup is only told of when the whole root was copied to that place. -/
theorem of_backUp {copied : List Notice}
    (ran : (backUp settings stamp : Run (List Notice)) d = (copied, d'))
    (told : .detail s!"Backup created in {copy.text}" ∈ copied) :
    copy = snapshotPath settings.root stamp ∧
      (copyTree nestingLimit settings.root copy : Run (Attempt Unit)) d = (.ok (), d') := by
  rw [backUp] at ran
  split at ran
  · cases copying : (copyTree nestingLimit settings.root (snapshotPath settings.root stamp) :
        Run (Attempt Unit)) d with
    | mk result d₁ =>
      rw [run_bind (Disk.run_takeSnapshot copying)] at ran
      cases result with
      | error fault =>
        obtain ⟨rfl, _⟩ := Prod.mk.inj ran
        simp at told
      | ok _ =>
        obtain ⟨rfl, rfl⟩ := Prod.mk.inj ran
        have same : copy.text = (snapshotPath settings.root stamp).text := by
          simp only [List.mem_singleton, Notice.detail.injEq, String.append_right_inj] at told
          exact told
        obtain rfl : copy = snapshotPath settings.root stamp := by
          cases copy
          exact congrArg Path.mk same
        exact ⟨rfl, copying⟩
  · obtain ⟨rfl, _⟩ := Prod.mk.inj ran
    cases told

/-- **A blanket run that tells of a backup** found its files first, then copied the whole root, and
then swept the files. -/
theorem of_runBlanket (proper : d.Proper)
    (ran : (runBlanket request usual stamp : Run Report) d = (report, d''))
    (told : .detail s!"Backup created in {copy.text}" ∈ report.notices) :
    ∃ files d' sweep options, d.kind? (request.settle usual.blanket).root = some .directory ∧
      (∀ path ∈ files, d.FoundIn ((request.settle usual.blanket).root ::
        (request.settle usual.blanket).subdirs.map (request.settle usual.blanket).root.join) path) ∧
      copy = snapshotPath (request.settle usual.blanket).root stamp ∧
      (copyTree nestingLimit (request.settle usual.blanket).root copy : Run (Attempt Unit)) d =
        (.ok (), d') ∧
      (sweepFiles options files : Run Sweep) d' = (sweep, d'') := by
  have foreign : ∀ {notice : Notice}, notice.letter? ≠ some 'B' →
      notice ≠ .detail s!"Backup created in {copy.text}" := by
    rintro notice other rfl
    exact other (head?_toList_append (by decide) _)
  rw [runBlanket] at ran
  dsimp only at ran
  obtain ⟨looking, d₀, looked, ran⟩ := exists_of_run_bind ran
  obtain ⟨rfl, found⟩ := Selection.of_find proper looked
  cases looking with
  | error failure =>
    obtain ⟨rfl, _⟩ := Prod.mk.inj ran
    simp [Report.stopped] at told
  | ok files =>
    obtain ⟨isDirectory, inside⟩ := found files rfl
    obtain ⟨copied, d₁, backing, ran⟩ := exists_of_run_bind ran
    obtain ⟨sweep, d₂, sweeping, ran⟩ := exists_of_run_bind ran
    obtain ⟨rfl, rfl⟩ := Prod.mk.inj ran
    have toldHere : .detail s!"Backup created in {copy.text}" ∈ copied := by
      rcases List.mem_append.1 told with told | told
      · rcases List.mem_append.1 told with told | told
        · rcases List.mem_append.1 told with told | told
          · rcases List.mem_append.1 told with told | told
            · simp at told
            · exact told
          · simp at told
        · exact absurd rfl (foreign (letter?_of_mem_notices told))
      · exact absurd rfl (foreign (letter?_of_mem_totals told))
    obtain ⟨place, copying⟩ := of_backUp backing toldHere
    exact ⟨files, d₁, sweep, _, isDirectory, inside, place, copying, sweeping⟩

/-! ## What is kept in the backup -/

/-- The content of the file at a location. -/
def Disk.content? (d : Disk) (location : Location) : Option ByteArray :=
  (d.item? location).bind Item.content?

/-- A file is no longer what it was. -/
def Disk.Rewritten (d d' : Disk) (location : Location) (bytes : ByteArray) : Prop :=
  d.content? location = some bytes ∧ d'.content? location ≠ some bytes

theorem Disk.isSome_of_content? {location : Location} {bytes : ByteArray}
    (held : d.content? location = some bytes) : (d.item? location).isSome := by
  obtain ⟨item, there, _⟩ := Option.bind_eq_some_iff.1 held
  exact Option.isSome_iff_exists.2 ⟨item, there⟩

/-- Nothing lies where nothing is. -/
theorem Disk.not_prefix_of_fresh {target location : Location} (fresh : d.item? target = none)
    (there : (d.item? location).isSome) : ¬ target <+: location := by
  intro below
  have := isSome_item?_above below there
  rw [fresh] at this
  cases this

/-- **What a blanket run rewrites is in its backup**, as far as it lies in the root.  The files that
it rewrites lie directly in the root or in a subdirectory joined to it, so they all lie in the root
when no subdirectory leads out of it. -/
theorem recoverable_runBlanket (proper : d.Proper)
    (ran : (runBlanket request usual stamp : Run Report) d = (report, d''))
    (told : .detail s!"Backup created in {copy.text}" ∈ report.notices)
    (fresh : d.item? (d.locate copy) = none) :
    ∀ location bytes, d.Rewritten d'' location bytes →
      (∃ directory ∈ (request.settle usual.blanket).root ::
          (request.settle usual.blanket).subdirs.map (request.settle usual.blanket).root.join,
        ∃ name, location = d.locate directory ++ [name]) ∧
      (∀ inner, location = d.locate (request.settle usual.blanket).root ++ inner →
        d''.content? (d.locate copy ++ inner) = some bytes) ∧
      ((∀ sub ∈ (request.settle usual.blanket).subdirs, StaysInside sub) →
        d.locate (request.settle usual.blanket).root <+: location) := by
  obtain ⟨files, d₁, sweep, options, isDirectory, found, rfl, copying, sweeping⟩ :=
    of_runBlanket proper ran told
  set settings := request.settle usual.blanket
  obtain ⟨apart, mirrors, holds⟩ := Disk.of_copied proper isDirectory copying
  obtain ⟨_, kept⟩ := of_sweepFiles sweeping
  have same : ∀ path, d₁.locate path = d.locate path := Disk.locate_eq mirrors.within.current_eq
  have present : ∀ path ∈ files, (d.item? (d.locate path)).isSome := fun path mem => by
    obtain ⟨item, stands, _⟩ := Disk.of_kind? (found path mem).isFile
    exact Option.isSome_iff_exists.2 ⟨item, stands⟩
  intro location bytes rewritten
  obtain ⟨held, changed⟩ := rewritten
  have outside := Disk.not_prefix_of_fresh fresh (Disk.isSome_of_content? held)
  have swept : ∃ path ∈ files, location = d.locate path := by
    by_contra none_swept
    refine changed ?_
    rw [Disk.content?, kept, mirrors.outside location outside]
    · exact held
    · intro path mem at_path
      exact none_swept ⟨path, mem, at_path.trans (same path)⟩
  obtain ⟨path, mem, rfl⟩ := swept
  refine ⟨(found path mem).locate_eq d, fun inner below => ?_, fun stay => ?_⟩
  · obtain ⟨item, stands, isContent⟩ := Option.bind_eq_some_iff.1 held
    rw [below] at stands
    obtain ⟨copied, copyStands, copyContent⟩ :=
      holds inner item (by rwa [mirrors.item?_source apart])
    rw [Disk.content?, kept, copyStands, Option.bind_some, copyContent, isContent]
    intro other otherMem at_copy
    rw [same] at at_copy
    exact Disk.not_prefix_of_fresh fresh (present other otherMem) ⟨inner, at_copy⟩
  · obtain ⟨directory, listed, name, place⟩ := (found path mem).locate_eq d
    rw [place]
    refine List.IsPrefix.trans ?_ (List.prefix_append _ _)
    rcases List.mem_cons.1 listed with rfl | joined
    · exact List.prefix_refl _
    · obtain ⟨sub, isSub, rfl⟩ := List.mem_map.1 joined
      exact Disk.prefix_locate_join (stay sub isSub) d settings.root

/-! ## A subdirectory that leads out of the root -/

namespace Disk

/-- A stylesheet with a block for printing. -/
def printText : String := ".a \x7b\x7d\n@media print \x7b\n\x7d"

/-- A stylesheet with a block for screens. -/
def screenText : String := ".b \x7b\x7d\n@media screen \x7b\n\x7d"

/-- A stylesheet in each of two directories, and what else there is. -/
def pairDisk (first second : String) (others : List (String × Node)) : Disk where
  entries := ("css", .directory {} [("a.css", .file newFile first.toUTF8)]) ::
    ("other", .directory {} [("b.css", .file newFile second.toUTF8)]) :: others
  current := []

/-- The name of the backup of `css`. -/
def pairName : String := "css.backup.20240309_120000"

/-- The same disk with the backup of `css`, made before anything was rewritten. -/
def backedDisk (first second : String) : Disk :=
  pairDisk first second [(pairName, .directory {} [("a.css", .file newFile printText.toUTF8)])]

/-- Clean the stylesheets in `css` and in a directory beside it. -/
def pairRequest : BlanketRequest where
  root := some ⟨"css"⟩
  subdirs := ["../other"]
  extension := none
  noBackup := false
  maxBlankLines := none
  dryRun := false

variable {first second : String} {others held : List (String × Node)}

theorem proper_pairDisk : (pairDisk first second []).Proper := by
  have css : IsName "css" := ⟨by decide, by decide, by decide, by decide⟩
  have other : IsName "other" := ⟨by decide, by decide, by decide, by decide⟩
  have a : IsName "a.css" := ⟨by decide, by decide, by decide, by decide⟩
  have b : IsName "b.css" := ⟨by decide, by decide, by decide, by decide⟩
  have distinct : ["css", "other"].Nodup := by decide
  exact .directory {} (List.forall_mem_cons.2 ⟨css, List.forall_mem_singleton.2 other⟩) distinct
    (List.forall_mem_cons.2
      ⟨.single a (.file _ _), List.forall_mem_singleton.2 (.single b (.file _ _))⟩)

theorem find_pairDisk_css : (pairDisk first second others).find ⟨"css"⟩ = .ok ["css"] :=
  find_eq_ok_iff.2 ⟨⟨by simp, by decide, by decide⟩, rfl, rfl⟩

theorem find_pairDisk_a :
    (pairDisk first second others).find ⟨"css/a.css"⟩ = .ok ["css", "a.css"] :=
  find_eq_ok_iff.2 ⟨⟨by simp, by decide, by decide⟩, rfl, rfl⟩

theorem find_pairDisk_other :
    (pairDisk first second others).find ⟨"css/../other"⟩ = .ok ["other"] :=
  find_eq_ok_iff.2 ⟨⟨by simp, by decide, by decide⟩, rfl, rfl⟩

theorem find_pairDisk_b :
    (pairDisk first second others).find ⟨"css/../other/b.css"⟩ = .ok ["other", "b.css"] :=
  find_eq_ok_iff.2 ⟨⟨by simp, by decide, by decide⟩, rfl, rfl⟩

theorem list_pairDisk_css : (pairDisk first second others).list ⟨"css"⟩ = .ok [("a.css", .file)] :=
  list_of_find find_pairDisk_css rfl rfl

theorem list_pairDisk_other :
    (pairDisk first second others).list ⟨"css/../other"⟩ = .ok [("b.css", .file)] :=
  list_of_find find_pairDisk_other rfl rfl

theorem begin_pairDisk {path : Path} (usable : path.IsUsable) (relative : path.isAbsolute = false) :
    (pairDisk first second others).begin path = .ok ([], Path.pieces path.text) := by
  rw [begin_eq, if_neg (by simp [usable.no_nul]), if_neg usable.nonempty,
    if_neg (Nat.not_le_of_lt usable.short)]
  simp [startOf, relative, pairDisk, Trail.extend]

theorem writeBytes_pairDisk_a (content : String) :
    (pairDisk first second [(pairName, .directory {} held)]).writeBytes ⟨"css/a.css"⟩
        content.toUTF8 =
      .ok (pairDisk content second [(pairName, .directory {} held)]) := by
  rw [writeBytes, writable, place, begin_pairDisk ⟨by simp, by decide, by decide⟩ (by decide)]
  rfl

theorem writeBytes_pairDisk_b (content : String) :
    (pairDisk first second [(pairName, .directory {} held)]).writeBytes ⟨"css/../other/b.css"⟩
        content.toUTF8 =
      .ok (pairDisk first content [(pairName, .directory {} held)]) := by
  rw [writeBytes, writable, place, begin_pairDisk ⟨by simp, by decide, by decide⟩ (by decide)]
  rfl

theorem makeDir_pairDisk :
    (pairDisk first second []).makeDir ⟨pairName⟩ =
      .ok (pairDisk first second [(pairName, .directory {} [])]) := by
  rw [makeDir, place, begin_pairDisk ⟨by simp [pairName], by decide, by decide⟩ (by decide)]
  rfl

theorem copyFile_pairDisk :
    (pairDisk first second [(pairName, .directory {} [])]).copyFile ⟨"css/a.css"⟩
        ((Path.mk pairName).join "a.css") =
      .ok (pairDisk first second
        [(pairName, .directory {} [("a.css", .file newFile first.toUTF8)])]) := by
  have joined : (Path.mk pairName).join "a.css" = ⟨"css.backup.20240309_120000/a.css"⟩ := by
    decide +kernel
  have read : (pairDisk first second [(pairName, .directory {} [])]).resolve ⟨"css/a.css"⟩ =
      .ok (.file newFile first.toUTF8) := resolve_of_find find_pairDisk_a rfl
  rw [joined, copyFile, readBytes, read, writable, place,
    begin_pairDisk ⟨by simp, by decide, by decide⟩ (by decide)]
  rfl

/-- The stylesheets found in `css` and in the subdirectory that leads out of it. -/
theorem run_find_pairDisk :
    ((Selection.of ["../other"] "css").find ⟨"css"⟩ : Run (Except Failure (List Path)))
      (pairDisk first second others) =
        (.ok [⟨"css/../other/b.css"⟩, ⟨"css/a.css"⟩], pairDisk first second others) := by
  have joined : (Selection.of ["../other"] "css").subdirectories.map (Path.mk "css").join =
      [⟨"css/../other"⟩] := by decide +kernel
  have admitsA : ([("a.css", FileKind.file)].map fun e => (Path.mk "css").join e.1).filter
      (Selection.of ["../other"] "css").admits = [⟨"css/a.css"⟩] := by decide +kernel
  have admitsB : ([("b.css", FileKind.file)].map fun e => (Path.mk "css/../other").join e.1).filter
      (Selection.of ["../other"] "css").admits = [⟨"css/../other/b.css"⟩] := by decide +kernel
  have inCss : ((Selection.of ["../other"] "css").inDirectory ⟨"css"⟩ :
      Run (Except Failure (List Path))) (pairDisk first second others) =
        (.ok [⟨"css/a.css"⟩], pairDisk first second others) := by
    rw [Selection.run_inDirectory list_pairDisk_css, admitsA, List.filter_cons_of_pos]
    · rfl
    · rw [kind?_of_find find_pairDisk_a rfl]
      rfl
  have inOther : ((Selection.of ["../other"] "css").inDirectory ⟨"css/../other"⟩ :
      Run (Except Failure (List Path))) (pairDisk first second others) =
        (.ok [⟨"css/../other/b.css"⟩], pairDisk first second others) := by
    rw [Selection.run_inDirectory list_pairDisk_other, admitsB, List.filter_cons_of_pos]
    · rfl
    · rw [kind?_of_find find_pairDisk_b rfl]
      rfl
  have inLast : ((Selection.of ["../other"] "css").inDirectories [⟨"css/../other"⟩] :
      Run (Except Failure (List Path))) (pairDisk first second others) =
        (.ok [⟨"css/../other/b.css"⟩], pairDisk first second others) := by
    rw [Selection.inDirectories, run_bind (Selection.run_isDirectory _ _),
      kind?_of_find find_pairDisk_other rfl, if_pos (by rfl), run_bind inOther]
    rfl
  have inBoth : ((Selection.of ["../other"] "css").inDirectories [⟨"css"⟩, ⟨"css/../other"⟩] :
      Run (Except Failure (List Path))) (pairDisk first second others) =
        (.ok [⟨"css/a.css"⟩, ⟨"css/../other/b.css"⟩], pairDisk first second others) := by
    rw [Selection.inDirectories, run_bind (Selection.run_isDirectory _ _),
      kind?_of_find find_pairDisk_css rfl, if_pos (by rfl), run_bind inCss]
    dsimp only
    rw [run_bind inLast]
    rfl
  have ordered : orderPaths [⟨"css/a.css"⟩, ⟨"css/../other/b.css"⟩] =
      [⟨"css/../other/b.css"⟩, ⟨"css/a.css"⟩] := by
    have up : (Path.mk "css/../other/b.css").before ⟨"css/a.css"⟩ = true := by decide +kernel
    have differ : (Path.mk "css/../other/b.css").same ⟨"css/a.css"⟩ = false := by decide +kernel
    simp [orderPaths, List.mergeSort, List.MergeSort.Internal.splitInTwo, up, dropRepeats, differ]
  rw [Selection.find, run_bind (Selection.run_isDirectory _ _), kind?_of_find find_pairDisk_css rfl,
    if_pos (by rfl), joined, run_bind inBoth, Except.map, ordered]
  rfl

theorem snapshotPath_css : snapshotPath ⟨"css"⟩ springNoon = ⟨pairName⟩ := by
  decide +kernel

theorem run_takeSnapshot_pairDisk :
    (takeSnapshot ⟨"css"⟩ springNoon : Run (Except Failure Path)) (pairDisk printText second []) =
      (.ok ⟨pairName⟩, backedDisk printText second) := by
  have made : (FileSystem.makeDirs ⟨pairName⟩ : Run (Attempt Unit)) (pairDisk printText second []) =
      (.ok (), pairDisk printText second [(pairName, .directory {} [])]) := by
    have isDirectory : (pairDisk printText second []).kind? ⟨"css"⟩ = some .directory :=
      kind?_of_find find_pairDisk_css rfl
    have attaches := attaches_snapshotPath isDirectory springNoon
    rw [snapshotPath_css] at attaches
    rw [attaches.makeDirs_eq, makeDir_pairDisk]
  have lists : (FileSystem.list ⟨"css"⟩ : Run _)
      (pairDisk printText second [(pairName, .directory {} [])]) =
        (.ok [("a.css", .file)], pairDisk printText second [(pairName, .directory {} [])]) :=
    congrArg (·, _) list_pairDisk_css
  have copied : (copyEntry (copyTree 4095) ⟨"css"⟩ ⟨pairName⟩ "a.css" .file : Run (Attempt Unit))
      (pairDisk printText second [(pairName, .directory {} [])]) =
        (.ok (), backedDisk printText second) := by
    have joined : (Path.mk "css").join "a.css" = ⟨"css/a.css"⟩ := by decide +kernel
    have copying := change_eq (·.copyFile ⟨"css/a.css"⟩ ((Path.mk pairName).join "a.css"))
      (pairDisk printText second [(pairName, .directory {} [])])
    rw [copyFile_pairDisk] at copying
    rw [copyEntry, joined]
    exact copying
  have whole : (copyTree nestingLimit ⟨"css"⟩ ⟨pairName⟩ : Run (Attempt Unit))
      (pairDisk printText second []) = (.ok (), backedDisk printText second) := by
    rw [nestingLimit, copyTree, run_bind made]
    dsimp only
    rw [run_bind lists]
    dsimp only
    rw [copyEntries_cons, run_bind copied]
    rfl
  rw [← snapshotPath_css] at whole
  rw [run_takeSnapshot whole, snapshotPath_css]
  rfl

/-- The run copies `css`, tells of it, and rewrites both stylesheets. -/
theorem run_pairDisk : ∃ report,
    (runBlanket pairRequest {} springNoon : Run Report) (pairDisk printText screenText []) =
      (report, backedDisk ".a \x7b\x7d" ".b \x7b\x7d") ∧
    .detail s!"Backup created in {(Path.mk pairName).text}" ∈ report.notices := by
  have settled : pairRequest.settle ({} : Settings).blanket =
      ⟨⟨"css"⟩, ["../other"], "css", true, 2⟩ := by decide +kernel
  have backed : (backUp ⟨⟨"css"⟩, ["../other"], "css", true, 2⟩ springNoon : Run (List Notice))
      (pairDisk printText screenText []) =
        ([.detail s!"Backup created in {pairName}"], backedDisk printText screenText) := by
    rw [backUp, if_pos rfl, run_bind run_takeSnapshot_pairDisk]
    rfl
  obtain ⟨cleanA, foundA⟩ : (removeAllMedia printText 2).text = ".a \x7b\x7d" ∧
      (removeAllMedia printText 2).removed ≠ [] := by decide +kernel
  obtain ⟨cleanB, foundB⟩ : (removeAllMedia screenText 2).text = ".b \x7b\x7d" ∧
      (removeAllMedia screenText 2).removed ≠ [] := by decide +kernel
  have sweptB : (sweepFile ⟨2, false⟩ ⟨"css/../other/b.css"⟩ : Run _)
      (backedDisk printText screenText) =
        (.ok (.ofCleanup screenText (removeAllMedia screenText 2)),
          backedDisk printText ".b \x7b\x7d") := by
    refine run_sweepFile (readBytes_of_find find_pairDisk_b rfl rfl) foundB rfl ?_
    rw [cleanB]
    exact writeBytes_pairDisk_b _
  have sweptA : (sweepFile ⟨2, false⟩ ⟨"css/a.css"⟩ : Run _) (backedDisk printText ".b \x7b\x7d") =
      (.ok (.ofCleanup printText (removeAllMedia printText 2)),
        backedDisk ".a \x7b\x7d" ".b \x7b\x7d") := by
    refine run_sweepFile (readBytes_of_find find_pairDisk_a rfl rfl) foundA rfl ?_
    rw [cleanA]
    exact writeBytes_pairDisk_a _
  have last : (sweepFiles ⟨2, false⟩ [⟨"css/a.css"⟩] : Run Sweep)
      (backedDisk printText ".b \x7b\x7d") =
        ([(⟨"css/a.css"⟩, .ok (.ofCleanup printText (removeAllMedia printText 2)))],
          backedDisk ".a \x7b\x7d" ".b \x7b\x7d") := by
    rw [sweepFiles, run_bind sweptA]
    rfl
  have swept : (sweepFiles ⟨2, false⟩ [⟨"css/../other/b.css"⟩, ⟨"css/a.css"⟩] : Run Sweep)
      (backedDisk printText screenText) =
        ([(⟨"css/../other/b.css"⟩, .ok (.ofCleanup screenText (removeAllMedia screenText 2))),
          (⟨"css/a.css"⟩, .ok (.ofCleanup printText (removeAllMedia printText 2)))],
        backedDisk ".a \x7b\x7d" ".b \x7b\x7d") := by
    rw [sweepFiles, run_bind sweptB, run_bind last]
    rfl
  rw [runBlanket, settled]
  dsimp only
  rw [run_bind run_find_pairDisk]
  dsimp only
  rw [run_bind backed]
  refine ⟨_, run_bind swept _, ?_⟩
  simp [Report.done]

theorem rewritten_pairDisk :
    (pairDisk printText screenText []).Rewritten (backedDisk ".a \x7b\x7d" ".b \x7b\x7d")
      ["css", "a.css"] printText.toUTF8 ∧
    (pairDisk printText screenText []).Rewritten (backedDisk ".a \x7b\x7d" ".b \x7b\x7d")
      ["other", "b.css"] screenText.toUTF8 := by
  refine ⟨⟨rfl, fun same => ?_⟩, rfl, fun same => ?_⟩
  · exact absurd (String.toByteArray_inj.1 (Option.some.inj same)) (by decide)
  · exact absurd (String.toByteArray_inj.1 (Option.some.inj same)) (by decide)

end Disk

open Disk in
/-- The stylesheet in the root is rewritten, and its content is in the backup. -/
theorem recoverable_pairDisk :
    (pairDisk printText screenText []).Rewritten (backedDisk ".a \x7b\x7d" ".b \x7b\x7d")
      ["css", "a.css"] printText.toUTF8 ∧
    (backedDisk ".a \x7b\x7d" ".b \x7b\x7d").content? [pairName, "a.css"] =
      some printText.toUTF8 := by
  obtain ⟨report, ran, told⟩ := run_pairDisk
  have kept := recoverable_runBlanket proper_pairDisk ran told rfl _ _ rewritten_pairDisk.1
  exact ⟨rewritten_pairDisk.1, kept.2.1 ["a.css"] rfl⟩

open Disk in
/-- The stylesheet beside the root is rewritten in the same run, and its content is nowhere in the
backup. -/
theorem not_recoverable_pairDisk :
    (∃ report, (runBlanket pairRequest {} springNoon : Run Report)
        (pairDisk printText screenText []) = (report, backedDisk ".a \x7b\x7d" ".b \x7b\x7d") ∧
      .detail s!"Backup created in {(Path.mk pairName).text}" ∈ report.notices) ∧
    (pairDisk printText screenText []).item? [pairName] = none ∧
    (pairDisk printText screenText []).Rewritten (backedDisk ".a \x7b\x7d" ".b \x7b\x7d")
      ["other", "b.css"] screenText.toUTF8 ∧
    ∀ inner, (backedDisk ".a \x7b\x7d" ".b \x7b\x7d").content? (pairName :: inner) ≠
      some screenText.toUTF8 := by
  refine ⟨run_pairDisk, rfl, rewritten_pairDisk.2, fun inner held => ?_⟩
  cases inner with
  | nil => cases held
  | cons name rest =>
    by_cases same : name = "a.css"
    · subst same
      cases rest with
      | nil => exact absurd (String.toByteArray_inj.1 (Option.some.inj held)) (by decide)
      | cons further behind => cases held
    · have missing : List.lookup name [("a.css", Node.file newFile printText.toUTF8)] = none := by
        rw [List.lookup_cons, beq_eq_false_iff_ne.2 same]
        rfl
      change (((List.lookup name [("a.css", Node.file newFile printText.toUTF8)]).bind
        (Node.at? rest)).map Node.item).bind Item.content? = _ at held
      rw [missing] at held
      cases held

end MediaSweep
