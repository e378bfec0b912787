import MediaSweep.Proofs.Sheet.BlankLines
import MediaSweep.Proofs.Sheet.SecondPass
import MediaSweep.Proofs.Task.Isolation
import MediaSweep.Task.Compact
import MediaSweep.Task.Locate
import MediaSweep.Task.Targeted

/-!
# What the tasks write

Four tasks work on stylesheets (`SheetTask`): one takes out the blocks at some lines, one cuts blank
runs, one lists the blocks, and one takes out all blocks under a root.  Each takes up some paths and
edits what they lead to (`SheetTask.sheets`, `SheetTask.edit`).  When no copy of a root is made,
these edits are all that a task does to a disk (`SheetTask.snd_on_run`), so what it writes can be
told from the disk that it starts from (`SheetTask.writesExactly`): a file that is listed or found
several times, under whatever names, is edited once.
-/

namespace MediaSweep

set_option autoImplicit false

/-! ## Looking for stylesheets -/

namespace FaultPlan

variable {plan : FaultPlan} {α β : Type} {d : Disk} {first : plan.Run α}

/-- A first step that leaves the disk as it is. -/
theorem on_bind_of_looks (looks : (first.on d).2 = d) (next : α → plan.Run β) :
    (first >>= next).on d = (next (first.on d).1).on d := by
  have ran : first.on d = ((first.on d).1, d) := Prod.ext rfl looks
  exact on_bind ran next

theorem on_isDirectory (plan : FaultPlan) (path : Path) (d : Disk) :
    (FileSystem.isDirectory path : plan.Run Bool).on d =
      (decide (d.kind? path = some .directory), d) :=
  rfl

theorem on_isFile (plan : FaultPlan) (path : Path) (d : Disk) :
    (FileSystem.isFile path : plan.Run Bool).on d = (decide (d.kind? path = some .file), d) :=
  rfl

theorem on_list (plan : FaultPlan) (path : Path) (d : Disk) :
    (FileSystem.list path : plan.Run (Attempt (List (String × FileKind)))).on d =
      (d.list path, d) :=
  rfl

theorem snd_on_keepFiles (plan : FaultPlan) (paths : List Path) (d : Disk) :
    ((Selection.keepFiles paths : plan.Run (List Path)).on d).2 = d := by
  induction paths with
  | nil => rfl
  | cons path rest ih =>
    rw [Selection.keepFiles, on_bind (on_isFile plan path d), on_bind_of_looks ih]
    rfl

theorem snd_on_inDirectory (plan : FaultPlan) (s : Selection) (directory : Path) (d : Disk) :
    ((s.inDirectory directory : plan.Run (Except Failure (List Path))).on d).2 = d := by
  rw [Selection.inDirectory, on_bind (on_list plan directory d)]
  cases d.list directory with
  | error fault => rfl
  | ok entries =>
    dsimp only
    rw [on_bind_of_looks (plan.snd_on_keepFiles _ d)]
    rfl

theorem snd_on_inDirectories (plan : FaultPlan) (s : Selection) (directories : List Path)
    (d : Disk) :
    ((s.inDirectories directories : plan.Run (Except Failure (List Path))).on d).2 = d := by
  induction directories with
  | nil => rfl
  | cons directory others ih =>
    rw [Selection.inDirectories, on_bind (on_isDirectory plan directory d)]
    split
    · rw [on_bind_of_looks (plan.snd_on_inDirectory s directory d)]
      cases ((s.inDirectory directory : plan.Run (Except Failure (List Path))).on d).1 with
      | error failure => rfl
      | ok files =>
        dsimp only
        rw [on_bind_of_looks ih]
        rfl
    · exact ih

/-- **Looking for stylesheets leaves the disk as it is.** -/
theorem snd_on_find (plan : FaultPlan) (s : Selection) (root : Path) (d : Disk) :
    ((s.find root : plan.Run (Except Failure (List Path))).on d).2 = d := by
  rw [Selection.find, on_bind (on_isDirectory plan root d)]
  split
  · rw [on_bind_of_looks (plan.snd_on_inDirectories s _ d)]
    rfl
  · rfl

end FaultPlan

/-! ## The tasks -/

/-- A task on stylesheets, with its arguments. -/
inductive SheetTask where
  | targeted (request : TargetedRequest)
  | compact (files : List Path) (mostBlank : Nat) (dryRun : Bool)
  | locate (file : Path) (asJson : Bool)
  | blanket (request : BlanketRequest) (stamp : Stamp)

/-- The lines of the blocks that are to be taken out. -/
def TargetedRequest.settledLines (request : TargetedRequest) (settings : Settings) : List Nat :=
  if request.lines = [] then settings.targeted.lines else request.lines

namespace SheetTask

/-- Run a task with the settings in force. -/
def run {m : Type → Type} [Monad m] [FileSystem m] (settings : Settings) : SheetTask → m Report
  | targeted request => runTargeted request settings
  | compact files mostBlank dryRun => runCompact files mostBlank dryRun
  | locate file asJson => runLocate file asJson
  | blanket request stamp => runBlanket request settings stamp

/-- Whether nothing is to be written. -/
def isDry : SheetTask → Bool
  | targeted request => request.dryRun
  | compact _ _ dryRun => dryRun
  | locate _ _ => true
  | blanket request _ => request.dryRun

/-- No copy of a root is to be made. -/
def NoBackup (settings : Settings) : SheetTask → Prop
  | blanket request _ => (request.settle settings.blanket).backup = false
  | _ => True

/-- The paths that a task takes up: the ones that it is given, or the ones that it finds. -/
def sheets (plan : FaultPlan) (settings : Settings) (d : Disk) : SheetTask → List Path
  | targeted request => (request.file.or settings.targeted.file).toList
  | compact files _ _ => files
  | locate file _ => [file]
  | blanket request _ =>
    let usual := request.settle settings.blanket
    match (((Selection.of usual.subdirs usual.extension).find usual.root :
      plan.Run (Except Failure (List Path))).on d).1 with
    | .ok files => files
    | .error _ => []

/-- What a task is to change in the text of a stylesheet: one text, and the text in its place. -/
inductive Changes (settings : Settings) : SheetTask → String → String → Prop
  /-- Some requested block is in the text. -/
  | targeted {request : TargetedRequest} {text : String}
      (located : (removeBlocksAt text (request.settledLines settings)).located ≠ []) :
      Changes settings (.targeted request) text
        (removeBlocksAt text (request.settledLines settings)).text
  /-- Some blank run in the text is too long. -/
  | compact {files : List Path} {mostBlank : Nat} {dryRun : Bool} {text : String}
      {piece : List String} (inside : piece <:+: Text.toLines text)
      (blank : ∀ line ∈ piece, Text.isBlankLine line = true)
      (long : max mostBlank 1 < piece.length) :
      Changes settings (.compact files mostBlank dryRun) text (compactBlankLines text mostBlank)
  /-- The text holds the word `@media`. -/
  | blanket {request : BlanketRequest} {stamp : Stamp} {text : String}
      (media : mediaWord <:+: text.toList) :
      Changes settings (.blanket request stamp) text
        (removeAllMedia text (request.settle settings.blanket).maxBlankLines).text

end SheetTask

/-! ## Tasks as edits -/

/-- The text that takes the place of another one when blocks are taken out by their lines; nothing
when it is left as it is. -/
def targetedEdit (lines : List Nat) (dryRun : Bool) (text : String) : Option String :=
  let cleanup := removeBlocksAt text lines
  if cleanup.located = [] ∨ dryRun then none else some cleanup.text

theorem targetedEdit_nil (dryRun : Bool) (text : String) : targetedEdit [] dryRun text = none := by
  rw [targetedEdit]
  exact if_pos (.inl rfl)

/-- The text that takes the place of another one when blank runs are cut; nothing when it is left as
it is. -/
def compactEdit (mostBlank : Nat) (dryRun : Bool) (text : String) : Option String :=
  if compactRuns mostBlank (Text.toLines text) = Text.toLines text ∨ dryRun then none
  else some (compactBlankLines text mostBlank)

namespace SheetTask

/-- The text that a task puts in the place of another one, if it does. -/
def edit (settings : Settings) : SheetTask → String → Option String
  | targeted request => targetedEdit (request.settledLines settings) request.dryRun
  | compact _ mostBlank dryRun => compactEdit mostBlank dryRun
  | locate _ _ => fun _ => none
  | blanket request _ =>
    SweepOptions.edit ⟨(request.settle settings.blanket).maxBlankLines, request.dryRun⟩

end SheetTask

namespace FaultPlan

variable {plan : FaultPlan} {d : Disk}

/-- Taking blocks out of a file is editing it, and the task stops only if the file stays as it is.
-/
theorem on_cleanAt (plan : FaultPlan) (file : Path) (lines : List Nat) (dryRun : Bool) (d : Disk) :
    ((cleanAt file lines dryRun : plan.Run Report).on d).2 =
        plan.edited (targetedEdit lines dryRun) d file ∧
      (((cleanAt file lines dryRun : plan.Run Report).on d).1.stop?.isSome →
        ((cleanAt file lines dryRun : plan.Run Report).on d).2 = d) := by
  rw [edited, on_editFile, cleanAt, on_bind (on_readText plan file d)]
  cases (plan.readBytes d file).bind FileSystem.decode with
  | error fault => exact ⟨rfl, fun _ => rfl⟩
  | ok text =>
    by_cases none_located : (removeBlocksAt text lines).located = []
    · have change : targetedEdit lines dryRun text = none := if_pos (.inl none_located)
      simp only [change, if_pos none_located]
      exact ⟨rfl, fun _ => rfl⟩
    by_cases dry : dryRun = true
    · have change : targetedEdit lines dryRun text = none := if_pos (.inr dry)
      simp only [change, if_neg none_located, if_pos dry]
      exact ⟨rfl, fun _ => rfl⟩
    · have change : targetedEdit lines dryRun text = some (removeBlocksAt text lines).text :=
        if_neg (not_or.2 ⟨none_located, dry⟩)
      simp only [change, if_neg none_located, if_neg dry]
      rw [on_writeText_bind]
      cases plan.writeBytes d file (removeBlocksAt text lines).text.toUTF8 with
      | error fault => exact ⟨rfl, fun _ => rfl⟩
      | ok after => exact ⟨rfl, fun stopped => by cases stopped⟩

theorem collapsed_eq_zero_iff (mostBlank : Nat) (lines : List String) :
    lines.length - (compactRuns mostBlank lines).length = 0 ↔
      compactRuns mostBlank lines = lines := by
  have fewer := compactRuns_sublist mostBlank lines
  constructor
  · intro none_gone
    exact fewer.eq_of_length_le (Nat.le_of_sub_eq_zero none_gone)
  · intro same
    rw [same, Nat.sub_self]

/-- Compacting a file is editing it. -/
theorem snd_on_compactFile (plan : FaultPlan) (mostBlank : Nat) (dryRun : Bool) (path : Path)
    (d : Disk) :
    ((compactFile mostBlank dryRun path : plan.Run Notice).on d).2 =
      plan.edited (compactEdit mostBlank dryRun) d path := by
  rw [edited, on_editFile, compactFile, on_bind (on_readText plan path d)]
  cases (plan.readBytes d path).bind FileSystem.decode with
  | error fault => rfl
  | ok text =>
    by_cases same : compactRuns mostBlank (Text.toLines text) = Text.toLines text
    · have change : compactEdit mostBlank dryRun text = none := if_pos (.inl same)
      simp only [change, collapsed_eq_zero_iff, if_pos same]
      rfl
    by_cases dry : dryRun = true
    · have change : compactEdit mostBlank dryRun text = none := if_pos (.inr dry)
      simp only [change, collapsed_eq_zero_iff, if_neg same, if_pos dry]
      rfl
    · have change : compactEdit mostBlank dryRun text =
          some (compactBlankLines text mostBlank) := if_neg (not_or.2 ⟨same, dry⟩)
      simp only [change, collapsed_eq_zero_iff, if_neg same, if_neg dry]
      rw [← compactBlankLines, on_writeText_bind]
      cases plan.writeBytes d path (compactBlankLines text mostBlank).toUTF8 <;> rfl

theorem snd_on_compactFiles (plan : FaultPlan) (mostBlank : Nat) (dryRun : Bool)
    (paths : List Path) (d : Disk) :
    ((compactFiles mostBlank dryRun paths : plan.Run (List Notice)).on d).2 =
      plan.editAll (compactEdit mostBlank dryRun) d paths := by
  induction paths generalizing d with
  | nil => rfl
  | cons path rest ih =>
    rw [editAll, List.foldl_cons, ← snd_on_compactFile, ← editAll, ← ih]
    rfl

theorem snd_on_runLocate (plan : FaultPlan) (file : Path) (asJson : Bool) (d : Disk) :
    ((runLocate file asJson : plan.Run Report).on d).2 = d := by
  rw [runLocate, on_bind (on_readText plan file d)]
  cases (plan.readBytes d file).bind FileSystem.decode with
  | error fault => rfl
  | ok text =>
    dsimp only
    split <;> rfl

end FaultPlan

namespace SheetTask

open FaultPlan

variable {settings : Settings} {task : SheetTask} {d : Disk}

theorem on_run_targeted (plan : FaultPlan) (settings : Settings) (request : TargetedRequest)
    (d : Disk) :
    ((runTargeted request settings : plan.Run Report).on d).2 =
        plan.editAll (targetedEdit (request.settledLines settings) request.dryRun) d
          (request.file.or settings.targeted.file).toList ∧
      (((runTargeted request settings : plan.Run Report).on d).1.stop?.isSome →
        ((runTargeted request settings : plan.Run Report).on d).2 = d) := by
  rw [runTargeted]
  cases request.file.or settings.targeted.file with
  | none => exact ⟨rfl, fun _ => rfl⟩
  | some file =>
    dsimp only
    rw [← TargetedRequest.settledLines]
    split
    · rename_i no_lines
      rw [no_lines]
      exact ⟨(editAll_of_no_change (targetedEdit_nil request.dryRun) d [file]).symm, fun _ => rfl⟩
    · exact plan.on_cleanAt file (request.settledLines settings) request.dryRun d

theorem on_run_blanket (plan : FaultPlan) {settings : Settings} {request : BlanketRequest}
    {stamp : Stamp} (noBackup : (request.settle settings.blanket).backup = false) (d : Disk) :
    ((runBlanket request settings stamp : plan.Run Report).on d).2 =
        plan.editAll ((blanket request stamp).edit settings) d
          ((blanket request stamp).sheets plan settings d) ∧
      (((runBlanket request settings stamp : plan.Run Report).on d).1.stop?.isSome →
        ((runBlanket request settings stamp : plan.Run Report).on d).2 = d) := by
  rw [runBlanket, sheets]
  dsimp only
  rw [on_bind_of_looks (plan.snd_on_find _ _ d)]
  cases (((Selection.of (request.settle settings.blanket).subdirs
      (request.settle settings.blanket).extension).find (request.settle settings.blanket).root :
        plan.Run (Except Failure (List Path))).on d).1 with
  | error failure => exact ⟨rfl, fun _ => rfl⟩
  | ok files =>
    have copied : (backUp (request.settle settings.blanket) stamp : plan.Run (List Notice)).on d =
        ([], d) := by
      rw [backUp, if_neg (by simp [noBackup])]
      rfl
    dsimp only
    rw [on_bind copied]
    refine ⟨?_, fun stopped => by cases stopped⟩
    exact plan.snd_batch _ d files

/-- **A task edits the files that it takes up**, when it makes no copy of a root; and it stops only
if the disk stays as it is. -/
theorem snd_on_run (plan : FaultPlan) (noBackup : task.NoBackup settings) (d : Disk) :
    ((task.run settings : plan.Run Report).on d).2 =
        plan.editAll (task.edit settings) d (task.sheets plan settings d) ∧
      (((task.run settings : plan.Run Report).on d).1.stop?.isSome →
        ((task.run settings : plan.Run Report).on d).2 = d) := by
  cases task with
  | targeted request => exact on_run_targeted plan settings request d
  | compact files mostBlank dryRun =>
    exact ⟨plan.snd_on_compactFiles mostBlank dryRun files d, fun stopped => by cases stopped⟩
  | locate file asJson =>
    have looks := plan.snd_on_runLocate file asJson d
    exact ⟨looks.trans (editAll_of_no_change (fun _ => rfl) d [file]).symm, fun _ => looks⟩
  | blanket request stamp => exact on_run_blanket plan noBackup d

/-! ## The writes of a task -/

theorem unless_eq_some_iff {idle : Prop} [Decidable idle] {dryRun : Bool} {made new : String} :
    (if idle ∨ dryRun = true then none else some made) = some new ↔
      dryRun = false ∧ ¬ idle ∧ made = new := by
  by_cases stays : idle
  · simp [stays]
  · cases dryRun <;> simp [stays]

/-- A text is compacted when a blank run in it is too long. -/
theorem compactRuns_ne_iff {mostBlank : Nat} {text : String} :
    compactRuns mostBlank (Text.toLines text) ≠ Text.toLines text ↔
      ∃ piece, piece <:+: Text.toLines text ∧
        (∀ line ∈ piece, Text.isBlankLine line = true) ∧ max mostBlank 1 < piece.length := by
  rw [Ne, compactRuns_eq_self_iff]
  constructor
  · intro some_long
    by_contra none_long
    exact some_long fun piece inside blank =>
      Nat.le_of_not_lt fun long => none_long ⟨piece, inside, blank, long⟩
  · rintro ⟨piece, inside, blank, long⟩ all_short
    exact Nat.not_le_of_lt long (all_short piece inside blank)

/-- **The edit of a task makes the changes that the task is to make**, unless nothing is to be
written. -/
theorem edit_eq_some_iff {old new : String} :
    task.edit settings old = some new ↔ task.isDry = false ∧ task.Changes settings old new := by
  cases task with
  | targeted request =>
    rw [edit, targetedEdit, unless_eq_some_iff]
    constructor
    · rintro ⟨earnest, located, rfl⟩
      exact ⟨earnest, .targeted located⟩
    · rintro ⟨earnest, changes⟩
      cases changes with
      | targeted located => exact ⟨earnest, located, rfl⟩
  | compact files mostBlank dryRun =>
    rw [edit, compactEdit, unless_eq_some_iff, ← ne_eq, compactRuns_ne_iff]
    constructor
    · rintro ⟨earnest, ⟨piece, inside, blank, long⟩, rfl⟩
      exact ⟨earnest, .compact inside blank long⟩
    · rintro ⟨earnest, changes⟩
      cases changes with
      | compact inside blank long => exact ⟨earnest, ⟨_, inside, blank, long⟩, rfl⟩
  | locate file asJson =>
    constructor
    · intro change
      cases change
    · rintro ⟨earnest, _⟩
      cases earnest
  | blanket request stamp =>
    rw [edit, SweepOptions.edit, unless_eq_some_iff, removed_removeAllMedia_eq_nil_iff, not_not]
    constructor
    · rintro ⟨earnest, media, rfl⟩
      exact ⟨earnest, .blanket media⟩
    · rintro ⟨earnest, changes⟩
      cases changes with
      | blanket media => exact ⟨earnest, media, rfl⟩

/-- A compacted text has no blank run that is too long. -/
theorem settles_compactEdit (mostBlank : Nat) (dryRun : Bool) :
    Settles (compactEdit mostBlank dryRun) := by
  intro old new change
  obtain ⟨_, _, rfl⟩ := unless_eq_some_iff.1 change
  have again : compactRuns mostBlank (compactRuns mostBlank (Text.toLines old)) =
      compactRuns mostBlank (Text.toLines old) := by
    refine (compactRuns_eq_self_iff mostBlank _).2 fun piece inside blank => ?_
    exact length_le_of_infix_compactRuns inside blank
  rw [compactEdit, toLines_compactBlankLines, if_pos (.inl again)]

/-- **A task rewrites just the files that it is to change.** -/
theorem rewrites (plan : FaultPlan) (noBackup : task.NoBackup settings) (d : Disk) :
    plan.Rewrites (task.edit settings) (task.sheets plan settings d) d
      ((task.run settings : plan.Run Report).on d).2 := by
  rw [(snd_on_run plan noBackup d).1]
  cases task with
  | targeted request =>
    rw [sheets]
    cases request.file.or settings.targeted.file with
    | none => exact plan.rewrites_nil _ d
    | some file => exact plan.rewrites_edited _ d file
  | compact files mostBlank dryRun =>
    exact rewrites_editAll (settles_compactEdit mostBlank dryRun) plan d files
  | locate file asJson => exact plan.rewrites_edited _ d file
  | blanket request stamp => exact rewrites_editAll (SweepOptions.settles_edit _) plan d _

/-- What a task does to a disk, told from the disk that it starts from. -/
structure WritesExactly (plan : FaultPlan) (settings : Settings) (task : SheetTask) (d : Disk) :
    Prop where
  /-- A dry run changes nothing, and neither does a task that stops. -/
  untouched : task.isDry = true ∨ ((task.run settings : plan.Run Report).on d).1.stop?.isSome →
    ((task.run settings : plan.Run Report).on d).2 = d
  current_eq : ((task.run settings : plan.Run Report).on d).2.current = d.current
  /-- What has changed is a file that one of the paths leads to and that the task is to change, and
  it has the text that the task makes of the one that it had. -/
  of_changed : ∀ location,
    ((task.run settings : plan.Run Report).on d).2.item? location ≠ d.item? location →
      ∃ path ∈ task.sheets plan settings d, ∃ rights old new, d.find path = .ok location ∧
        d.item? location = some (.file rights old.toUTF8) ∧ task.Changes settings old new ∧
        ((task.run settings : plan.Run Report).on d).2.item? location =
          some (.file rights new.toUTF8)
  /-- Every such file is changed that can be read and written by one of its paths. -/
  of_changes : task.isDry = false → ∀ path ∈ task.sheets plan settings d,
    ∀ location rights old new, plan.reading path = none → plan.writing path = none →
      d.find path = .ok location → d.item? location = some (.file rights old.toUTF8) →
      rights.read = true → rights.write = true → task.Changes settings old new →
        ((task.run settings : plan.Run Report).on d).2.item? location =
          some (.file rights new.toUTF8)

/-- **A task that makes no copy of a root writes exactly what it is to write**, on every disk, with
all arguments and settings, and for every pattern of reads and writes that are refused. -/
theorem writesExactly (plan : FaultPlan) (settings : Settings) (task : SheetTask)
    (noBackup : task.NoBackup settings) (d : Disk) : task.WritesExactly plan settings d := by
  obtain ⟨edits, stopped⟩ := snd_on_run plan noBackup d
  have rewrites := rewrites plan noBackup d
  constructor
  · rintro (dry | stops)
    · rw [edits]
      refine editAll_of_no_change (fun text => ?_) d _
      cases change : task.edit settings text with
      | none => rfl
      | some new =>
        rw [(edit_eq_some_iff.1 change).1] at dry
        cases dry
    · exact stopped stops
  · exact rewrites.current_eq
  · intro location changed
    obtain ⟨path, mem, rights, old, new, edits, now⟩ := rewrites.of_changed location changed
    exact ⟨path, mem, rights, old, new, edits.found, edits.stands,
      (edit_eq_some_iff.1 edits.edit_eq).2, now⟩
  · intro earnest path mem location rights old new spared spared' found stands readable writable
      changes
    exact rewrites.of_edits path mem location rights old new
      ⟨spared, spared', found, stands, readable, writable,
        edit_eq_some_iff.2 ⟨earnest, changes⟩⟩

/-- Clean the stylesheets of a `pairDisk`, and make no copy of them. -/
def pairTask : SheetTask :=
  .blanket { Disk.pairRequest with noBackup := true } Disk.springNoon

open Disk in
/-- The task finds two stylesheets, and rewrites both. -/
theorem writesExactly_pairDisk :
    pairTask.NoBackup {} ∧
    ((pairTask.run {} : FaultPlan.clear.Run Report).on
      (pairDisk printText screenText [])).2.item? ["css", "a.css"] =
        some (.file newFile (removeAllMedia printText 2).text.toUTF8) ∧
    ((pairTask.run {} : FaultPlan.clear.Run Report).on
      (pairDisk printText screenText [])).2.item? ["other", "b.css"] =
        some (.file newFile (removeAllMedia screenText 2).text.toUTF8) := by
  have noBackup : pairTask.NoBackup {} := rfl
  have settled : (BlanketRequest.settle { pairRequest with noBackup := true }
      ({} : Settings).blanket) = ⟨⟨"css"⟩, ["../other"], "css", false, 2⟩ := by decide +kernel
  have sheets : pairTask.sheets .clear {} (pairDisk printText screenText []) =
      [⟨"css/../other/b.css"⟩, ⟨"css/a.css"⟩] := by
    have found : ((Selection.of ["../other"] "css").find ⟨"css"⟩ :
        FaultPlan.clear.Run (Except Failure (List Path))).on (pairDisk printText screenText []) =
          (.ok [⟨"css/../other/b.css"⟩, ⟨"css/a.css"⟩], pairDisk printText screenText []) :=
      run_find_pairDisk
    rw [pairTask, SheetTask.sheets, settled]
    dsimp only
    rw [found]
  have exactly := writesExactly .clear {} pairTask noBackup (pairDisk printText screenText [])
  refine ⟨noBackup, ?_, ?_⟩
  · exact exactly.of_changes rfl ⟨"css/a.css"⟩ (by rw [sheets]; simp) _ newFile printText _ rfl rfl
      find_pairDisk_a rfl rfl rfl (.blanket (by decide))
  · exact exactly.of_changes rfl ⟨"css/../other/b.css"⟩ (by rw [sheets]; simp) _ newFile screenText
      _ rfl rfl find_pairDisk_b rfl rfl rfl (.blanket (by decide))

end SheetTask

end MediaSweep
