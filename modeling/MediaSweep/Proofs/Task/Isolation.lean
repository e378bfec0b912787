import Mathlib.Data.List.Pairwise
import MediaSweep.Proofs.Sheet.Blanket
import MediaSweep.Proofs.Task.Editing
import MediaSweep.Proofs.Task.Recovery

/-!
# Sweeping one file does not touch another

Files are swept one after the other, on the disk that the ones before left behind.  When the paths
name different files, none of this can be told from the outcomes: each file comes out as if it were
swept alone, whatever becomes of the others (`FaultPlan.isolates_of_pairwise`).  Hence the totals
are sums over the files, the order of the paths only shows in the order of what is told, and a dry
run tells what the real one would, as long as nothing fails to be written.

Reads and writes may be refused in any pattern, by the rights on the disk or by a fault plan.
-/

namespace MediaSweep

set_option autoImplicit false

/-- Two paths that lead to one file. -/
def Disk.SameFile (d : Disk) (path other : Path) : Prop :=
  ∃ location rights content, d.find path = .ok location ∧ d.find other = .ok location ∧
    d.item? location = some (.file rights content)

theorem Disk.SameFile.symm {d : Disk} {path other : Path} (same : d.SameFile path other) :
    d.SameFile other path := by
  obtain ⟨location, rights, content, found, found', stands⟩ := same
  exact ⟨location, rights, content, found', found, stands⟩

theorem Disk.SameFile.of_sameModes {d d' : Disk} {path other : Path} (modes : d.SameModes d')
    (same : d'.SameFile path other) : d.SameFile path other := by
  obtain ⟨location, rights, content, found, found', stands⟩ := same
  obtain ⟨item, stands', mode⟩ := Option.map_eq_some_iff.1 ((modes.mode_eq location).symm.trans
    (congrArg (Option.map Item.mode) stands))
  rw [modes.find_eq] at found found'
  cases item with
  | directory r => cases mode
  | file r c => exact ⟨location, r, c, found, found', stands'⟩

/-! ## Sweeping as editing -/

/-- What sweeping changes in a text. -/
def SweepOptions.edit (options : SweepOptions) (text : String) : Option String :=
  let cleanup := removeAllMedia text options.maxBlankLines
  if cleanup.removed = [] ∨ options.dryRun then none else some cleanup.text

/-- A swept text has no blocks left. -/
theorem SweepOptions.settles_edit (options : SweepOptions) : Settles options.edit := by
  intro old new change
  rw [edit] at change
  split at change
  · cases change
  · have gone := not_mediaWord_infix_removeAllMedia old options.maxBlankLines
    rw [Option.some.inj change] at gone
    have settled := (removed_removeAllMedia_eq_nil_iff new options.maxBlankLines).2 gone
    rw [edit, if_pos (.inl settled)]

/-- What is made of the result of an edit. -/
def SweepOptions.outcome (options : SweepOptions) (path : Path) :
    EditResult → Except Failure SweepOutcome
  | .unreadable fault => .error (.read path fault)
  | .unwritable _ fault => .error (.write path fault)
  | .settled text | .rewritten text =>
    .ok (.ofCleanup text (removeAllMedia text options.maxBlankLines))

theorem ofCleanup_eq_nothingToDo_iff (text : String) (c : BlanketCleanup) :
    SweepOutcome.ofCleanup text c = .nothingToDo ↔ c.removed = [] := by
  rw [SweepOutcome.ofCleanup]
  split <;> simp_all

namespace FaultPlan

variable {plan : FaultPlan} {options : SweepOptions} {d d' : Disk} {path other : Path}
  {location : Location} {paths paths' : List Path}

/-- **Sweeping a file is editing it.** -/
theorem on_sweepFile (plan : FaultPlan) (options : SweepOptions) (path : Path) (d : Disk) :
    (sweepFile options path : plan.Run (Except Failure SweepOutcome)).on d =
      (options.outcome path ((editFile options.edit path : plan.Run EditResult).on d).1,
        plan.edited options.edit d path) := by
  rw [edited, on_editFile, sweepFile, on_bind (on_readText plan path d)]
  cases (plan.readBytes d path).bind FileSystem.decode with
  | error fault => rfl
  | ok text =>
    by_cases idle : (removeAllMedia text options.maxBlankLines).removed = [] ∨ options.dryRun = true
    · have change : options.edit text = none := if_pos idle
      simp only [change, ofCleanup_eq_nothingToDo_iff, if_pos idle]
      rfl
    · have change : options.edit text = some (removeAllMedia text options.maxBlankLines).text :=
        if_neg idle
      simp only [change, ofCleanup_eq_nothingToDo_iff, if_neg idle]
      rw [on_writeText_bind]
      cases plan.writeBytes d path (removeAllMedia text options.maxBlankLines).text.toUTF8 <;> rfl

/-- What comes of a file when it is swept alone. -/
def alone (plan : FaultPlan) (options : SweepOptions) (d : Disk) (path : Path) :
    Except Failure SweepOutcome × Disk :=
  (sweepFile options path : plan.Run (Except Failure SweepOutcome)).on d

/-- What comes of files that are swept one after the other. -/
def batch (plan : FaultPlan) (options : SweepOptions) (d : Disk) (paths : List Path) :
    Sweep × Disk :=
  (sweepFiles options paths : plan.Run Sweep).on d

theorem snd_alone (plan : FaultPlan) (options : SweepOptions) (d : Disk) (path : Path) :
    (plan.alone options d path).2 = plan.edited options.edit d path :=
  congrArg Prod.snd (plan.on_sweepFile options path d)

theorem batch_cons (plan : FaultPlan) (options : SweepOptions) (d : Disk) (path : Path)
    (rest : List Path) :
    plan.batch options d (path :: rest) =
      ((path, (plan.alone options d path).1) ::
          (plan.batch options (plan.alone options d path).2 rest).1,
        (plan.batch options (plan.alone options d path).2 rest).2) :=
  rfl

theorem snd_batch (plan : FaultPlan) (options : SweepOptions) (d : Disk) (paths : List Path) :
    (plan.batch options d paths).2 = plan.editAll options.edit d paths := by
  induction paths generalizing d with
  | nil => rfl
  | cons path rest ih => rw [batch_cons, ih, snd_alone]; rfl

/-- **A file comes out the same after another one was swept.** -/
theorem fst_alone_after (apart : ¬ d.SameFile path other) :
    (plan.alone options (plan.edited options.edit d path) other).1 =
      (plan.alone options d other).1 := by
  rw [alone, alone, on_sweepFile, on_sweepFile]
  refine congrArg (options.outcome other)
    (result_eq (plan.sameModes_edited options.edit d path) fun location found => ?_)
  by_contra changed
  obtain ⟨rights, old, new, edits⟩ := exists_edits_of_changed changed
  exact apart ⟨location, rights, _, edits.found, found, edits.stands⟩

/-- **Files that are swept in a row come out as if they were swept alone.** -/
theorem fst_batch (apart : paths.Pairwise fun path other => ¬ d.SameFile path other) :
    (plan.batch options d paths).1 =
      paths.map fun path => (path, (plan.alone options d path).1) := by
  induction paths generalizing d with
  | nil => rfl
  | cons path rest ih =>
    obtain ⟨here, behind⟩ := List.pairwise_cons.1 apart
    have modes := plan.sameModes_edited options.edit d path
    rw [batch_cons, snd_alone, ih (behind.imp fun differ same => differ (same.of_sameModes modes))]
    refine congrArg (_ :: ·) (List.map_congr_left fun other mem => ?_)
    rw [fst_alone_after (here other mem)]

/-- A file has the content that it has when it is swept alone. -/
theorem item?_batch (apart : paths.Pairwise fun path other => ¬ d.SameFile path other)
    (mem : path ∈ paths) (found : d.find path = .ok location) :
    (plan.batch options d paths).2.item? location =
      (plan.alone options d path).2.item? location := by
  rw [snd_batch, snd_alone]
  by_cases swept : ∃ rights old new, plan.Edits options.edit d path location rights old new
  · obtain ⟨rights, old, new, edits⟩ := swept
    rw [item?_editAll options.settles_edit mem edits, item?_edited edits]
  · have kept : (plan.edited options.edit d path).item? location = d.item? location := by
      by_contra changed
      exact swept (exists_edits_of_changed changed)
    rw [kept]
    by_contra changed
    obtain ⟨other, listed, rights, old, new, edits, _⟩ :=
      exists_edits_of_editAll options.settles_edit changed
    have differ : path ≠ other := by
      rintro rfl
      exact swept ⟨rights, old, new, edits⟩
    have symmetric : Std.Symm fun path other => ¬ d.SameFile path other :=
      ⟨fun _ _ apart same => apart same.symm⟩
    exact apart.forall mem listed differ ⟨location, rights, _, found, edits.found, edits.stands⟩

/-- What no path leads to stays as it is. -/
theorem item?_batch_of_away (away : ∀ path ∈ paths, d.find path ≠ .ok location) :
    (plan.batch options d paths).2.item? location = d.item? location := by
  rw [snd_batch]
  by_contra changed
  obtain ⟨path, mem, _, _, _, edits, _⟩ := exists_edits_of_editAll options.settles_edit changed
  exact away path mem edits.found

end FaultPlan

/-! ## Totals -/

namespace SweepOutcome

/-- The blocks and the lines that were taken out of a file, if it was cleaned. -/
def account? : Except Failure SweepOutcome → Option (Nat × Nat)
  | .ok (.cleaned blocks before after _ _) => some (blocks, before - after)
  | _ => none

/-- Whether a file could be swept and had nothing in it to take out. -/
def isIdle : Except Failure SweepOutcome → Bool
  | .ok .nothingToDo => true
  | _ => false

end SweepOutcome

namespace Sweep

/-- Each file is cleaned, has failed or has nothing to do, and the totals are sums over the files
that are cleaned. -/
structure SumsUp (sweep : Sweep) : Prop where
  length_eq : sweep.length =
    sweep.cleaned + sweep.failed.length + sweep.countP fun entry => SweepOutcome.isIdle entry.2
  cleaned_eq : sweep.cleaned =
    (sweep.filterMap fun entry => SweepOutcome.account? entry.2).length
  blocks_eq : sweep.blocks =
    ((sweep.filterMap fun entry => SweepOutcome.account? entry.2).map Prod.fst).sum
  lines_eq : sweep.lines =
    ((sweep.filterMap fun entry => SweepOutcome.account? entry.2).map Prod.snd).sum

variable (path : Path) (rest : Sweep)

theorem cleaned_cons_idle : cleaned ((path, .ok .nothingToDo) :: rest) = cleaned rest := by
  simp [cleaned, outcomes, Except.toOption]

theorem cleaned_cons (blocks before after bytesBefore bytesAfter : Nat) :
    cleaned ((path, .ok (.cleaned blocks before after bytesBefore bytesAfter)) :: rest) =
      cleaned rest + 1 := by
  simp [cleaned, outcomes, Except.toOption]

/-- **Every sweep sums up.** -/
theorem sumsUp (sweep : Sweep) : sweep.SumsUp := by
  induction sweep with
  | nil => exact ⟨rfl, rfl, rfl, rfl⟩
  | cons entry rest ih =>
    obtain ⟨path, outcome⟩ := entry
    have length := ih.length_eq
    match outcome with
    | .error failure =>
      refine ⟨?_, ih.cleaned_eq, ih.blocks_eq, ih.lines_eq⟩
      have further : failed ((path, .error failure) :: rest) = path :: failed rest := rfl
      have same : cleaned ((path, .error failure) :: rest) = cleaned rest := rfl
      rw [further, same, List.length_cons, List.length_cons,
        List.countP_cons_of_neg Bool.false_ne_true]
      omega
    | .ok .nothingToDo =>
      have same := cleaned_cons_idle path rest
      refine ⟨?_, same.trans ih.cleaned_eq, (Nat.zero_add _).trans ih.blocks_eq,
        (Nat.zero_add _).trans ih.lines_eq⟩
      have again : failed ((path, .ok .nothingToDo) :: rest) = failed rest := rfl
      rw [again, same, List.length_cons, List.countP_cons_of_pos rfl]
      omega
    | .ok (.cleaned blocks before after bytesBefore bytesAfter) =>
      have further := cleaned_cons path rest blocks before after bytesBefore bytesAfter
      refine ⟨?_, further.trans (congrArg (· + 1) ih.cleaned_eq),
        congrArg (blocks + ·) ih.blocks_eq, congrArg (before - after + ·) ih.lines_eq⟩
      have again : failed
          ((path, .ok (.cleaned blocks before after bytesBefore bytesAfter)) :: rest) =
            failed rest := rfl
      rw [again, further, List.length_cons, List.countP_cons_of_neg Bool.false_ne_true]
      omega

/-- The paths that failed, for files with known outcomes. -/
theorem failed_map (outcome : Path → Except Failure SweepOutcome) (paths : List Path) :
    failed (paths.map fun path => (path, outcome path)) =
      paths.filter fun path => !(outcome path).isOk := by
  induction paths with
  | nil => rfl
  | cons path rest ih =>
    rw [List.map_cons, List.filter_cons, ← ih]
    cases outcome path <;> rfl

/-- The same totals, whatever the files. -/
structure SameTotals (sweep other : Sweep) : Prop where
  length_eq : sweep.length = other.length
  cleaned_eq : sweep.cleaned = other.cleaned
  blocks_eq : sweep.blocks = other.blocks
  lines_eq : sweep.lines = other.lines

/-- Totals do not hang on the order. -/
theorem sameTotals_of_perm {sweep other : Sweep} (perm : sweep.Perm other) :
    sweep.SameTotals other := by
  have accounts := perm.filterMap fun entry => SweepOutcome.account? entry.2
  exact {
    length_eq := perm.length_eq
    cleaned_eq := by
      rw [sweep.sumsUp.cleaned_eq, other.sumsUp.cleaned_eq, accounts.length_eq]
    blocks_eq := by
      rw [sweep.sumsUp.blocks_eq, other.sumsUp.blocks_eq, (accounts.map Prod.fst).sum_nat]
    lines_eq := by
      rw [sweep.sumsUp.lines_eq, other.sumsUp.lines_eq, (accounts.map Prod.snd).sum_nat] }

end Sweep

/-! ## The dry run -/

/-- The same options for a dry run. -/
def SweepOptions.dry (options : SweepOptions) : SweepOptions :=
  { options with dryRun := true }

theorem SweepOptions.edit_dry (options : SweepOptions) (text : String) :
    options.dry.edit text = none :=
  if_pos (.inr rfl)

namespace FaultPlan

variable {plan : FaultPlan} {options : SweepOptions} {d : Disk} {path : Path} {paths : List Path}

/-- **A dry run tells of a file what the real one would**, unless the file cannot be written. -/
theorem alone_dry (written : ∀ fault, (plan.alone options d path).1 ≠ .error (.write path fault)) :
    plan.alone options.dry d path = ((plan.alone options d path).1, d) := by
  rw [alone, on_sweepFile] at written ⊢
  rw [alone, on_sweepFile, edited_of_no_change options.edit_dry,
    result_of_no_change options.edit_dry]
  refine Prod.ext ?_ rfl
  rcases plan.result_cases options.edit path d with
    ⟨fault, read, real⟩ | ⟨text, read, real | real | ⟨fault, real⟩⟩
  · rw [read, real]
    rfl
  · rw [read, real]
    rfl
  · rw [read, real]
    rfl
  · rw [real] at written
    exact absurd rfl (written fault)

theorem snd_batch_dry (plan : FaultPlan) (options : SweepOptions) (d : Disk) (paths : List Path) :
    (plan.batch options.dry d paths).2 = d := by
  rw [snd_batch, editAll_of_no_change options.edit_dry]

/-- **A dry run tells of files what the real one would**, unless one cannot be written. -/
theorem fst_batch_dry (apart : paths.Pairwise fun path other => ¬ d.SameFile path other)
    (written : ∀ path ∈ paths, ∀ fault,
      (plan.alone options d path).1 ≠ .error (.write path fault)) :
    (plan.batch options.dry d paths).1 = (plan.batch options d paths).1 := by
  rw [fst_batch apart, fst_batch apart]
  exact List.map_congr_left fun path mem => by rw [alone_dry (written path mem)]

end FaultPlan

/-! ## Isolation -/

/-- What becomes of each of some files, and of all together, is what becomes of them alone. -/
structure FaultPlan.Isolates (plan : FaultPlan) (options : SweepOptions) (d : Disk)
    (paths : List Path) : Prop where
  /-- Every file has the outcome that it has alone. -/
  outcomes_eq : (plan.batch options d paths).1 =
    paths.map fun path => (path, (plan.alone options d path).1)
  /-- Every file is afterwards what it is when it is swept alone. -/
  item?_eq : ∀ path ∈ paths, ∀ location, d.find path = .ok location →
    (plan.batch options d paths).2.item? location = (plan.alone options d path).2.item? location
  /-- What is none of the files stays as it is, -/
  item?_else : ∀ location, (∀ path ∈ paths, d.find path ≠ .ok location) →
    (plan.batch options d paths).2.item? location = d.item? location
  /-- and paths lead where they led. -/
  find_eq : ∀ path, (plan.batch options d paths).2.find path = d.find path
  /-- The paths that failed, in their order. -/
  failed_eq : (plan.batch options d paths).1.failed =
    paths.filter fun path => !(plan.alone options d path).1.isOk
  length_eq : (plan.batch options d paths).1.length = paths.length
  sumsUp : (plan.batch options d paths).1.SumsUp
  /-- In another order, the same becomes of the disk, and the totals are the same. -/
  perm : ∀ paths', paths.Perm paths' →
    (plan.batch options d paths').2 = (plan.batch options d paths).2 ∧
      (plan.batch options d paths').1.SameTotals (plan.batch options d paths).1 ∧
      (plan.batch options d paths').1.failed.Perm (plan.batch options d paths).1.failed
  /-- The dry run changes nothing. -/
  dry_untouched : (plan.batch options.dry d paths).2 = d
  /-- When every file can be written, the dry run tells the same. -/
  dry_eq : (∀ path ∈ paths, ∀ fault,
      (plan.alone options d path).1 ≠ .error (.write path fault)) →
    (plan.batch options.dry d paths).1 = (plan.batch options d paths).1

/-- **Files that are swept in a row are isolated from each other** when no two paths name the same
one, on every disk and for every pattern of reads and writes that are refused. -/
theorem FaultPlan.isolates_of_pairwise (plan : FaultPlan) (options : SweepOptions) (d : Disk)
    (paths : List Path) (apart : paths.Pairwise fun path other => ¬ d.SameFile path other) :
    plan.Isolates options d paths where
  outcomes_eq := fst_batch apart
  item?_eq := fun path mem location found => item?_batch apart mem found
  item?_else := fun location away => item?_batch_of_away away
  find_eq := by
    intro path
    rw [snd_batch]
    exact (plan.sameModes_editAll options.edit d paths).find_eq path
  failed_eq := by rw [fst_batch apart, Sweep.failed_map]
  length_eq := by rw [fst_batch apart, List.length_map]
  sumsUp := Sweep.sumsUp _
  perm := by
    intro paths' perm
    have apart' : paths'.Pairwise fun path other => ¬ d.SameFile path other :=
      (perm.pairwise_iff fun apart same => apart same.symm).1 apart
    have sweeps : (plan.batch options d paths').1.Perm (plan.batch options d paths).1 := by
      rw [fst_batch apart, fst_batch apart']
      exact perm.symm.map _
    refine ⟨?_, Sweep.sameTotals_of_perm sweeps, sweeps.filterMap _⟩
    rw [snd_batch, snd_batch, editAll_perm options.settles_edit perm.symm]
  dry_untouched := plan.snd_batch_dry options d paths
  dry_eq := fst_batch_dry apart

namespace Disk

/-- A plan under which the first stylesheet of a `pairDisk` cannot be read. -/
def deafPlan : FaultPlan where
  reading path := if path = ⟨"css/a.css"⟩ then some (.other "Input/output error") else none
  writing _ := none

/-- The stylesheet that cannot be read is told of and left as it is, and the other one is cleaned,
whichever comes first. -/
theorem isolates_pairDisk :
    ([⟨"css/a.css"⟩, ⟨"css/../other/b.css"⟩] : List Path).Pairwise
      (fun path other => ¬ (pairDisk printText screenText []).SameFile path other) ∧
    (deafPlan.batch ⟨2, false⟩ (pairDisk printText screenText [])
      [⟨"css/a.css"⟩, ⟨"css/../other/b.css"⟩]).1.failed = [⟨"css/a.css"⟩] ∧
    (deafPlan.batch ⟨2, false⟩ (pairDisk printText screenText [])
      [⟨"css/../other/b.css"⟩, ⟨"css/a.css"⟩]).2.item? ["css", "a.css"] =
        some (.file newFile printText.toUTF8) ∧
    (deafPlan.batch ⟨2, false⟩ (pairDisk printText screenText [])
      [⟨"css/../other/b.css"⟩, ⟨"css/a.css"⟩]).2.item? ["other", "b.css"] =
        some (.file newFile ".b \x7b\x7d".toUTF8) := by
  set d := pairDisk printText screenText []
  have apart : ([⟨"css/a.css"⟩, ⟨"css/../other/b.css"⟩] : List Path).Pairwise
      fun path other => ¬ d.SameFile path other := by
    refine List.pairwise_pair.2 ?_
    rintro ⟨location, _, _, found, found', _⟩
    rw [find_pairDisk_a] at found
    rw [find_pairDisk_b, ← found] at found'
    exact absurd (Except.ok.inj found') (by decide)
  have isolates := deafPlan.isolates_of_pairwise ⟨2, false⟩ d _ apart
  have edits : deafPlan.Edits (SweepOptions.edit ⟨2, false⟩) d ⟨"css/../other/b.css"⟩
      ["other", "b.css"] newFile screenText ".b \x7b\x7d" :=
    { spared_read := by decide
      spared_write := rfl
      found := find_pairDisk_b
      stands := rfl
      readable := rfl
      writable := rfl
      edit_eq := by decide +kernel }
  have unread : deafPlan.alone ⟨2, false⟩ d ⟨"css/a.css"⟩ =
      (.error (.read ⟨"css/a.css"⟩ (.other "Input/output error")), d) := rfl
  have cleaned : (deafPlan.alone ⟨2, false⟩ d ⟨"css/../other/b.css"⟩).1.isOk = true := by
    rw [FaultPlan.alone, FaultPlan.on_sweepFile, FaultPlan.on_editFile_of_edits edits]
    rfl
  obtain ⟨same, _, _⟩ := isolates.perm _ (List.Perm.swap _ _ _)
  refine ⟨apart, ?_, ?_, ?_⟩
  · rw [isolates.failed_eq, List.filter_cons_of_pos (by rw [unread]; rfl),
      List.filter_cons_of_neg (by simp [cleaned])]
    rfl
  · rw [same, isolates.item?_eq _ List.mem_cons_self _ find_pairDisk_a, unread]
    rfl
  · rw [same, isolates.item?_eq _ (List.mem_cons_of_mem _ List.mem_cons_self) _ find_pairDisk_b,
      FaultPlan.snd_alone, FaultPlan.item?_edited edits]

end Disk

end MediaSweep
