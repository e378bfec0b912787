import MediaSweep.Proofs.Storage.Copying
import MediaSweep.Task.Sweep

/-!
# What a sweep changes

Sweeping writes at most the file that is swept, where its path leads (`of_sweepFile`), and sweeping
several files changes nothing else (`of_sweepFiles`).
-/

namespace MediaSweep

set_option autoImplicit false

open Disk (Run)

variable {d d' : Disk} {options : SweepOptions} {path : Path}

/-- Reading leaves the disk as it is. -/
theorem run_readText (path : Path) (d : Disk) :
    (FileSystem.readText path : Run (Attempt String)) d =
      ((d.readBytes path).bind FileSystem.decode, d) :=
  rfl

/-- **Sweeping a file changes this file or nothing.** -/
theorem of_sweepFile {outcome : Except Failure SweepOutcome}
    (ran : (sweepFile options path : Run (Except Failure SweepOutcome)) d = (outcome, d')) :
    d' = d ∨ ∃ rights content, d.Sets (d.locate path) (.file rights content) d' := by
  rw [sweepFile, run_bind (run_readText path d)] at ran
  cases read : (d.readBytes path).bind FileSystem.decode with
  | error fault =>
    rw [read] at ran
    exact .inl (Prod.mk.inj ran).2.symm
  | ok content =>
    rw [read] at ran
    dsimp only at ran
    split at ran
    · exact .inl (Prod.mk.inj ran).2.symm
    · obtain ⟨written, d₁, writing, ran⟩ := exists_of_run_bind ran
      have same : d₁ = d' := by
        cases written <;> exact (Prod.mk.inj ran).2
      rw [← same]
      change Disk.change (·.writeBytes path _) d = _ at writing
      rw [Disk.change_eq] at writing
      split at writing
      · rename_i made
        obtain ⟨rights, sets, _⟩ := Disk.of_writeBytes made
        obtain ⟨_, rfl⟩ := Prod.mk.inj writing
        exact .inr ⟨rights, _, sets⟩
      · exact .inl (Prod.mk.inj writing).2.symm

theorem decode_toUTF8 (text : String) : FileSystem.decode text.toUTF8 = .ok text := by
  have read : String.fromUTF8? text.toUTF8 = some text := dif_pos text.isValidUTF8
  rw [FileSystem.decode, read]

/-- A file with media blocks that can be read and written is cleaned. -/
theorem run_sweepFile {text : String} (read : d.readBytes path = .ok text.toUTF8)
    (found : (removeAllMedia text options.maxBlankLines).removed ≠ [])
    (earnest : options.dryRun = false)
    (written : d.writeBytes path (removeAllMedia text options.maxBlankLines).text.toUTF8 = .ok d') :
    (sweepFile options path : Run (Except Failure SweepOutcome)) d =
      (.ok (.ofCleanup text (removeAllMedia text options.maxBlankLines)), d') := by
  have cleaned : SweepOutcome.ofCleanup text (removeAllMedia text options.maxBlankLines) ≠
      .nothingToDo := by
    rw [SweepOutcome.ofCleanup, if_neg found]
    simp
  have writing : (FileSystem.writeText path (removeAllMedia text options.maxBlankLines).text :
      Run (Attempt Unit)) d = (.ok (), d') := by
    have changed := Disk.change_eq
      (·.writeBytes path (removeAllMedia text options.maxBlankLines).text.toUTF8) d
    rwa [written] at changed
  have reading : (d.readBytes path).bind FileSystem.decode = .ok text := by
    rw [read]
    exact decode_toUTF8 text
  rw [sweepFile, run_bind (run_readText path d), reading]
  dsimp only
  rw [if_neg (by simp [cleaned, earnest]), run_bind writing]
  rfl

/-- **Sweeping files changes nothing but them.** -/
theorem of_sweepFiles {paths : List Path} {sweep : Sweep}
    (ran : (sweepFiles options paths : Run Sweep) d = (sweep, d')) :
    d'.current = d.current ∧
      ∀ location, (∀ path ∈ paths, location ≠ d.locate path) →
        d'.item? location = d.item? location := by
  induction paths generalizing d sweep with
  | nil =>
    obtain ⟨rfl, rfl⟩ := Prod.mk.inj ran
    exact ⟨rfl, fun _ _ => rfl⟩
  | cons path rest ih =>
    rw [sweepFiles] at ran
    obtain ⟨outcome, d₁, first, ran⟩ := exists_of_run_bind ran
    obtain ⟨others, d₂, going, ran⟩ := exists_of_run_bind ran
    obtain ⟨rfl, rfl⟩ := Prod.mk.inj ran
    obtain ⟨current, kept⟩ := ih going
    rcases of_sweepFile first with rfl | ⟨rights, content, sets⟩
    · exact ⟨current, fun location away =>
        kept location fun other mem => away other (List.mem_cons_of_mem _ mem)⟩
    · refine ⟨current.trans sets.current_eq, fun location away => ?_⟩
      obtain ⟨here, behind⟩ := List.forall_mem_cons.1 away
      rw [kept, sets.item?_of_ne here]
      intro other mem
      rw [Disk.locate_eq sets.current_eq]
      exact behind other mem

end MediaSweep
