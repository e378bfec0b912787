import MediaSweep.Proofs.Storage.Faults
import MediaSweep.Proofs.Task.Sweep

/-!
# Editing files

The tasks that change stylesheets all do the same with a file: they read it, and when there is
something to change in its text, they write it back (`editFile`).  They differ in the edit and in
what they tell.

An edit that is made replaces one text by another and changes nothing else
(`FaultPlan.edited_of_edits`); otherwise the disk stays as it is (`FaultPlan.edited_of_idle`).  What
comes of a file does not hang on the contents of other files (`FaultPlan.result_eq`).  So when an
edit leaves nothing to change, it is made once in each file, however often its paths are listed,
and in which order does not matter (`FaultPlan.editAll_perm`).
-/

namespace MediaSweep

set_option autoImplicit false

/-- What came of a file that was to be edited. -/
inductive EditResult where
  | unreadable (fault : FileFault)
  /-- There was nothing to change. -/
  | settled (text : String)
  | unwritable (text : String) (fault : FileFault)
  | rewritten (text : String)

section

variable {m : Type → Type} [Monad m] [FileSystem m]

/-- Read a file, and write it back when there is something to change. -/
def editFile (edit : String → Option String) (path : Path) : m EditResult := do
  match ← FileSystem.readText path with
  | .error fault => return .unreadable fault
  | .ok text =>
    match edit text with
    | none => return .settled text
    | some new =>
      match ← FileSystem.writeText path new with
      | .error fault => return .unwritable text fault
      | .ok () => return .rewritten text

end

/-- An edit that has nothing to change in what it made. -/
def Settles (edit : String → Option String) : Prop :=
  ∀ old new, edit old = some new → edit new = none

theorem decode_eq_ok_iff {bytes : ByteArray} {text : String} :
    FileSystem.decode bytes = .ok text ↔ bytes = text.toUTF8 := by
  constructor
  · intro decoded
    rw [FileSystem.decode] at decoded
    split at decoded
    · rename_i found whole
      obtain rfl := Except.ok.inj decoded
      rw [String.fromUTF8?] at whole
      split at whole
      · rw [← Option.some.inj whole]
        rfl
      · cases whole
    · cases decoded
  · rintro rfl
    exact decode_toUTF8 text

namespace FaultPlan

variable {plan : FaultPlan} {edit : String → Option String} {d d' : Disk} {path other : Path}
  {location place : Location} {rights rights' : Rights} {old new old' new' : String}
  {paths paths' : List Path}

theorem on_editFile (plan : FaultPlan) (edit : String → Option String) (path : Path) (d : Disk) :
    (editFile edit path : plan.Run EditResult).on d =
      match (plan.readBytes d path).bind FileSystem.decode with
      | .error fault => (.unreadable fault, d)
      | .ok text =>
        match edit text with
        | none => (.settled text, d)
        | some new =>
          match plan.writeBytes d path new.toUTF8 with
          | .error fault => (.unwritable text fault, d)
          | .ok written => (.rewritten text, written) := by
  rw [editFile, on_bind (on_readText plan path d)]
  cases (plan.readBytes d path).bind FileSystem.decode with
  | error fault => rfl
  | ok text =>
    cases change : edit text with
    | none => simp only [change, on_pure]
    | some new =>
      simp only [change]
      rw [on_writeText_bind]
      cases plan.writeBytes d path new.toUTF8 <;> rfl

/-- What can come of a file, by what is read. -/
theorem result_cases (plan : FaultPlan) (edit : String → Option String) (path : Path) (d : Disk) :
    (∃ fault, (plan.readBytes d path).bind FileSystem.decode = .error fault ∧
      ((editFile edit path : plan.Run EditResult).on d).1 = .unreadable fault) ∨
    ∃ text, (plan.readBytes d path).bind FileSystem.decode = .ok text ∧
      (((editFile edit path : plan.Run EditResult).on d).1 = .settled text ∨
        ((editFile edit path : plan.Run EditResult).on d).1 = .rewritten text ∨
        ∃ fault, ((editFile edit path : plan.Run EditResult).on d).1 = .unwritable text fault) := by
  rw [on_editFile]
  cases (plan.readBytes d path).bind FileSystem.decode with
  | error fault => exact .inl ⟨fault, rfl, rfl⟩
  | ok text =>
    refine .inr ⟨text, rfl, ?_⟩
    cases change : edit text with
    | none => simp only [change, true_or]
    | some new =>
      simp only [change]
      cases plan.writeBytes d path new.toUTF8 with
      | error fault => exact .inr (.inr ⟨fault, rfl⟩)
      | ok written => exact .inr (.inl rfl)

/-- What comes of a file when nothing is ever to be changed. -/
theorem result_of_no_change (never : ∀ text, edit text = none) :
    ((editFile edit path : plan.Run EditResult).on d).1 =
      match (plan.readBytes d path).bind FileSystem.decode with
      | .error fault => .unreadable fault
      | .ok text => .settled text := by
  rw [on_editFile]
  cases (plan.readBytes d path).bind FileSystem.decode with
  | error fault => rfl
  | ok text => simp only [never]

/-! ## One file -/

/-- A file that is edited: its path is spared and leads to it, its owner may read and write it, and
there is something to change in its text. -/
structure Edits (plan : FaultPlan) (edit : String → Option String) (d : Disk) (path : Path)
    (location : Location) (rights : Rights) (old new : String) : Prop where
  spared_read : plan.reading path = none
  spared_write : plan.writing path = none
  found : d.find path = .ok location
  stands : d.item? location = some (.file rights old.toUTF8)
  readable : rights.read = true
  writable : rights.write = true
  edit_eq : edit old = some new

/-- The disk after a file was to be edited. -/
def edited (plan : FaultPlan) (edit : String → Option String) (d : Disk) (path : Path) : Disk :=
  ((editFile edit path : plan.Run EditResult).on d).2

theorem on_editFile_of_edits (edits : plan.Edits edit d path location rights old new) :
    (editFile edit path : plan.Run EditResult).on d =
      (.rewritten old, d.put location (.file rights new.toUTF8)) := by
  have read : plan.readBytes d path = .ok old.toUTF8 := by
    rw [readBytes, edits.spared_read]
    show d.readBytes path = _
    rw [Disk.readBytes_eq_read edits.found edits.stands]
    exact if_pos edits.readable
  have written : plan.writeBytes d path new.toUTF8 =
      .ok (d.put location (.file rights new.toUTF8)) := by
    rw [writeBytes_of_find edits.spared_write edits.found edits.stands, if_pos edits.writable]
  have decoded : (plan.readBytes d path).bind FileSystem.decode = .ok old := by
    rw [read]
    exact decode_toUTF8 old
  rw [on_editFile, decoded]
  simp only [edits.edit_eq, written]

/-- **An edit that is made** gives the file its new text. -/
theorem edited_of_edits (edits : plan.Edits edit d path location rights old new) :
    plan.edited edit d path = d.put location (.file rights new.toUTF8) :=
  congrArg Prod.snd (on_editFile_of_edits edits)

/-- What was read as a text stands where the path is found. -/
theorem exists_of_readText {text : String}
    (read : (plan.readBytes d path).bind FileSystem.decode = .ok text) :
    plan.reading path = none ∧ ∃ location rights, d.find path = .ok location ∧
      d.item? location = some (.file rights text.toUTF8) ∧ rights.read = true := by
  obtain ⟨bytes, read, decoded⟩ := exists_of_bind_eq_ok read
  obtain rfl := decode_eq_ok_iff.1 decoded
  exact exists_of_readBytes read

/-- A path whose file is not edited. -/
def Idle (plan : FaultPlan) (edit : String → Option String) (d : Disk) (path : Path) : Prop :=
  ∀ location rights old new, ¬ plan.Edits edit d path location rights old new

theorem exists_edits_of_not_idle (busy : ¬ plan.Idle edit d path) :
    ∃ location rights old new, plan.Edits edit d path location rights old new := by
  simpa only [Idle, not_forall, not_not] using busy

/-- **Otherwise the disk stays as it is.** -/
theorem edited_of_idle (idle : plan.Idle edit d path) : plan.edited edit d path = d := by
  rw [edited, on_editFile]
  split
  · rfl
  · rename_i text read
    split
    · rfl
    · rename_i new change
      split
      · rfl
      · rename_i written writing
        obtain ⟨spared, location, rights, found, stands, readable⟩ := exists_of_readText read
        have spared' : plan.writing path = none := by
          rw [writeBytes] at writing
          split at writing
          · cases writing
          · assumption
        rw [writeBytes_of_find spared' found stands] at writing
        split at writing
        · rename_i writable
          exact absurd ⟨spared, spared', found, stands, readable, writable, change⟩
            (idle location rights text new)
        · cases writing

theorem edited_of_no_change (never : ∀ text, edit text = none) : plan.edited edit d path = d := by
  refine edited_of_idle fun location rights old new edits => ?_
  have change := edits.edit_eq
  rw [never] at change
  cases change

theorem sameModes_edited (plan : FaultPlan) (edit : String → Option String) (d : Disk)
    (path : Path) : d.SameModes (plan.edited edit d path) := by
  by_cases idle : plan.Idle edit d path
  · rw [edited_of_idle idle]
    exact .refl d
  · obtain ⟨location, rights, old, new, edits⟩ := exists_edits_of_not_idle idle
    rw [edited_of_edits edits]
    exact Disk.sameModes_put_file edits.stands

theorem item?_edited (edits : plan.Edits edit d path location rights old new) :
    (plan.edited edit d path).item? location = some (.file rights new.toUTF8) := by
  rw [edited_of_edits edits, Disk.item?_put_file edits.stands, if_pos rfl]

/-- Only a file that is edited changes. -/
theorem exists_edits_of_changed
    (changed : (plan.edited edit d path).item? location ≠ d.item? location) :
    ∃ rights old new, plan.Edits edit d path location rights old new := by
  by_contra none_edited
  refine changed ?_
  by_cases idle : plan.Idle edit d path
  · rw [edited_of_idle idle]
  · obtain ⟨place, rights, old, new, edits⟩ := exists_edits_of_not_idle idle
    rw [edited_of_edits edits, Disk.item?_put_file edits.stands, if_neg]
    rintro rfl
    exact none_edited ⟨rights, old, new, edits⟩

namespace Edits

/-- A file is edited in one way, whatever path leads to it. -/
theorem unique (edits : plan.Edits edit d path location rights old new)
    (edits' : plan.Edits edit d other location rights' old' new') :
    rights' = rights ∧ old' = old ∧ new' = new := by
  have same := edits'.stands.symm.trans edits.stands
  obtain ⟨sameRights, sameBytes⟩ := Item.file.inj (Option.some.inj same)
  obtain rfl := String.toByteArray_inj.1 sameBytes
  exact ⟨sameRights, rfl, Option.some.inj (edits'.edit_eq.symm.trans edits.edit_eq)⟩

/-- A file that is left as it was is edited as before. -/
theorem of_kept (edits : plan.Edits edit d path location rights old new) (same : d.SameModes d')
    (kept : d'.item? location = d.item? location) :
    plan.Edits edit d' path location rights old new where
  spared_read := edits.spared_read
  spared_write := edits.spared_write
  found := (same.find_eq path).trans edits.found
  stands := kept.trans edits.stands
  readable := edits.readable
  writable := edits.writable
  edit_eq := edits.edit_eq

end Edits

/-- **What comes of a file does not hang on the contents of other files.** -/
theorem result_eq (same : d.SameModes d')
    (kept : ∀ location, d.find path = .ok location → d'.item? location = d.item? location) :
    ((editFile edit path : plan.Run EditResult).on d').1 =
      ((editFile edit path : plan.Run EditResult).on d).1 := by
  rw [on_editFile, on_editFile, readBytes_eq same kept]
  cases read : (plan.readBytes d path).bind FileSystem.decode with
  | error fault => rfl
  | ok text =>
    cases change : edit text with
    | none => simp only [change]
    | some new =>
      simp only [change]
      obtain ⟨_, location, rights, found, stands, _⟩ := exists_of_readText read
      cases writing : plan.writing path with
      | some fault => simp only [writeBytes, writing]
      | none =>
        rw [writeBytes_of_find writing found stands,
          writeBytes_of_find writing ((same.find_eq path).trans found)
            ((kept location found).trans stands)]
        cases rights.write <;> rfl

/-! ## Edits that leave nothing to change -/

theorem not_edits_of_settled (settled : edit new = none)
    (stands : d.item? location = some (.file rights new.toUTF8)) :
    ¬ plan.Edits edit d path location rights' old' new' := by
  intro edits
  obtain ⟨_, sameBytes⟩ := Item.file.inj (Option.some.inj (edits.stands.symm.trans stands))
  obtain rfl := String.toByteArray_inj.1 sameBytes
  have := edits.edit_eq
  rw [settled] at this
  cases this

/-- An edit that is still made after another one would have been made before. -/
theorem Edits.before (settles : Settles edit)
    (edits : plan.Edits edit (plan.edited edit d path) other location rights old new) :
    plan.Edits edit d other location rights old new := by
  refine edits.of_kept (plan.sameModes_edited edit d path).symm ?_
  by_contra changed
  obtain ⟨_, old', new', first⟩ := exists_edits_of_changed (Ne.symm changed)
  exact not_edits_of_settled (settles old' new' first.edit_eq) (item?_edited first) edits

theorem Idle.edited (settles : Settles edit) (idle : plan.Idle edit d other) :
    plan.Idle edit (plan.edited edit d path) other :=
  fun location rights old new edits => idle location rights old new (edits.before settles)

/-- Of two paths to one file, the second one finds nothing to change. -/
theorem edited_edited_of_same (settles : Settles edit)
    (first : plan.Edits edit d path location rights old new)
    (second : plan.Edits edit d other location rights old new) :
    plan.edited edit (plan.edited edit d path) other =
      d.put location (.file rights new.toUTF8) := by
  rw [edited_of_idle, edited_of_edits first]
  intro elsewhere _ _ _ again
  have found := (again.before settles).found
  rw [second.found] at found
  obtain rfl := Except.ok.inj found
  exact not_edits_of_settled (settles _ _ first.edit_eq) (item?_edited first) again

/-- Two files are edited one after the other. -/
theorem edited_edited_of_ne (differ : location ≠ place)
    (first : plan.Edits edit d path location rights old new)
    (second : plan.Edits edit d other place rights' old' new') :
    plan.edited edit (plan.edited edit d path) other =
      (d.put location (.file rights new.toUTF8)).put place (.file rights' new'.toUTF8) := by
  have kept : (plan.edited edit d path).item? place = d.item? place := by
    rw [edited_of_edits first, Disk.item?_put_file first.stands, if_neg (Ne.symm differ)]
  rw [edited_of_edits (second.of_kept (plan.sameModes_edited edit d path) kept),
    edited_of_edits first]

/-- **Two edits can be made in either order**, also when both paths lead to one file. -/
theorem edited_comm (settles : Settles edit) (d : Disk) (path other : Path) :
    plan.edited edit (plan.edited edit d path) other =
      plan.edited edit (plan.edited edit d other) path := by
  by_cases idle : plan.Idle edit d path
  · rw [edited_of_idle idle, edited_of_idle (idle.edited settles)]
  by_cases idle' : plan.Idle edit d other
  · rw [edited_of_idle idle', edited_of_idle (idle'.edited settles)]
  obtain ⟨location, rights, old, new, edits⟩ := exists_edits_of_not_idle idle
  obtain ⟨place, rights', old', new', edits'⟩ := exists_edits_of_not_idle idle'
  by_cases same : location = place
  · subst same
    obtain ⟨rfl, rfl, rfl⟩ := edits.unique edits'
    rw [edited_edited_of_same settles edits edits', edited_edited_of_same settles edits' edits]
  · rw [edited_edited_of_ne same edits edits', edited_edited_of_ne (Ne.symm same) edits' edits,
      Disk.put_comm same edits.stands edits'.stands]

/-! ## Several files -/

/-- The disk after files were edited one after the other. -/
def editAll (plan : FaultPlan) (edit : String → Option String) (d : Disk) (paths : List Path) :
    Disk :=
  paths.foldl (plan.edited edit) d

theorem sameModes_editAll (plan : FaultPlan) (edit : String → Option String) (d : Disk)
    (paths : List Path) : d.SameModes (plan.editAll edit d paths) := by
  induction paths generalizing d with
  | nil => exact .refl d
  | cons path rest ih => exact (plan.sameModes_edited edit d path).trans (ih _)

/-- An edit that never has anything to change leaves the disk as it is. -/
theorem editAll_of_no_change (never : ∀ text, edit text = none) (d : Disk) (paths : List Path) :
    plan.editAll edit d paths = d := by
  induction paths with
  | nil => rfl
  | cons path rest ih => rwa [editAll, List.foldl_cons, edited_of_no_change never]

/-- **In which order files are edited does not matter.** -/
theorem editAll_perm (settles : Settles edit) (perm : paths.Perm paths') (d : Disk) :
    plan.editAll edit d paths = plan.editAll edit d paths' :=
  perm.foldl_eq' (fun path _ other _ d => edited_comm settles d path other) d

/-- **A file that changes is edited by one of the paths**, and is as this edit made it: what is
listed again finds nothing to change. -/
theorem exists_edits_of_editAll (settles : Settles edit)
    (changed : (plan.editAll edit d paths).item? location ≠ d.item? location) :
    ∃ path ∈ paths, ∃ rights old new, plan.Edits edit d path location rights old new ∧
      (plan.editAll edit d paths).item? location = some (.file rights new.toUTF8) := by
  induction paths generalizing d with
  | nil => exact absurd rfl changed
  | cons path rest ih =>
    by_cases kept : (plan.edited edit d path).item? location = d.item? location
    · rw [← kept] at changed
      obtain ⟨other, mem, rights, old, new, edits, now⟩ := ih changed
      exact ⟨other, List.mem_cons_of_mem _ mem, rights, old, new, edits.before settles, now⟩
    · obtain ⟨rights, old, new, edits⟩ := exists_edits_of_changed kept
      refine ⟨path, List.mem_cons_self, rights, old, new, edits, ?_⟩
      have here := item?_edited edits
      by_contra further
      rw [← here] at further
      obtain ⟨_, _, _, _, _, again, _⟩ := ih further
      exact not_edits_of_settled (settles old new edits.edit_eq) here again

/-- A file with nothing to change in it stays as it is. -/
theorem item?_editAll_of_settled (settles : Settles edit) (settled : edit new = none)
    (stands : d.item? location = some (.file rights new.toUTF8)) (paths : List Path) :
    (plan.editAll edit d paths).item? location = some (.file rights new.toUTF8) := by
  rw [← stands]
  by_contra changed
  obtain ⟨_, _, _, _, _, edits, _⟩ := exists_edits_of_editAll settles changed
  exact not_edits_of_settled settled stands edits

/-- **Every file that is to be edited is edited.** -/
theorem item?_editAll (settles : Settles edit) (mem : path ∈ paths)
    (edits : plan.Edits edit d path location rights old new) :
    (plan.editAll edit d paths).item? location = some (.file rights new.toUTF8) := by
  have settled := settles old new edits.edit_eq
  induction paths generalizing d with
  | nil => cases mem
  | cons head rest ih =>
    have made : (plan.edited edit d head).item? location = some (.file rights new.toUTF8) →
        (plan.editAll edit d (head :: rest)).item? location = some (.file rights new.toUTF8) :=
      fun stands => item?_editAll_of_settled settles settled stands rest
    rcases List.mem_cons.1 mem with rfl | behind
    · exact made (item?_edited edits)
    · by_cases kept : (plan.edited edit d head).item? location = d.item? location
      · exact ih behind (edits.of_kept (plan.sameModes_edited edit d head) kept)
      · obtain ⟨rights', old', new', first⟩ := exists_edits_of_changed kept
        obtain ⟨rfl, rfl, rfl⟩ := edits.unique first
        exact made (item?_edited first)

/-! ## Just these edits -/

/-- One disk is another one with just the files rewritten that some paths lead to and an edit
changes. -/
structure Rewrites (plan : FaultPlan) (edit : String → Option String) (paths : List Path)
    (d d' : Disk) : Prop where
  current_eq : d'.current = d.current
  /-- What has changed is a file that was edited, -/
  of_changed : ∀ location, d'.item? location ≠ d.item? location →
    ∃ path ∈ paths, ∃ rights old new, plan.Edits edit d path location rights old new ∧
      d'.item? location = some (.file rights new.toUTF8)
  /-- and every file that could be edited was. -/
  of_edits : ∀ path ∈ paths, ∀ location rights old new,
    plan.Edits edit d path location rights old new →
      d'.item? location = some (.file rights new.toUTF8)

theorem rewrites_nil (plan : FaultPlan) (edit : String → Option String) (d : Disk) :
    plan.Rewrites edit [] d d where
  current_eq := rfl
  of_changed := fun _ changed => absurd rfl changed
  of_edits := fun _ mem => by cases mem

theorem rewrites_edited (plan : FaultPlan) (edit : String → Option String) (d : Disk)
    (path : Path) : plan.Rewrites edit [path] d (plan.edited edit d path) where
  current_eq := (plan.sameModes_edited edit d path).current_eq
  of_changed := by
    intro location changed
    obtain ⟨rights, old, new, edits⟩ := exists_edits_of_changed changed
    exact ⟨path, List.mem_singleton_self path, rights, old, new, edits, item?_edited edits⟩
  of_edits := by
    intro other mem location rights old new edits
    obtain rfl := List.mem_singleton.1 mem
    exact item?_edited edits

theorem rewrites_editAll (settles : Settles edit) (plan : FaultPlan) (d : Disk)
    (paths : List Path) : plan.Rewrites edit paths d (plan.editAll edit d paths) where
  current_eq := (plan.sameModes_editAll edit d paths).current_eq
  of_changed := fun _ changed => exists_edits_of_editAll settles changed
  of_edits := fun _ mem _ _ _ _ edits => item?_editAll settles mem edits

end FaultPlan

end MediaSweep
