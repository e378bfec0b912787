import MediaSweep.Proofs.Storage.Copying
import MediaSweep.Proofs.Storage.Rewriting

/-!
# Faults to come

A read or a write can be refused for reasons that the tree of a disk does not show.  A fault plan
says which reads and writes will be refused so, and why; what it spares is done as the disk allows.
Programs run under a plan as they do without one (`FaultPlan.Run`), and the clear plan changes
nothing (`FaultPlan.on_clear`).  A write that is refused leaves the disk as it was.
-/

namespace MediaSweep

set_option autoImplicit false

/-- Which reads and writes will be refused, and why. -/
structure FaultPlan where
  reading : Path → Option FileFault
  writing : Path → Option FileFault

namespace FaultPlan

/-- The plan that spares everything. -/
def clear : FaultPlan := ⟨fun _ => none, fun _ => none⟩

/-- Read a file, unless the plan refuses it. -/
def readBytes (plan : FaultPlan) (d : Disk) (path : Path) : Attempt ByteArray :=
  match plan.reading path with
  | some fault => .error fault
  | none => d.readBytes path

/-- Write a file, unless the plan refuses it. -/
def writeBytes (plan : FaultPlan) (d : Disk) (path : Path) (content : ByteArray) : Attempt Disk :=
  match plan.writing path with
  | some fault => .error fault
  | none => d.writeBytes path content

/-- Programs that run on a modelled disk where the plan holds. -/
def Run (_ : FaultPlan) (α : Type) : Type :=
  Disk.Run α

/-- A plan does not change how programs are put together. -/
instance (plan : FaultPlan) : Monad plan.Run :=
  inferInstanceAs (Monad Disk.Run)

/-- The plan has a say in reads and writes only. -/
instance (plan : FaultPlan) : FileSystem plan.Run where
  readBytes path := fun d => (plan.readBytes d path, d)
  writeBytes path content := Disk.change (plan.writeBytes · path content)
  copyFile source target := Disk.change (·.copyFile source target)
  makeDir path := Disk.change (·.makeDir path)
  list path := fun d => (d.list path, d)
  kind? path := fun d => (d.kind? path, d)

/-- What a program comes to on a disk. -/
def Run.on {plan : FaultPlan} {α : Type} (program : plan.Run α) (d : Disk) : α × Disk :=
  program d

/-- Under the clear plan programs do what they do without one. -/
theorem on_clear {α : Type} (program : ∀ {m : Type → Type} [Monad m] [FileSystem m], m α)
    (d : Disk) : (program : clear.Run α).on d = (program : Disk.Run α) d :=
  rfl

section

variable {plan : FaultPlan} {α β : Type} {d d' : Disk} {first : plan.Run α} {a : α}

theorem on_pure (a : α) (d : Disk) : (pure a : plan.Run α).on d = (a, d) :=
  rfl

/-- A program in two steps runs both. -/
theorem on_bind (ran : first.on d = (a, d')) (next : α → plan.Run β) :
    (first >>= next).on d = (next a).on d' :=
  run_bind ran next

end

variable {plan : FaultPlan} {d d' : Disk} {path : Path} {content : ByteArray} {location : Location}
  {rights : Rights}

theorem on_readText (plan : FaultPlan) (path : Path) (d : Disk) :
    (FileSystem.readText path : plan.Run (Attempt String)).on d =
      ((plan.readBytes d path).bind FileSystem.decode, d) :=
  rfl

/-- What comes after a write goes on with the disk that the write made, or with the one before. -/
theorem on_writeText_bind {β : Type} (plan : FaultPlan) (path : Path) (text : String)
    (next : Attempt Unit → plan.Run β) (d : Disk) :
    (FileSystem.writeText path text >>= next).on d =
      match plan.writeBytes d path text.toUTF8 with
      | .ok written => (next (.ok ())).on written
      | .error fault => (next (.error fault)).on d := by
  have writing : (FileSystem.writeText path text : plan.Run (Attempt Unit)).on d =
      match plan.writeBytes d path text.toUTF8 with
      | .ok written => (.ok (), written)
      | .error fault => (.error fault, d) := rfl
  cases written : plan.writeBytes d path text.toUTF8 with
  | ok after =>
    rw [written] at writing
    exact on_bind writing next
  | error fault =>
    rw [written] at writing
    exact on_bind writing next

/-- What is read stands where the path is found, and the plan has nothing against it. -/
theorem exists_of_readBytes (read : plan.readBytes d path = .ok content) :
    plan.reading path = none ∧ ∃ location rights, d.find path = .ok location ∧
      d.item? location = some (.file rights content) ∧ rights.read = true := by
  rw [readBytes] at read
  split at read
  · cases read
  · exact ⟨‹_›, Disk.exists_find_of_readBytes read⟩

/-- A file that is found is written in place, or left as it was. -/
theorem writeBytes_of_find {bytes : ByteArray} (spared : plan.writing path = none)
    (found : d.find path = .ok location)
    (there : d.item? location = some (.file rights content)) :
    plan.writeBytes d path bytes =
      if rights.write then .ok (d.put location (.file rights bytes)) else .error .permission := by
  rw [writeBytes, spared]
  exact Disk.writeBytes_of_find found there

/-- What is read does not hang on the contents of other files. -/
theorem readBytes_eq (same : d.SameModes d')
    (kept : ∀ location, d.find path = .ok location → d'.item? location = d.item? location) :
    plan.readBytes d' path = plan.readBytes d path := by
  rw [readBytes, readBytes, same.readBytes_eq kept]

end FaultPlan

end MediaSweep
