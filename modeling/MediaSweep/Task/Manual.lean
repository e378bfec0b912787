import MediaSweep.CommandLine.ManualPage
import MediaSweep.CommandLine.Programs
import MediaSweep.Storage.FileSystem
import MediaSweep.Task.Report

/-!
# Writing the manual pages

The pages of the cleaner are written to a directory, which is made if it is missing: first the page
of the program, then those of its commands in the order of declaration.  The first page that cannot
be written ends the task; those before it stay.
-/

namespace MediaSweep

set_option autoImplicit false

/-- The file names of the manual pages of a program, with the commands they tell of. -/
def manualFiles (program : CommandSpec) : List (String × CommandSpec) :=
  (program.name ++ ".1", program)
    :: program.subcommands.map fun c => (program.name ++ "-" ++ c.name ++ ".1", c)

/-- What a fault kept from being done. -/
def prevented (deed : String) (path : Path) (fault : FileFault) : Stop :=
  ⟨s!"Failed to {deed} {path.text}", [fault.message]⟩

variable {m : Type → Type} [Monad m] [FileSystem m]

/-- Write pages until one cannot be written. -/
def writePages (directory : Path) (build : String) :
    List (String × CommandSpec) → m (Option Stop)
  | [] => return none
  | (name, command) :: rest => do
    let path := directory.join name
    match ← FileSystem.writeText path (Manual.page command build) with
    | .error fault => return some (prevented "write" path fault)
    | .ok () => writePages directory build rest

/-- Write the pages of the cleaner to a directory. -/
def runManual (directory : Path) (build : String) : m Report := do
  match ← FileSystem.makeDirs directory with
  | .error fault => return .stopped [] (prevented "create" directory fault)
  | .ok () =>
    match ← writePages directory build (manualFiles cleaner) with
    | some stop => return .stopped [] stop
    | none => return .done [.raw s!"Man pages written to {directory.text}"]

end MediaSweep
