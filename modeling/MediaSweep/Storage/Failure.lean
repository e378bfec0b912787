import MediaSweep.Storage.Fault
import MediaSweep.Storage.Path

/-!
# Failures

A failure is what a task tells when it cannot go on: what it was doing, on which path, and the fault
behind it.  A message names all three.
-/

namespace MediaSweep

set_option autoImplicit false

/-- Why something could not be done. -/
inductive Failure where
  | read (path : Path) (fault : FileFault)
  | write (path : Path) (fault : FileFault)
  /-- The directory of the stylesheets is missing. -/
  | noSuchRoot (path : Path)
  | listing (path : Path) (fault : FileFault)
  | backup (path : Path) (fault : FileFault)
  /-- The settings in a file cannot be used; the reason is what their reader tells. -/
  | badSettings (path : Path) (reason : String)
  /-- Settings that cannot be written. -/
  | unwritableSettings (reason : String)
  /-- No directory for settings is known. -/
  | noSettingsDirectory
  deriving DecidableEq, Repr

namespace Failure

/-- What lies behind a failure. -/
def source? : Failure → Option String
  | read _ fault => some fault.message
  | write _ fault => some fault.message
  | noSuchRoot _ => none
  | listing _ fault => some fault.message
  | backup _ fault => some fault.message
  | badSettings _ reason => some reason
  | unwritableSettings reason => some reason
  | noSettingsDirectory => none

/-- The text of a failure. -/
def message : Failure → String
  | read path fault => s!"Failed to read {path.text}: {fault.message}"
  | write path fault => s!"Failed to write {path.text}: {fault.message}"
  | noSuchRoot path => s!"Stylesheet directory not found: {path.text}"
  | listing path fault => s!"Failed to list {path.text}: {fault.message}"
  | backup path fault => s!"Backup of {path.text} failed: {fault.message}"
  | badSettings path reason => s!"Invalid config file {path.text}: {reason}"
  | unwritableSettings reason => s!"Failed to serialize config: {reason}"
  | noSettingsDirectory => "Could not determine config directory"

end Failure

end MediaSweep
