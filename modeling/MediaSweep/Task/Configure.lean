import MediaSweep.Settings.Files
import MediaSweep.Task.Report

/-!
# Showing and making settings

The settings in force are shown as the document that would set them, without any colour, so that the
output can be kept as a file of settings.  The usual settings are written to a file only if there is
none yet, or if that is asked for.
-/

namespace MediaSweep

set_option autoImplicit false

variable {m : Type → Type} [Monad m] [FileSystem m]

/-- Show the settings in force as a document. -/
def runShowSettings (surroundings : Surroundings) (path? : Option Path) : m Report := do
  match ← Settings.load surroundings path? with
  | .error failure => return .failed [] failure
  | .ok settings =>
    match settings.toText with
    | .error reason => return .failed [] (.unwritableSettings reason)
    | .ok text => return .done [.verbatim text]

/-- Write the usual settings to a file. -/
def initSettings (path : Path) (force : Bool) : m Report := do
  if !force && (← FileSystem.isPresent path) then
    return .refused s!"{path.text} already exists (use --force to overwrite)"
  else
    match ← Settings.save {} path with
    | .error failure => return .failed [] failure
    | .ok () => return .done [.success s!"Config written to {path.text}"]

/-- Write the usual settings to the given file or else to the default one. -/
def runInitSettings (surroundings : Surroundings) (path? : Option Path) (force : Bool) :
    m Report :=
  match path?, surroundings.settingsFile with
  | some path, _ => initSettings path force
  | none, .ok path => initSettings path force
  | none, .error failure => return .failed [] failure

end MediaSweep
