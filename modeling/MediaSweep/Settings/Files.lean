import MediaSweep.Settings.Decode
import MediaSweep.Settings.Encode
import MediaSweep.Storage.Failure
import MediaSweep.Storage.FileSystem

/-!
# Settings in files

Settings are kept in a file, by default in the directory that the account has for settings.  A file
that does not exist stands for the usual settings, and so does a missing directory.
-/

namespace MediaSweep

set_option autoImplicit false

/-- What the surroundings of a run say about directories. -/
structure Surroundings where
  /-- The directory for settings, if one is set. -/
  settingsHome : Option String := none
  /-- The home directory of the account, if it has one. -/
  home : Option String := none
  deriving Repr

namespace Surroundings

/-- The directory for settings: the one that is set, unless it is relative, or else the usual one in
the home directory. -/
def settingsDirectory? (s : Surroundings) : Option Path :=
  match (s.settingsHome.map Path.mk).filter Path.isAbsolute with
  | some directory => some directory
  | none => s.home.map fun home => (Path.mk home).join ".config"

/-- The file that settings are kept in. -/
def settingsFile (s : Surroundings) : Except Failure Path :=
  match s.settingsDirectory? with
  | some directory => .ok ((directory.join "mediastrip").join "config.toml")
  | none => .error .noSettingsDirectory

end Surroundings

namespace Settings

variable {m : Type → Type} [Monad m] [FileSystem m]

/-- The reason given for settings that cannot be used. -/
def faultReason (fault : SettingsFault) : String :=
  fault.message?.getD ""

/-- The settings in a file; the usual ones if there is no file. -/
def loadFrom (path : Path) : m (Except Failure Settings) := do
  if ← FileSystem.isPresent path then
    match ← FileSystem.readText path with
    | .error fault => return .error (.read path fault)
    | .ok text => return (ofText text).mapError fun fault => .badSettings path (faultReason fault)
  else return .ok {}

/-- The settings in the given file or else in the default one. -/
def load (surroundings : Surroundings) (path? : Option Path) : m (Except Failure Settings) :=
  match path?, surroundings.settingsFile with
  | some path, _ => loadFrom path
  | none, .ok path => loadFrom path
  | none, .error _ => return .ok {}

/-- Make the directory that a file lies in. -/
def makeParent (path : Path) : m (Except Failure Unit) :=
  match path.parent? with
  | none => return .ok ()
  | some parent => return (← FileSystem.makeDirs parent).mapError (Failure.write parent)

/-- Write settings to a file, and make the directories that it lies in. -/
def save (s : Settings) (path : Path) : m (Except Failure Unit) := do
  match s.toText with
  | .error reason => return .error (.unwritableSettings reason)
  | .ok text =>
    match ← makeParent path with
    | .error failure => return .error failure
    | .ok () => return (← FileSystem.writeText path text).mapError (Failure.write path)

end Settings

end MediaSweep
