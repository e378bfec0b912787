import MediaSweep.CommandLine.Run
import Std.Time.Zoned

/-!
# The program

The program runs on the files of the machine.  It cleans stylesheets, or it writes manual pages when
it is called by the name of the program for those.  All it decides is in the other modules: here the
operations on files are those of the system, the surroundings are read, and what a run leaves behind
is printed.
-/

namespace MediaSweep

set_option autoImplicit false

/-! ## The files of the machine -/

/-- The number that the system gives to an error; zero if it gives none. -/
def systemNumber : IO.Error → UInt32
  | .noFileOrDirectory _ n _ | .interrupted _ n _ => n
  | .alreadyExists _ n _ | .permissionDenied _ n _ | .inappropriateType _ n _
  | .invalidArgument _ n _ | .resourceExhausted _ n _ | .noSuchThing _ n _ => n
  | .otherError n _ | .resourceBusy n _ | .resourceVanished n _ | .unsupportedOperation n _
  | .hardwareFault n _ | .unsatisfiedConstraints n _ | .illegalOperation n _
  | .protocolError n _ | .timeExpired n _ => n
  | .unexpectedEof | .userError _ => 0

/-- The fault behind an error of the system.  Some operations give the number of an error negated. -/
def faultOf (e : IO.Error) : FileFault :=
  match (systemNumber e).toInt32.toInt.natAbs with
  | 2 => .missing
  | 13 => .permission
  | 17 => .exists
  | 20 => .notDirectory
  | 21 => .isDirectory
  | 36 => .nameTooLong
  | _ => .other (toString e)

/-- Try an operation on a path.  The system takes a character with code zero for the end of the path,
so such a path is refused here. -/
def attempt {α : Type} (path : Path) (operation : IO α) : IO (Attempt α) := do
  if path.text.contains '\x00' then return .error .nulInPath
  return (← operation.toBaseIO).mapError faultOf

/-- The kind of what the system says something is. -/
def kindOf (data : IO.FS.Metadata) : FileKind :=
  match data.type with
  | .dir => .directory
  | _ => .file

/-- What a directory holds; an entry that leads elsewhere counts as a file. -/
def entriesOf (path : Path) : IO (List (String × FileKind)) := do
  let entries ← (System.mkFilePath [path.text]).readDir
  entries.toList.mapM fun entry => do
    let data ← (System.mkFilePath [path.text, entry.fileName]).symlinkMetadata
    return (entry.fileName, kindOf data)

/-- The files of the machine.  A copy has the rights of a new file. -/
instance : FileSystem IO where
  readBytes path := attempt path (IO.FS.readBinFile path.text)
  writeBytes path content := attempt path (IO.FS.writeBinFile path.text content)
  copyFile source target := do
    match ← attempt source (IO.FS.readBinFile source.text) with
    | .error fault => return .error fault
    | .ok content => attempt target (IO.FS.writeBinFile target.text content)
  makeDir path := attempt path (IO.FS.createDir path.text)
  list path := attempt path (entriesOf path)
  kind? path := do
    match ← attempt path (System.mkFilePath [path.text]).metadata with
    | .ok data => return some (kindOf data)
    | .error _ => return none

/-! ## Running -/

/-- The time of the run, by the local clock. -/
def currentStamp : IO Stamp := do
  let now ← Std.Time.PlainDateTime.now
  return { year := now.date.year
           month := now.date.month.val.toNat
           day := now.date.day.val.toNat
           hour := now.time.hour.val.toNat
           minute := now.time.minute.val.toNat
           second := now.time.second.val.toNat }

/-- What the surroundings tell a run.  Neither the revision nor the date of the build is known. -/
def currentContext : IO Context := do
  let unwanted := (← IO.getEnv "NO_COLOR").isSome
  return { surroundings := ⟨← IO.getEnv "XDG_CONFIG_HOME", ← IO.getEnv "HOME"⟩
           stamp := ← currentStamp
           colors := !unwanted && (← (← IO.getStdout).isTty)
           build := "unknown unknown" }

end MediaSweep

open MediaSweep in
/-- Run the line that the program is called with. -/
def main (words : List String) : IO UInt32 := do
  let context ← currentContext
  let calledAs := (← IO.appPath).fileStem.getD ""
  let outcome ←
    if calledAs = manualWriter.name then runManualWriter context words
    else runCleaner context words
  IO.print outcome.output
  IO.eprint outcome.errors
  return outcome.exitCode.toUInt32
