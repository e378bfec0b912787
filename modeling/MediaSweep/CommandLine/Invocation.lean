import MediaSweep.CommandLine.Programs
import MediaSweep.CommandLine.Reading
import MediaSweep.Task.Blanket
import MediaSweep.Task.Targeted

/-!
# Invocations

An invocation is what a line asks a program to do, in the terms of its tasks.  It is read off what
was given on the pages of the line; reading the line has made sure that what has to be given is
there.  An argument that several pages understand counts where it stands last.
-/

namespace MediaSweep

set_option autoImplicit false

namespace Level

/-- The values that were given for an argument, in the order of the line. -/
def values (l : Level) (key : String) : List ArgValue :=
  l.given.filterMap fun (name, value) => if name = key then some value else none

/-- Whether an argument was given, with a value or as a flag. -/
def has (l : Level) (key : String) : Bool :=
  !(l.values key).isEmpty

/-- The values of an argument that are paths. -/
def paths (l : Level) (key : String) : List Path :=
  (l.values key).filterMap fun
    | .path path => some path
    | _ => none

/-- The values of an argument that are texts, and the words chosen for it. -/
def texts (l : Level) (key : String) : List String :=
  (l.values key).filterMap fun
    | .text text => some text
    | _ => none

/-- The values of an argument that are numbers. -/
def naturals (l : Level) (key : String) : List Nat :=
  (l.values key).filterMap fun
    | .natural n => some n
    | _ => none

end Level

/-! ## Cleaning stylesheets -/

/-- What the cleaner can be asked for. -/
inductive Command where
  | targeted (request : TargetedRequest)
  | blanket (request : BlanketRequest)
  | compact (files : List Path) (maxBlankLines : Option Nat) (dryRun : Bool)
  | locate (file : Path) (asJson : Bool)
  | showSettings
  | initSettings (force : Bool)
  | completions (shell : Shell)
  deriving DecidableEq, Repr

namespace Command

/-- The command of a page, by the name of the page. -/
def ofLevel (l : Level) : Option Command :=
  match l.command with
  | "targeted" =>
    some (.targeted
      { file := (l.paths "file").head?
        lines := l.naturals "line"
        dryRun := l.has "dry-run" })
  | "blanket" =>
    some (.blanket
      { root := (l.paths "root").head?
        subdirs := l.texts "subdir"
        extension := (l.texts "ext").head?
        noBackup := l.has "no-backup"
        maxBlankLines := (l.naturals "max-blank-lines").head?
        dryRun := l.has "dry-run" })
  | "compact" =>
    some (.compact (l.paths "files") (l.naturals "max-blank-lines").head? (l.has "dry-run"))
  | "locate" => (l.paths "file").head?.map fun file => .locate file (l.has "json")
  | "show" => some .showSettings
  | "init" => some (.initSettings (l.has "force"))
  | "completions" => ((l.texts "shell").head?.bind Shell.ofName?).map .completions
  | _ => none

end Command

/-- What a line asks of the cleaner. -/
structure Invocation where
  settingsFile : Option Path
  noColor : Bool
  command : Command
  deriving DecidableEq, Repr

namespace Invocation

/-- The invocation that the pages of a line make up. -/
def ofLevels? (levels : List Level) : Option Invocation := do
  let last ← levels.getLast?
  let command ← Command.ofLevel last
  some
    { settingsFile := (levels.flatMap (·.paths "config")).getLast?
      noColor := levels.any (·.has "no-color")
      command }

/-- Read a line for the cleaner.  A line whose pages make up no invocation lacks arguments; reading
lets none through. -/
def ofWords (words : List String) : Except Reply Invocation := do
  let levels ← readLine cleaner words
  match ofLevels? levels with
  | some invocation => .ok invocation
  | none => .error (.missingArguments [])

end Invocation

/-! ## Writing manual pages -/

/-- Read a line for the writer of manual pages: where they are to be written. -/
def manualDirectory (words : List String) : Except Reply Path := do
  let levels ← readLine manualWriter words
  .ok ((levels.flatMap (·.paths "out-dir")).getLast?.getD ⟨usualManualDirectory⟩)

end MediaSweep
