import MediaSweep.CommandLine.Completion
import MediaSweep.CommandLine.Invocation
import MediaSweep.Task.Compact
import MediaSweep.Task.Configure
import MediaSweep.Task.Locate
import MediaSweep.Task.Manual

/-!
# Running a line

A line is read, the task it asks for is run, and what the task told becomes the output.  A line that
leads to no run is answered; an answer that was asked for goes to the output, and every other one to
the messages of errors.  A task that stopped tells why behind what it told before.
-/

namespace MediaSweep

set_option autoImplicit false

/-- What a run is told by its surroundings. -/
structure Context where
  surroundings : Surroundings := {}
  /-- The time of the run. -/
  stamp : Stamp
  /-- Whether the output can show colours. -/
  colors : Bool := false
  /-- Which build of the program is running. -/
  build : String

/-- What a run leaves behind on its outputs. -/
structure Outcome where
  exitCode : Nat
  output : String
  errors : String
  deriving DecidableEq, Repr

/-- The texts that answer a line without a run. -/
def Reply.outcome (program : CommandSpec) (build : String) (reply : Reply) : Outcome :=
  let version := program.version.getD ""
  match reply with
  | .help page atLength => ⟨reply.exitCode, page.help atLength, ""⟩
  | .version false => ⟨reply.exitCode, s!"{program.name} {version}\n", ""⟩
  | .version true => ⟨reply.exitCode, s!"{program.name} {version} ({build})\n", ""⟩
  | .helpForLack page => ⟨reply.exitCode, "", page.help false⟩
  | _ => ⟨reply.exitCode, "", "error: " ++ reply.complaint?.getD "" ++ "\n"⟩

/-! ## Cleaning stylesheets -/

namespace Invocation

variable {m : Type → Type} [Monad m] [FileSystem m]

/-- Run a task that needs the settings. -/
def withSettings (i : Invocation) (context : Context) (task : Settings → m Report) : m Report := do
  match ← Settings.load context.surroundings i.settingsFile with
  | .error failure => return .failed [] failure
  | .ok settings => task settings

/-- Run the task of an invocation.  Listing blocks and writing completion scripts needs no settings,
and neither does writing the usual ones. -/
def run (i : Invocation) (context : Context) : m Report :=
  match i.command with
  | .targeted request => i.withSettings context (runTargeted request)
  | .blanket request =>
    i.withSettings context fun settings => runBlanket request settings context.stamp
  | .compact files most? dryRun =>
    i.withSettings context fun settings =>
      runCompact files (most?.getD settings.blanket.maxBlankLines) dryRun
  | .locate file asJson => runLocate file asJson
  | .showSettings => runShowSettings context.surroundings i.settingsFile
  | .initSettings force => runInitSettings context.surroundings i.settingsFile force
  | .completions shell => return .done [.verbatim (completionScript cleaner shell)]

/-- The colours of the output: none when the line forbids them or the output cannot show them. -/
def palette (i : Invocation) (context : Context) : Palette :=
  .ofEnabled (!i.noColor && context.colors)

/-- What a report leaves on the outputs.  A task that stopped ends the program with a code of its
own and tells why among the errors. -/
def outcome (i : Invocation) (context : Context) (report : Report) : Outcome :=
  let palette := i.palette context
  let output := Notice.renderAll palette report.notices
  match report.stop? with
  | none => ⟨0, output, ""⟩
  | some stop => ⟨1, output, palette.error.paint ("Error: " ++ stop.line) ++ "\n"⟩

end Invocation

section

variable {m : Type → Type} [Monad m] [FileSystem m]

/-- Run a line of the program that cleans stylesheets. -/
def runCleaner (context : Context) (words : List String) : m Outcome := do
  match Invocation.ofWords words with
  | .error reply => return reply.outcome cleaner context.build
  | .ok invocation => return invocation.outcome context (← invocation.run context)

/-! ## Writing manual pages -/

/-- What is told of a stop, with the causes in a list of their own. -/
def Stop.account (s : Stop) : String :=
  "Error: " ++ s.cause ++ "\n"
    ++ match s.because with
      | [] => ""
      | causes => "\nCaused by:\n" ++ String.join (causes.map fun c => "    " ++ c ++ "\n")

/-- Run a line of the program that writes manual pages.  It never uses colours. -/
def runManualWriter (context : Context) (words : List String) : m Outcome := do
  match manualDirectory words with
  | .error reply => return reply.outcome manualWriter context.build
  | .ok directory =>
    let report ← runManual directory context.build
    let output := Notice.renderAll .plain report.notices
    match report.stop? with
    | none => return ⟨0, output, ""⟩
    | some stop => return ⟨1, output, stop.account⟩

end

end MediaSweep
