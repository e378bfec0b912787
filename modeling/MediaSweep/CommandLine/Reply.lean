import MediaSweep.CommandLine.Grammar
import MediaSweep.Text.Numeral
import MediaSweep.Text.Terminal

/-!
# What is answered in place of a run

A line may ask for help or for the version, or it may break the rules of its grammar.  Then nothing
is run, and this answer is given.  A message names an argument as help shows it, and a value as it
was typed, after it was divided; sequences that steer a terminal are left out of what was typed.
-/

namespace MediaSweep

set_option autoImplicit false

/-- An answer to a line that leads to no run. -/
inductive Reply where
  /-- The help of a command, at length or not. -/
  | help (page : CommandPage) (atLength : Bool)
  /-- The version, at length or not. -/
  | version (atLength : Bool)
  /-- The help of a command that lacks the command below it and has nothing else. -/
  | helpForLack (page : CommandPage)
  /-- A command lacks the command below it. -/
  | missingSubcommand (title : String)
  | unknownSubcommand (word : String)
  | unknownArgument (word : String)
  /-- An option without a value, or with an empty one where none may be. -/
  | missingValue (argument : String)
  /-- A value that is none of the words to choose from. -/
  | wrongChoice (value argument : String)
  | wrongNumeral (value argument : String) (fault : Text.NumeralFault)
  /-- An argument that is given twice and may not be. -/
  | repeated (argument : String)
  /-- A flag with a value. -/
  | unexpectedValue (value argument : String)
  /-- Some arguments that have to be given are not. -/
  | missingArguments (arguments : List String)

namespace Reply

/-- Whether the answer is what the line asked for. -/
def isWanted : Reply → Bool
  | help _ _ => true
  | version _ => true
  | _ => false

/-- The code that the program ends with.  Only an answer that was asked for is a success. -/
def exitCode (reply : Reply) : Nat :=
  if reply.isWanted then 0 else 2

/-- A word as it was typed, between the marks that messages put around it. -/
def typed (word : String) : String :=
  "'" ++ Text.withoutSequences word ++ "'"

/-- What is wrong with the line, if the answer says so. -/
def complaint? : Reply → Option String
  | help _ _ => none
  | version _ => none
  | helpForLack _ => none
  | missingSubcommand title =>
    some s!"'{title}' requires a subcommand but one was not provided"
  | unknownSubcommand word => some s!"unrecognized subcommand {typed word}"
  | unknownArgument word => some s!"unexpected argument {typed word} found"
  | missingValue argument => some s!"a value is required for '{argument}' but none was supplied"
  | wrongChoice value argument => some s!"invalid value {typed value} for '{argument}'"
  | wrongNumeral value argument fault =>
    some s!"invalid value {typed value} for '{argument}': {fault.message}"
  | repeated argument => some s!"the argument '{argument}' cannot be used multiple times"
  | unexpectedValue value argument =>
    some s!"unexpected value {typed value} for '{argument}' found; no more were expected"
  | missingArguments arguments =>
    some ("the following required arguments were not provided:"
      ++ String.join (arguments.map fun a => "\n  " ++ a))

end Reply

end MediaSweep
