/-!
# Grammars of command lines

A command has arguments and may have commands below it.  An argument is given by its place, by an
option with a value, or by a flag without one.  Two flags are answered at once instead of being
kept: the one that asks for help and the one that asks for the version.

A grammar says everything that is ever told about a command: how its line is read, its help, its
manual page and its completion scripts all come from the one grammar.
-/

namespace MediaSweep

set_option autoImplicit false

/-- How an argument is given. -/
inductive ArgForm where
  /-- By its place. -/
  | positional (required : Bool)
  /-- By its name and a value. -/
  | option
  /-- By its name alone. -/
  | flag
  /-- A flag that asks for help. -/
  | helpFlag
  /-- A flag that asks for the version. -/
  | versionFlag
  deriving DecidableEq, Repr

/-- What a value has to be. -/
inductive ValueKind where
  /-- A path, which is not empty. -/
  | path
  | text
  | natural
  /-- One of some words. -/
  | word (choices : List String)
  deriving DecidableEq, Repr

/-- An argument of a command, and all that is told of it. -/
structure ArgSpec where
  /-- The name under which the argument is looked up. -/
  key : String
  form : ArgForm
  short : Option Char := none
  long : Option String := none
  /-- What stands for the value in help. -/
  valueName : String := ""
  kind : ValueKind := .text
  help : String := ""
  /-- Whether the argument may be given several times. -/
  many : Bool := false
  /-- What divides a value into several. -/
  divider : Option Char := none
  /-- Whether the argument is also understood by the commands below. -/
  shared : Bool := false
  /-- The value that is used when none is given. -/
  usual : Option String := none
  deriving DecidableEq, Repr

namespace ArgSpec

/-- Whether a value belongs to the argument, which then is no flag. -/
def takesValue (a : ArgSpec) : Bool :=
  match a.form with
  | .positional _ => true
  | .option => true
  | _ => false

/-- Whether the argument is given by its place. -/
def isPositional (a : ArgSpec) : Bool :=
  match a.form with
  | .positional _ => true
  | _ => false

/-- Whether a line without the argument is refused; only what is given by its place can be
required. -/
def isRequired (a : ArgSpec) : Bool :=
  a.form = .positional true

/-- The argument as it is named in help and in messages. -/
def shown (a : ArgSpec) : String :=
  let name :=
    match a.long, a.short with
    | some long, _ => "--" ++ long
    | none, some c => "-" ++ c.toString
    | none, none => ""
  match a.form with
  | .positional required =>
    (if required then "<" ++ a.valueName ++ ">" else "[" ++ a.valueName ++ "]")
      ++ (if a.many then "..." else "")
  | .option => name ++ " <" ++ a.valueName ++ ">"
  | _ => name

end ArgSpec

/-- A command, with its arguments and the commands below it. -/
structure CommandSpec where
  name : String
  /-- What the command does, in one line. -/
  about : String := ""
  /-- What the command does, at length. -/
  longAbout : Option String := none
  /-- The arguments in the order of declaration. -/
  args : List ArgSpec := []
  /-- Whether the command understands the flag for help. -/
  hasHelp : Bool := true
  /-- The version, for the command that has one. -/
  version : Option String := none
  /-- The commands below. -/
  subcommands : List CommandSpec := []
  deriving Repr

namespace CommandSpec

/-- The arguments that are given by their place, in order. -/
def positionals (c : CommandSpec) : List ArgSpec :=
  c.args.filter ArgSpec.isPositional

/-- The arguments that are given by their name, in the order of declaration. -/
def named (c : CommandSpec) : List ArgSpec :=
  c.args.filter fun a => !a.isPositional

/-- The command that shows the help of the commands beside it. -/
def helper : CommandSpec :=
  { name := "help"
    about := "Print this message or the help of the given subcommand(s)"
    args :=
      [{ key := "subcommand", form := .positional false, valueName := "COMMAND", many := true,
         help := "Print help for the subcommand(s)" }]
    hasHelp := false }

/-- The commands below, with the one for help at the end. -/
def children (c : CommandSpec) : List CommandSpec :=
  match c.subcommands with
  | [] => []
  | list => list ++ [helper]

end CommandSpec

/-- A command with its place below other commands. -/
structure CommandPage where
  /-- The names of the commands above and of the command, as they are typed. -/
  title : String
  command : CommandSpec
  /-- The arguments of the commands above that are understood here too. -/
  inherited : List ArgSpec := []
  deriving Repr

namespace CommandPage

/-- The page of a program, with nothing above it. -/
def ofProgram (program : CommandSpec) : CommandPage :=
  ⟨program.name, program, []⟩

/-- Whether help at length differs from short help. -/
def hasLongHelp (p : CommandPage) : Bool :=
  p.command.longAbout.isSome

/-- The flags that are answered at once. -/
def answered (p : CommandPage) : List ArgSpec :=
  (if p.command.hasHelp then
    [{ key := "help", form := .helpFlag, short := some 'h', long := some "help"
       help := "Print help" }]
  else [])
    ++ (if p.command.version.isSome then
      [{ key := "version", form := .versionFlag, short := some 'V', long := some "version"
         help := "Print version" }]
    else [])

/-- All that can be given by name on a page: the arguments of the command and of those above it, and
the flags that are answered at once. -/
def named (p : CommandPage) : List ArgSpec :=
  p.command.named ++ p.inherited ++ p.answered

/-- The argument with a long name, behind its two hyphens. -/
def findLong? (p : CommandPage) (name : String) : Option ArgSpec :=
  p.named.find? fun a => a.long = some name

/-- The argument with a short name, behind its hyphen. -/
def findShort? (p : CommandPage) (c : Char) : Option ArgSpec :=
  p.named.find? fun a => a.short = some c

/-- The page of a command below.  The command for help understands no arguments of others. -/
def child? (p : CommandPage) (name : String) : Option CommandPage :=
  (p.command.children.find? fun c => c.name = name).map fun c =>
    { title := p.title ++ " " ++ c.name
      command := c
      inherited :=
        if c.hasHelp then p.inherited ++ p.command.args.filter ArgSpec.shared else [] }

end CommandPage

end MediaSweep
