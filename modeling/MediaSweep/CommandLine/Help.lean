import MediaSweep.CommandLine.Grammar

/-!
# Help

Help tells what a command does, how it is used, and what can be given to it.  Commands and arguments
are listed in a column as wide as its widest entry.  Help at length gives every argument a paragraph
of its own; only commands that have something to say at length are told of in that way.

Arguments given by name are listed in the order of their rank, which is their place among the named
arguments of the command that declares them; of the same rank, the one whose name comes first.  The
flags that are answered at once stand at the end.
-/

namespace MediaSweep

set_option autoImplicit false

namespace ArgSpec

/-- The name by which arguments of the same rank are ordered. -/
def sortKey (a : ArgSpec) : String :=
  match a.short, a.long with
  | some c, _ => String.ofList [c.toLower, if c.isLower then '0' else '1']
  | none, some long => long
  | none, none => "\x7b" ++ a.key

/-- The names of an argument as a list of them shows it: the short one, or room for it, and the long
one. -/
def listed (a : ArgSpec) : String :=
  match a.isPositional, a.short with
  | true, _ => a.shown
  | false, some c => "-" ++ c.toString ++ ", " ++ a.shown
  | false, none => "    " ++ a.shown

/-- What is told of the values of an argument. -/
def valueNotes (a : ArgSpec) : List String :=
  (match a.usual with
    | some value => ["[default: " ++ value ++ "]"]
    | none => [])
    ++ (match a.kind with
      | .word choices => ["[possible values: " ++ String.intercalate ", " choices ++ "]"]
      | _ => [])

/-- All that is told of an argument. -/
def explanation (a : ArgSpec) : String :=
  String.intercalate " " ((if a.help = "" then [] else [a.help]) ++ a.valueNotes)

end ArgSpec

/-- Arguments with their rank, which is their place in the list. -/
def ranked (args : List ArgSpec) : List (Nat × ArgSpec) :=
  args.zipIdx.map fun (a, i) => (i, a)

namespace CommandPage

/-- The named arguments in the order of help. -/
def listedArgs (p : CommandPage) : List ArgSpec :=
  let entries := ranked p.command.named ++ ranked p.inherited
  (entries.mergeSort fun x y =>
    x.1 < y.1 || (x.1 = y.1 && x.2.sortKey ≤ y.2.sortKey)).map (·.2)

/-- The flag for help mentions the other kind of help, if there are two. -/
def answeredArgs (p : CommandPage) (atLength : Bool) : List ArgSpec :=
  p.answered.map fun a =>
    if a.form = .helpFlag && p.hasLongHelp then
      { a with
        help :=
          if atLength then "Print help (see a summary with '-h')"
          else "Print help (see more with '--help')" }
    else a

/-- How a line for the command is put together.  Arguments with a name are summed up in one word,
and those given by their place are shown one by one. -/
def usage (p : CommandPage) : String :=
  String.intercalate " "
    ([p.title] ++ (if p.listedArgs.isEmpty then [] else ["[OPTIONS]"])
      ++ p.command.positionals.map ArgSpec.shown
      ++ if p.command.subcommands.isEmpty then [] else ["<COMMAND>"])

end CommandPage

/-- A text with blanks behind it, up to a width; a longer one stays as it is. -/
def padRight (width : Nat) (text : String) : String :=
  text ++ "".pushn ' ' (width - text.length)

/-- Lines with two columns, the first as wide as its widest entry. -/
def columns (rows : List (String × String)) : List String :=
  let width := (rows.map (·.1.length)).foldl max 0
  rows.map fun (left, right) => "  " ++ padRight width left ++ "  " ++ right

/-- Entries at length, with empty lines between them. -/
def paragraphs (rows : List (String × String)) : List String :=
  let entries := rows.map fun (left, right) => ["  " ++ left, "          " ++ right]
  List.intercalate [""] entries

/-- A list under its heading, after an empty line; nothing for an empty list. -/
def section? (heading : String) (body : List String) : List String :=
  if body.isEmpty then [] else "" :: heading :: body

namespace CommandPage

/-- The lines of help, for which a command without more to say has the short form only. -/
def helpLines (p : CommandPage) (atLength : Bool) : List String :=
  let long := atLength && p.hasLongHelp
  let about := if long then p.command.longAbout.getD p.command.about else p.command.about
  let layOut (args : List ArgSpec) : List String :=
    let rows := args.map fun a => (a.listed, a.explanation)
    if long then paragraphs rows else columns rows
  (if about = "" then [] else [about, ""])
    ++ ["Usage: " ++ p.usage]
    ++ section? "Commands:" (columns (p.command.children.map fun c => (c.name, c.about)))
    ++ section? "Arguments:" (layOut p.command.positionals)
    ++ section? "Options:" (layOut (p.listedArgs ++ p.answeredArgs long))

/-- The text of help, where every line is ended. -/
def help (p : CommandPage) (atLength : Bool) : String :=
  String.join ((p.helpLines atLength).map (· ++ "\n"))

end CommandPage

end MediaSweep
