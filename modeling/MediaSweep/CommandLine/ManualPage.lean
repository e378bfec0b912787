import MediaSweep.CommandLine.Help

/-!
# Manual pages

A manual page tells the same as help, in the markup of the manual: lines that start with a point are
requests, names are set bold and values slanted.  Hyphens are marked as such, so that they are not
taken for places where a line may be broken.  A command is told of without the arguments of the
commands above it.
-/

namespace MediaSweep

set_option autoImplicit false

namespace Manual

/-- How a character of a text is marked. -/
def markChar (c : Char) : List Char :=
  match c with
  | '\\' => ['\\', '\\']
  | '-' => ['\\', '-']
  | '\'' => ['\\', '*', '(', 'A', 'q']
  | c => [c]

/-- A text with its hyphens, apostrophes and backslashes marked. -/
def mark (text : String) : String :=
  String.ofList (text.toList.flatMap markChar)

/-- A text in bold letters, with the letters set back to roman behind it. -/
def bold (text : String) : String :=
  "\\fB" ++ mark text ++ "\\fR"

/-- A text in slanted letters, with the letters set back to roman behind it. -/
def slanted (text : String) : String :=
  "\\fI" ++ mark text ++ "\\fR"

/-- The requests that every page starts with. -/
def opening : List String :=
  [".ie \\n(.g .ds Aq \\(aq", ".el .ds Aq '"]

/-- The names of an argument in bold letters. -/
def names (a : ArgSpec) : List String :=
  (a.short.map fun c => bold ("-" ++ c.toString)).toList
    ++ (a.long.map fun long => bold ("--" ++ long)).toList

/-- An argument that is given by its place. -/
def placed (a : ArgSpec) : String :=
  if a.isRequired then "<" ++ slanted a.valueName ++ ">" else "[" ++ slanted a.valueName ++ "]"

/-- The arguments that a page tells of by name: those of the command itself, and the flags that are
answered at once. -/
def namedArgs (p : CommandPage) : List ArgSpec :=
  p.command.named ++ p.answeredArgs true

/-- The line that sums up how a command is used. -/
def synopsis (p : CommandPage) : String :=
  bold p.command.name ++ " "
    ++ String.join ((namedArgs p).map fun a =>
      "[" ++ String.intercalate "|" (names a) ++ "] ")
    ++ String.join (p.command.positionals.map fun a => placed a ++ " ")
    ++ if p.command.subcommands.isEmpty then "" else "<" ++ slanted "subcommands" ++ ">"

/-- The paragraphs of a text, with a request between them. -/
def flow (text : String) : List String :=
  (text.splitOn "\n\n").map mark |>.intersperse ".PP"

/-- What is told of the words that a value is chosen from. -/
def choices (a : ArgSpec) : List String :=
  match a.kind with
  | .word words =>
    ["", ".br", slanted "Possible values:", ".RS 14"]
      ++ words.flatMap (fun word => [".IP \\(bu 2", mark word])
      ++ [".RE"]
  | _ => []

/-- The lines that tell of a named argument. -/
def namedEntry (a : ArgSpec) : List String :=
  let value := if a.takesValue then " " ++ slanted ("<" ++ a.valueName ++ ">") else ""
  [".TP", String.intercalate ", " (names a) ++ value, mark a.help]

/-- The lines that tell of an argument given by its place. -/
def placedEntry (a : ArgSpec) : List String :=
  [".TP", placed a] ++ (if a.help = "" then [] else [mark a.help]) ++ choices a

/-- The lines that tell of the commands below. -/
def childEntries (p : CommandPage) : List String :=
  match p.command.children with
  | [] => []
  | children =>
    ".SH SUBCOMMANDS" :: children.flatMap fun c =>
      [".TP", mark (p.command.name ++ "-" ++ c.name) ++ "(1)", mark c.about]

/-- The lines of the page of a command; `build` tells which build of the program it belongs to. -/
def lines (command : CommandSpec) (build : String) : List String :=
  let p := CommandPage.ofProgram command
  let version := command.version.getD ""
  opening
    ++ [s!".TH {command.name} 1  \"{command.name} {version}\" ",
      ".SH NAME", mark command.name ++ " \\- " ++ mark command.about,
      ".SH SYNOPSIS", synopsis p,
      ".SH DESCRIPTION"]
    ++ flow (command.longAbout.getD command.about)
    ++ [".SH OPTIONS"]
    ++ (namedArgs p).flatMap namedEntry
    ++ command.positionals.flatMap placedEntry
    ++ childEntries p
    ++ match command.version with
      | some version => [".SH VERSION", s!"v{version} ({build})"]
      | none => []

/-- The text of the page, where every line is ended. -/
def page (command : CommandSpec) (build : String) : String :=
  String.join ((lines command build).map (· ++ "\n"))

end Manual

end MediaSweep
