import MediaSweep.CommandLine.Grammar

/-!
# The programs

There are two: the one that cleans stylesheets, and a small one for the maintainers that writes the
manual pages of the first.
-/

namespace MediaSweep

set_option autoImplicit false

/-- The shells that completion scripts are written for. -/
inductive Shell where
  | bash
  | elvish
  | fish
  | powershell
  | zsh
  deriving DecidableEq, Repr, Inhabited

namespace Shell

/-- All shells, in the order in which they are offered. -/
def all : List Shell :=
  [bash, elvish, fish, powershell, zsh]

/-- The word that a shell is chosen by. -/
def name : Shell → String
  | bash => "bash"
  | elvish => "elvish"
  | fish => "fish"
  | powershell => "powershell"
  | zsh => "zsh"

/-- The shell that a word chooses. -/
def ofName? (name : String) : Option Shell :=
  all.find? fun shell => shell.name = name

end Shell

/-! ## Cleaning stylesheets -/

/-- Look only, and tell what would be done. -/
def dryRunFlag (help : String) : ArgSpec :=
  { key := "dry-run", form := .flag, long := some "dry-run", help }

/-- How many blank lines are kept. -/
def blankLinesOption (help : String) : ArgSpec :=
  { key := "max-blank-lines", form := .option, long := some "max-blank-lines", valueName := "N"
    kind := .natural, help }

/-- Take out blocks of one stylesheet by the lines where they start. -/
def targetedCommand : CommandSpec :=
  { name := "targeted"
    about := "Remove the media blocks starting at the given line numbers"
    longAbout := some ("Remove the media blocks starting at the given 1-based line numbers.\n\n"
      ++ "All blocks are located against the file as it is now, then removed together. "
      ++ "No backup is taken.")
    args :=
      [{ key := "file", form := .positional false, valueName := "FILE", kind := .path
         help := "Stylesheet to edit (default: [targeted].file from config)" },
        { key := "line", form := .option, short := some 'l', long := some "line", valueName := "N"
          kind := .natural, many := true, divider := some ','
          help := "1-based line where a block starts (repeatable; default: [targeted].lines)" },
        dryRunFlag "Report what would be removed without writing"] }

/-- Take out every block of all stylesheets under a root. -/
def blanketCommand : CommandSpec :=
  { name := "blanket"
    about := "Remove every media block from all stylesheets under a directory"
    args :=
      [{ key := "root", form := .positional false, valueName := "ROOT", kind := .path
         help := "Stylesheet directory (default: [blanket].root from config)" },
        { key := "subdir", form := .option, long := some "subdir", valueName := "NAME", many := true
          help := "Subdirectory whose stylesheets are also processed (repeatable)" },
        { key := "ext", form := .option, long := some "ext", valueName := "EXT"
          help := "File extension to match" },
        { key := "no-backup", form := .flag, long := some "no-backup"
          help := "Skip the timestamped backup of the directory" },
        blankLinesOption "Longest run of blank lines kept after removal",
        dryRunFlag "Report what would be removed without writing"] }

/-- Cut the blank runs of the stylesheets that are named; at least one has to be. -/
def compactCommand : CommandSpec :=
  { name := "compact"
    about := "Collapse long runs of blank lines"
    args :=
      [{ key := "files", form := .positional true, valueName := "FILES", kind := .path, many := true
         help := "Stylesheets to compact" },
        blankLinesOption "Longest run of blank lines kept",
        dryRunFlag "Report what would change without writing"] }

/-- List the blocks of a stylesheet. -/
def locateCommand : CommandSpec :=
  { name := "locate"
    about := "List the media blocks in a stylesheet without changing it"
    args :=
      [{ key := "file", form := .positional true, valueName := "FILE", kind := .path
         help := "Stylesheet to scan" },
        { key := "json", form := .flag, long := some "json", help := "Output JSON" }] }

/-- Show the settings in force. -/
def showCommand : CommandSpec :=
  { name := "show", about := "Print the effective configuration as TOML" }

/-- Write the usual settings to a file. -/
def initCommand : CommandSpec :=
  { name := "init"
    about := "Write a default configuration file"
    args :=
      [{ key := "force", form := .flag, long := some "force"
         help := "Overwrite an existing file" }] }

/-- Show settings or write them; it does nothing without one of the commands below it. -/
def configCommand : CommandSpec :=
  { name := "config"
    about := "Show or initialize the configuration file"
    subcommands := [showCommand, initCommand] }

/-- Write the completion script for a shell. -/
def completionsCommand : CommandSpec :=
  { name := "completions"
    about := "Print a shell completion script"
    args :=
      [{ key := "shell", form := .positional true, valueName := "SHELL"
         kind := .word (Shell.all.map Shell.name) }] }

/-- The program that cleans stylesheets. -/
def cleaner : CommandSpec :=
  { name := "mediastrip"
    about := "Remove CSS @media blocks from stylesheets by brace-balance scanning"
    version := some "0.1.0"
    args :=
      [{ key := "config", form := .option, long := some "config", valueName := "PATH", kind := .path
         shared := true, help := "Config file (default: <config dir>/mediastrip/config.toml)" },
        { key := "no-color", form := .flag, long := some "no-color", shared := true
          help := "Disable colored output" }]
    subcommands :=
      [targetedCommand, blanketCommand, compactCommand, locateCommand, configCommand,
        completionsCommand] }

/-! ## Writing manual pages -/

/-- Where manual pages are written unless another place is given. -/
def usualManualDirectory : String := "target/man"

/-- The program that writes manual pages. -/
def manualWriter : CommandSpec :=
  { name := "xtask"
    subcommands :=
      [{ name := "man"
         about := "Generate man pages for mediastrip and its subcommands"
         args :=
          [{ key := "out-dir", form := .option, long := some "out-dir", valueName := "OUT_DIR"
             kind := .path, usual := some usualManualDirectory }] }] }

end MediaSweep
