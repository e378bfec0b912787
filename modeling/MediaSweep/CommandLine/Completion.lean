import MediaSweep.CommandLine.Help
import MediaSweep.CommandLine.Programs

/-!
# Completion scripts

A script tells a shell which words can stand next in a line: behind the words that lead to a command
these are the names of the commands below it and the options that it understands.  All scripts are
made from the same list of pages; they differ in the language of their shell only.
-/

namespace MediaSweep

set_option autoImplicit false

namespace CommandPage

/-- The page and the pages of the commands below it, down to some depth. -/
def descend (depth : Nat) (p : CommandPage) : List CommandPage :=
  match depth with
  | 0 => [p]
  | depth + 1 =>
    p :: (p.command.children.filterMap fun c => p.child? c.name).flatMap (descend depth)

/-- The words that can stand next on a page. -/
def candidates (p : CommandPage) : List String :=
  p.command.children.map (·.name)
    ++ (p.listedArgs ++ p.answered).flatMap fun a =>
      (a.short.map fun c => "-" ++ c.toString).toList ++ (a.long.map ("--" ++ ·)).toList

/-- The words to choose from for the values given by place. -/
def choices (p : CommandPage) : List String :=
  p.command.positionals.flatMap fun a =>
    match a.kind with
    | .word words => words
    | _ => []

/-- All that can stand next on a page, in one line. -/
def offer (p : CommandPage) : String :=
  String.intercalate " " (p.candidates ++ p.choices)

end CommandPage

namespace Completion

/-- The pages of a program: its own, and those of the commands below it, as deep as commands go. -/
def pages (program : CommandSpec) : List CommandPage :=
  (CommandPage.ofProgram program).descend 3

/-- The text of a script, where every line is ended. -/
def script (lines : List String) : String :=
  String.join (lines.map (· ++ "\n"))

/-- The script for shells that complete by a function over the words of the line. -/
def functionLines (program : CommandSpec) : List String :=
  let below := (pages program).drop 1
  ["_" ++ program.name ++ "() \x7b",
    "    local current=\"$\x7bCOMP_WORDS[COMP_CWORD]\x7d\"",
    "    local place=\"" ++ program.name ++ "\" word",
    "    for word in \"$\x7bCOMP_WORDS[@]:1:COMP_CWORD-1\x7d\"; do",
    "        case \"$place $word\" in"]
    ++ below.map (fun p => "            \"" ++ p.title ++ "\") place=\"" ++ p.title ++ "\" ;;")
    ++ ["        esac",
      "    done",
      "    case \"$place\" in"]
    ++ (pages program).map (fun p =>
      "        \"" ++ p.title ++ "\") COMPREPLY=($(compgen -W \"" ++ p.offer
        ++ "\" -- \"$current\")) ;;")
    ++ ["    esac",
      "\x7d",
      "complete -F _" ++ program.name ++ " -o bashdefault -o default " ++ program.name]

/-- The condition that the words of a page have been typed. -/
def seen (p : CommandPage) : String :=
  String.intercalate "; and "
    (((p.title.splitOn " ").drop 1).map fun word => "__fish_seen_subcommand_from " ++ word)

/-- The lines for one page in the language of fish. -/
def fishLines (program : CommandSpec) (p : CommandPage) : List String :=
  let condition := if seen p = "" then "__fish_use_subcommand" else seen p
  let start := "complete -c " ++ program.name ++ " -n \"" ++ condition ++ "\""
  p.command.children.map (fun c => start ++ " -f -a \"" ++ c.name ++ "\"")
    ++ p.choices.map (fun word => start ++ " -f -a \"" ++ word ++ "\"")
    ++ (p.listedArgs ++ p.answered).map fun a =>
      start ++ String.join ((a.short.map fun c => " -s " ++ c.toString).toList)
        ++ String.join ((a.long.map fun long => " -l " ++ long).toList)
        ++ if a.takesValue then " -r" else ""

/-- The script for PowerShell: a table of what every page offers, and a walk from page to page along
the words of the line. -/
def powershellLines (program : CommandSpec) : List String :=
  ["Register-ArgumentCompleter -Native -CommandName '" ++ program.name ++ "' -ScriptBlock \x7b",
    "    param($word, $line, $position)",
    "    $place = '" ++ program.name ++ "'",
    "    $offers = @\x7b"]
    ++ (pages program).map (fun p => "        '" ++ p.title ++ "' = '" ++ p.offer ++ "'")
    ++ ["    \x7d",
      "    foreach ($element in $line.CommandElements | Select-Object -Skip 1) \x7b",
      "        $next = $place + ' ' + $element.ToString()",
      "        if ($offers.ContainsKey($next)) \x7b $place = $next \x7d",
      "    \x7d",
      "    $offers[$place].Split(' ') | Where-Object \x7b $_ -like ($word + '*') \x7d",
      "\x7d"]

/-- The script for Elvish, with the same table and the same walk. -/
def elvishLines (program : CommandSpec) : List String :=
  ["set edit:completion:arg-completer[" ++ program.name ++ "] = \x7b|@words|",
    "    var place = " ++ program.name,
    "    var offers = ["]
    ++ (pages program).map (fun p => "        &'" ++ p.title ++ "'='" ++ p.offer ++ "'")
    ++ ["    ]",
      "    for word $words[1..-1] \x7b",
      "        var next = $place' '$word",
      "        if (has-key $offers $next) \x7b set place = $next \x7d",
      "    \x7d",
      "    use str",
      "    str:split ' ' $offers[$place]",
      "\x7d"]

end Completion

/-- The completion script of a program for a shell. -/
def completionScript (program : CommandSpec) : Shell → String
  | .bash => Completion.script (Completion.functionLines program)
  | .zsh =>
    Completion.script ((("#" ++ "compdef ") ++ program.name)
      :: "autoload -U +X bashcompinit && bashcompinit" :: Completion.functionLines program)
  | .fish =>
    Completion.script ((Completion.pages program).flatMap (Completion.fishLines program))
  | .powershell => Completion.script (Completion.powershellLines program)
  | .elvish => Completion.script (Completion.elvishLines program)

end MediaSweep
