import MediaSweep.CommandLine.Reply
import MediaSweep.Storage.Path

/-!
# Reading command lines

A line is read from the left, one word at a time, on the page of a command.  A word that names a
command below hands the rest of the line over to its page.  Two hyphens alone end the reading of
options: what follows is given by place.

An argument with a value is not taken up when it is met but when the reading goes on to the next
argument or comes to the end, for only then is it known what belongs to it.  A word that nobody
understands ends the reading at once, so what is wrong with an argument that waits is not told then.
What waits on a page above a command is taken up after the page of the command has been read.

Taking up an argument first looks whether it has a value, then whether it was given before, and then
at its values from the left.
-/

namespace MediaSweep

set_option autoImplicit false

/-! ## Words -/

/-- What a word looks like. -/
inductive Word where
  /-- Two hyphens alone. -/
  | stop
  /-- A name after two hyphens, and what follows an equals sign. -/
  | long (name : String) (value : Option String)
  /-- Letters after one hyphen. -/
  | short (letters : List Char)
  | plain
  deriving DecidableEq, Repr

/-- A name, and the value behind its first equals sign, if there is one. -/
def divideAtEquals (cs : List Char) : String × Option String :=
  match cs.dropWhile (· ≠ '=') with
  | _ :: value => (String.ofList (cs.takeWhile (· ≠ '=')), some (String.ofList value))
  | [] => (String.ofList cs, none)

/-- What a word looks like; a hyphen alone is plain. -/
def Word.of (word : String) : Word :=
  match word.toList with
  | ['-', '-'] => .stop
  | '-' :: '-' :: cs =>
    let (name, value) := divideAtEquals cs
    .long name value
  | ['-'] => .plain
  | '-' :: letters => .short letters
  | _ => .plain

/-! ## Values -/

/-- A value that was read for an argument. -/
inductive ArgValue where
  | path (path : Path)
  | text (text : String)
  | natural (n : Nat)
  /-- A flag is given. -/
  | set
  deriving DecidableEq, Repr

/-- Read a value as the kind of its argument demands. -/
def ArgSpec.readValue (a : ArgSpec) (value : String) : Except Reply ArgValue :=
  match a.kind with
  | .path => if value = "" then .error (.missingValue a.shown) else .ok (.path ⟨value⟩)
  | .text => .ok (.text value)
  | .natural =>
    match Text.readNumeral value with
    | .ok n => .ok (.natural n)
    | .error fault => .error (.wrongNumeral value a.shown fault)
  | .word choices =>
    if value ∈ choices then .ok (.text value)
    else if value = "" then .error (.missingValue a.shown)
    else .error (.wrongChoice value a.shown)

/-- The parts of a value that may hold several. -/
def ArgSpec.divide (a : ArgSpec) (value : String) : List String :=
  match a.divider with
  | none => [value]
  | some c => (value.toList.splitOn c).map String.ofList

/-! ## Arguments on a page -/

/-- What was given for one command. -/
structure Level where
  /-- The name of the command. -/
  command : String
  /-- The values, each with the key of its argument. -/
  given : List (String × ArgValue)
  deriving Repr

/-- How far the reading of a page has come. -/
structure ReadState where
  /-- What has been taken up. -/
  given : List (String × ArgValue) := []
  /-- The argument that waits to be taken up, and its values so far. -/
  waiting : Option (ArgSpec × List String) := none
  /-- How many places have been filled. -/
  filled : Nat := 0
  /-- Whether all that follows is given by place. -/
  byPlace : Bool := false

namespace ReadState

/-- Whether an option waits for its value. -/
def wantsValue (s : ReadState) : Bool :=
  match s.waiting with
  | some (_, []) => true
  | _ => false

/-- Take up an argument with its values, or answer with what is wrong with them.  A flag that is
answered at once gets here by its short name, and is answered in short. -/
def takeUp (page : CommandPage) (s : ReadState) (a : ArgSpec) (values : List String) :
    Except Reply ReadState :=
  match a.form with
  | .helpFlag => .error (.help page false)
  | .versionFlag => .error (.version false)
  | _ =>
    if a.takesValue && values.isEmpty then .error (.missingValue a.shown)
    else if !a.many && s.given.any (·.1 = a.key) then .error (.repeated a.shown)
    else if a.takesValue then do
      let read ← (values.flatMap a.divide).mapM a.readValue
      .ok { s with given := s.given ++ read.map (a.key, ·) }
    else .ok { s with given := s.given ++ [(a.key, .set)] }

/-- Take up the argument that waits, if there is one. -/
def settle (page : CommandPage) (s : ReadState) : Except Reply ReadState :=
  match s.waiting with
  | none => .ok s
  | some (a, values) => takeUp page { s with waiting := none } a values

/-- Go on to another argument whose values are known. -/
def goOn (page : CommandPage) (s : ReadState) (a : ArgSpec) (values : List String) :
    Except Reply ReadState := do
  takeUp page (← s.settle page) a values

/-- Go on to an argument whose values are still to come. -/
def await (page : CommandPage) (s : ReadState) (a : ArgSpec) (values : List String) :
    Except Reply ReadState := do
  return { (← s.settle page) with waiting := some (a, values) }

/-- Meet an argument with a long name. -/
def readLong (page : CommandPage) (s : ReadState) (name : String) (value : Option String) :
    Except Reply ReadState :=
  match page.findLong? name with
  | none => .error (.unknownArgument ("--" ++ name))
  | some a =>
    if a.takesValue then
      match value with
      | some value => s.goOn page a [value]
      | none => s.await page a []
    else
      match value with
      | some value => .error (.unexpectedValue value a.shown)
      | none => do
        let s ← s.settle page
        match a.form with
        | .helpFlag => .error (.help page true)
        | .versionFlag => .error (.version true)
        | _ => s.takeUp page a []

/-- Meet arguments with short names; what follows the name of an option is its value. -/
def readShort (page : CommandPage) (s : ReadState) : List Char → Except Reply ReadState
  | [] => .ok s
  | c :: rest =>
    match page.findShort? c with
    | none => .error (.unknownArgument ("-" ++ c.toString))
    | some a =>
      if a.takesValue then
        match rest with
        | [] => s.await page a []
        | '=' :: value => s.goOn page a [String.ofList value]
        | value => s.goOn page a [String.ofList value]
      else do
        let s ← s.goOn page a []
        s.readShort page rest

/-- Meet a word that is given by its place. -/
def readPlaced (page : CommandPage) (s : ReadState) (word : String) : Except Reply ReadState :=
  match page.command.positionals[s.filled]? with
  | none =>
    if page.command.subcommands.isEmpty || (s.byPlace && (page.child? word).isSome) then
      .error (.unknownArgument word)
    else .error (.unknownSubcommand word)
  | some a =>
    match s.waiting with
    | some (b, values) =>
      if a = b then .ok { s with waiting := some (a, values ++ [word]) }
      else do
        let s ← s.await page a [word]
        return { s with filled := if a.many then s.filled else s.filled + 1 }
    | none =>
      .ok { s with
        waiting := some (a, [word])
        filled := if a.many then s.filled else s.filled + 1 }

/-- Meet a word that is plain. -/
def readPlain (page : CommandPage) (s : ReadState) (word : String) : Except Reply ReadState :=
  match s.waiting with
  | some (a, []) => .ok { s with waiting := some (a, [word]) }
  | _ => s.readPlaced page word

/-- Meet a word that names no command below. -/
def readWord (page : CommandPage) (s : ReadState) (word : String) : Except Reply ReadState :=
  if s.byPlace then s.readPlaced page word
  else
    match Word.of word with
    | .stop => .ok { s with byPlace := true }
    | .long name value => s.readLong page name value
    | .short letters => s.readShort page letters
    | .plain => s.readPlain page word

/-- Take up what waits and look whether anything is missing. -/
def finish (page : CommandPage) (s : ReadState) (hasSubcommand : Bool) :
    Except Reply (List (String × ArgValue)) := do
  let s ← s.settle page
  if !hasSubcommand && !page.command.subcommands.isEmpty then
    if s.given = [] then .error (.helpForLack page) else .error (.missingSubcommand page.title)
  else
    let missing := page.command.positionals.filter fun a =>
      a.isRequired && !s.given.any (·.1 = a.key)
    if missing = [] then .ok s.given
    else .error (.missingArguments (missing.map ArgSpec.shown))

end ReadState

/-! ## Whole lines -/

/-- Find the page that words name, one below the other, and answer with its help. -/
def helpFor (page : CommandPage) : List String → Reply
  | [] => .help page true
  | word :: rest =>
    match page.child? word with
    | some below => helpFor below rest
    | none => .unknownSubcommand word

/-- Read the rest of a line from a page on.  What is wrong on a page below is told before what is
wrong with the argument that waits on this one. -/
def readWords (page : CommandPage) (s : ReadState) : List String → Except Reply (List Level)
  | [] => do
    let given ← s.finish page false
    return [⟨page.command.name, given⟩]
  | word :: rest =>
    if s.byPlace || s.wantsValue then do
      let s ← s.readWord page word
      readWords page s rest
    else
      match page.child? word with
      | some below =>
        if below.command.name = CommandSpec.helper.name then .error (helpFor page rest)
        else do
          let levels ← readWords below {} rest
          let given ← s.finish page true
          return ⟨page.command.name, given⟩ :: levels
      | none => do
        let s ← s.readWord page word
        readWords page s rest

/-- Read the words behind the name of a program. -/
def readLine (program : CommandSpec) (words : List String) : Except Reply (List Level) :=
  readWords (.ofProgram program) {} words

end MediaSweep
