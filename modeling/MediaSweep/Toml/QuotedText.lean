import MediaSweep.Toml.Escape
import MediaSweep.Toml.Filler

/-!
# Reading quoted texts

There are four ways to quote a text.  Double quotes allow escapes, single quotes do not; three
quotes on each side allow line ends.  A long text loses the line end that directly follows its
opening quotes, reads every line end as a newline, and may end with one or two quotes of its own in
front of the closing ones.  In a long text between double quotes a backslash at the end of a line
removes the line end and all blank space after it.

Each reader starts behind the opening quotes and gives the text and what is left behind the closing
ones.
-/

namespace MediaSweep.Toml

set_option autoImplicit false

/-- A text that was read, and the characters left after it. -/
abbrev Reading := Option (List Char × List Char)

/-- Put a character before the text that was read. -/
def Reading.before (c : Char) (r : Reading) : Reading :=
  r.map fun (text, rest) => (c :: text, rest)

/-- Read a text between double quotes. -/
def readBasic (cs : List Char) : Reading :=
  match cs with
  | [] => none
  | c :: rest =>
    if c = '"' then some ([], rest)
    else if c = '\\' then
      match read : readEscape rest with
      | some (d, after) =>
        have := readEscape_length read
        (readBasic after).before d
      | none => none
    else if isPlain c then (readBasic rest).before c
    else none
termination_by cs.length
decreasing_by all_goals simp only [List.length_cons]; omega

/-- Read a text between single quotes, where a backslash is a backslash. -/
def readLiteral : List Char → Reading
  | [] => none
  | c :: rest =>
    if c = '\'' then some ([], rest)
    else if isPlain c then (readLiteral rest).before c
    else none

/-- The end of a long text: one or two more quotes belong to the text. -/
def closeLong (quote : Char) (rest : List Char) : List Char × List Char :=
  let inside := (rest.take 2).takeWhile (· = quote)
  (inside, rest.drop inside.length)

/-- Read the removed end of a line, after its backslash. -/
def readContinuation (cs : List Char) : Option (List Char) :=
  (readNewline (skipGaps cs)).map skipSpace

theorem readNewline_length {cs rest : List Char} (read : readNewline cs = some rest) :
    rest.length < cs.length := by
  rw [readNewline.eq_def] at read
  split at read <;> simp only [Option.some.injEq, reduceCtorEq] at read
  all_goals
    subst read
    simp only [List.length_cons]
    omega

theorem readContinuation_length {cs rest : List Char} (read : readContinuation cs = some rest) :
    rest.length < cs.length := by
  obtain ⟨after, newline, rfl⟩ := Option.map_eq_some_iff.1 read
  have := readNewline_length newline
  have := length_skipGaps_le cs
  have := length_skipSpace_le after
  omega

/-- Read a text between three double quotes. -/
def readLongBasic (cs : List Char) : Reading :=
  match cs with
  | [] => none
  | '"' :: '"' :: '"' :: rest => some (closeLong '"' rest)
  | c :: rest =>
    if c = '\\' then
      match continued : readContinuation rest with
      | some after =>
        have := readContinuation_length continued
        readLongBasic after
      | none =>
        match read : readEscape rest with
        | some (d, after) =>
          have := readEscape_length read
          (readLongBasic after).before d
        | none => none
    else
      match newline : readNewline (c :: rest) with
      | some after =>
        have := readNewline_length newline
        (readLongBasic after).before '\n'
      | none => if isPlain c then (readLongBasic rest).before c else none
termination_by cs.length
decreasing_by all_goals simp only [List.length_cons] at *; omega

/-- Read a text between three single quotes. -/
def readLongLiteral : List Char → Reading
  | [] => none
  | '\'' :: '\'' :: '\'' :: rest => some (closeLong '\'' rest)
  | '\r' :: '\n' :: rest => (readLongLiteral rest).before '\n'
  | c :: rest => if c = '\n' || isPlain c then (readLongLiteral rest).before c else none

/-- Leave out a line end that comes first. -/
def skipFirstNewline (cs : List Char) : List Char :=
  (readNewline cs).getD cs

/-- Read a text on one line, from its opening quote on. -/
def readShortText : List Char → Reading
  | '"' :: rest => readBasic rest
  | '\'' :: rest => readLiteral rest
  | _ => none

/-- Read a text, from its opening quotes on. -/
def readText : List Char → Reading
  | '"' :: '"' :: '"' :: rest => readLongBasic (skipFirstNewline rest)
  | '\'' :: '\'' :: '\'' :: rest => readLongLiteral (skipFirstNewline rest)
  | cs => readShortText cs

end MediaSweep.Toml
