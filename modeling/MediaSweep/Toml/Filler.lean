/-!
# What stands between the words of a document

Blanks are the space and the tab.  A line ends with a newline, alone or after a carriage return; a
carriage return alone ends nothing.  A comment runs from its sign to the end of the line and may
hold every character but the control characters other than the tab.

Each reader takes the characters that are left and gives those that are left after it, or nothing
when they do not fit.
-/

namespace MediaSweep.Toml

set_option autoImplicit false

/-- Whether a character may stand as it is in comments and quoted texts. -/
def isPlain (c : Char) : Bool :=
  c = '\t' || (' ' ≤ c && c ≠ '\x7f')

/-- Whether a character is a blank. -/
def isGap (c : Char) : Bool :=
  c = ' ' || c = '\t'

/-- Skip blanks. -/
def skipGaps (cs : List Char) : List Char :=
  cs.dropWhile isGap

/-- Read the end of a line. -/
def readNewline : List Char → Option (List Char)
  | '\n' :: rest => some rest
  | '\r' :: '\n' :: rest => some rest
  | _ => none

/-- Skip a comment, if there is one, up to the end of its line or to what may not stand in it. -/
def skipComment : List Char → List Char
  | '#' :: rest => rest.dropWhile isPlain
  | cs => cs

/-- Read blanks and a comment up to the end of the line or of the document. -/
def readLineEnd (cs : List Char) : Option (List Char) :=
  match skipComment (skipGaps cs) with
  | [] => some []
  | rest => readNewline rest

/-- Skip blanks and ends of lines. -/
def skipSpace : List Char → List Char
  | [] => []
  | '\r' :: '\n' :: rest => skipSpace rest
  | c :: rest => if isGap c || c = '\n' then skipSpace rest else c :: rest

/-- Skip blanks, ends of lines and comments that end with their line. -/
def skipFiller (inComment : Bool) : List Char → Option (List Char)
  | [] => if inComment then none else some []
  | '\n' :: rest => skipFiller false rest
  | '\r' :: '\n' :: rest => skipFiller false rest
  | c :: rest =>
    if inComment then
      if isPlain c then skipFiller true rest else none
    else if isGap c then skipFiller false rest
    else if c = '#' then skipFiller true rest
    else some (c :: rest)

theorem length_skipGaps_le (cs : List Char) : (skipGaps cs).length ≤ cs.length :=
  (List.dropWhile_sublist isGap).length_le

theorem length_skipSpace_le (cs : List Char) : (skipSpace cs).length ≤ cs.length := by
  fun_induction skipSpace cs with
  | case1 => simp
  | case2 rest ih => simp only [List.length_cons]; omega
  | case3 c rest _ _ ih => simp only [List.length_cons]; omega
  | case4 c rest _ _ => simp

end MediaSweep.Toml
