/-!
# Colours of the output

Each line of output plays one of five roles, and a palette gives every role a colour.  On a
terminal, painted text is put between the escape code of its colour and the reset code; the
colour `plain` leaves text alone, and the plain palette is the one for pipes and files.
-/

namespace MediaSweep

set_option autoImplicit false

/-- The colours that text can be painted in. -/
inductive Color where
  | red
  | green
  | yellow
  | cyan
  | gray
  | darkGray
  | plain
  deriving DecidableEq, Repr

namespace Color

/-- The escape code that switches the colour on. -/
def code? : Color → Option String
  | red => some "\x1b[31m"
  | green => some "\x1b[32m"
  | yellow => some "\x1b[33m"
  | cyan => some "\x1b[36m"
  | gray => some "\x1b[37m"
  | darkGray => some "\x1b[90m"
  | plain => none

/-- The escape code that switches every colour off. -/
def resetCode : String := "\x1b[0m"

/-- A text in a colour, which is switched off again behind it. -/
def paint (c : Color) (text : String) : String :=
  match c.code? with
  | some code => code ++ text ++ resetCode
  | none => text

end Color

/-- A colour for each role of a line. -/
structure Palette where
  /-- File names and headings. -/
  primary : Color
  /-- Details under a heading. -/
  secondary : Color
  warning : Color
  error : Color
  success : Color
  deriving DecidableEq, Repr

namespace Palette

/-- The palette for terminals. -/
def colored : Palette :=
  { primary := .gray, secondary := .darkGray, warning := .yellow, error := .red, success := .green }

/-- The palette that leaves every text alone. -/
def plain : Palette :=
  { primary := .plain, secondary := .plain, warning := .plain, error := .plain, success := .plain }

/-- Colours when they are enabled. -/
def ofEnabled (enabled : Bool) : Palette :=
  if enabled then colored else plain

end Palette

end MediaSweep
