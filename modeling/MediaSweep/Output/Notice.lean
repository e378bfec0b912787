import MediaSweep.Output.Palette

/-!
# Notices

Everything a run tells is a list of notices, each with its role; what it does with files does not
depend on how they are shown.  Shown, a notice is one line, ended by a newline and painted in the
colour of its role; a detail is set three blanks to the right.  Only `verbatim` text is shown
without an end of line of its own, for output that other programs read.
-/

namespace MediaSweep

set_option autoImplicit false

/-- Something a run tells. -/
inductive Notice where
  | info (text : String)
  | detail (text : String)
  | success (text : String)
  | warning (text : String)
  | error (text : String)
  /-- An empty line. -/
  | blank
  /-- A line without colour. -/
  | raw (text : String)
  /-- Text without colour and without an end of line. -/
  | verbatim (text : String)
  deriving DecidableEq, Repr

namespace Notice

/-- The indentation of details. -/
def indent : String := "   "

/-- The text of a notice as it is shown. -/
def render (palette : Palette) : Notice → String
  | info text => palette.primary.paint text ++ "\n"
  | detail text => palette.secondary.paint (indent ++ text) ++ "\n"
  | success text => palette.success.paint text ++ "\n"
  | warning text => palette.warning.paint text ++ "\n"
  | error text => palette.error.paint text ++ "\n"
  | blank => "\n"
  | raw text => text ++ "\n"
  | verbatim text => text

/-- The text of some notices, one after the other. -/
def renderAll (palette : Palette) (notices : List Notice) : String :=
  String.join (notices.map (render palette))

end Notice

end MediaSweep
