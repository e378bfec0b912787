import MediaSweep.Text.Occurrence

/-!
# Braces and the `@media` word

A sheet is never parsed.  All that is ever asked of a line is how many curly braces it opens and
closes and whether the word `@media` stands in it.  Braces inside comments and quoted text count
like any other, and so does the word.

The depth of a place in the sheet is the sum of the changes of the lines before it.  It is an
integer: a sheet that closes more than it opened has places of negative depth.
-/

namespace MediaSweep

set_option autoImplicit false

/-- The word that a media block starts with. -/
def mediaWord : List Char := ['@', 'm', 'e', 'd', 'i', 'a']

/-- Whether the word `@media` stands anywhere in the line. -/
def isMediaLine (line : String) : Bool :=
  Text.holds mediaWord line.toList

/-- How often the word `@media` stands in the lines. -/
def mediaOccurrences (lines : List String) : Nat :=
  (lines.map fun line => Text.occurrences mediaWord line.toList).foldr (· + ·) 0

/-- The brace that opens a body. -/
def openBrace : Char := '\x7b'

/-- The brace that closes a body. -/
def closeBrace : Char := '\x7d'

/-- The numbers of opening and of closing braces in a line. -/
structure BraceTally where
  opens : Nat
  closes : Nat
  deriving DecidableEq, Repr

namespace BraceTally

/-- Count the braces of some characters. -/
def ofChars (cs : List Char) : BraceTally :=
  ⟨cs.count openBrace, cs.count closeBrace⟩

/-- Count the braces of a line. -/
def ofLine (line : String) : BraceTally :=
  ofChars line.toList

/-- What the line adds to the depth. -/
def delta (t : BraceTally) : Int :=
  (t.opens : Int) - t.closes

/-- Whether a brace is opened. -/
def hasOpen (t : BraceTally) : Bool :=
  0 < t.opens

/-- Whether a brace is closed. -/
def hasClose (t : BraceTally) : Bool :=
  0 < t.closes

theorem delta_ofChars_append (xs ys : List Char) :
    (ofChars (xs ++ ys)).delta = (ofChars xs).delta + (ofChars ys).delta := by
  simp only [ofChars, delta, List.count_append]
  omega

theorem hasOpen_ofLine {line : String} :
    (ofLine line).hasOpen = true ↔ openBrace ∈ line.toList := by
  simp [hasOpen, ofLine, ofChars, List.count_pos_iff]

theorem hasClose_ofLine {line : String} :
    (ofLine line).hasClose = true ↔ closeBrace ∈ line.toList := by
  simp [hasClose, ofLine, ofChars, List.count_pos_iff]

end BraceTally

/-- What a line adds to the depth. -/
def lineDelta (line : String) : Int :=
  (BraceTally.ofLine line).delta

/-- A line that opens no brace does not lead deeper. -/
theorem lineDelta_nonpos {line : String} (unopened : openBrace ∉ line.toList) :
    lineDelta line ≤ 0 := by
  simp [lineDelta, BraceTally.ofLine, BraceTally.ofChars, BraceTally.delta,
    List.count_eq_zero.2 unopened]

/-- A line that closes no brace does not lead out. -/
theorem lineDelta_nonneg {line : String} (unclosed : closeBrace ∉ line.toList) :
    0 ≤ lineDelta line := by
  simp [lineDelta, BraceTally.ofLine, BraceTally.ofChars, BraceTally.delta,
    List.count_eq_zero.2 unclosed]

/-- A line that only closes braces leads out. -/
theorem lineDelta_neg {line : String} (unopened : openBrace ∉ line.toList)
    (closes : closeBrace ∈ line.toList) : lineDelta line < 0 := by
  simp [lineDelta, BraceTally.ofLine, BraceTally.ofChars, BraceTally.delta,
    List.count_eq_zero.2 unopened, List.count_pos_iff, closes]

/-- A line that only opens braces leads deeper. -/
theorem lineDelta_pos {line : String} (opens : openBrace ∈ line.toList)
    (unclosed : closeBrace ∉ line.toList) : 0 < lineDelta line := by
  simp [lineDelta, BraceTally.ofLine, BraceTally.ofChars, BraceTally.delta,
    List.count_eq_zero.2 unclosed, List.count_pos_iff, opens]

/-- The depth reached after some lines, counted from zero. -/
def depthAfter (lines : List String) : Int :=
  (lines.map lineDelta).foldr (· + ·) 0

@[simp]
theorem depthAfter_nil : depthAfter [] = 0 := rfl

@[simp]
theorem depthAfter_cons (line : String) (rest : List String) :
    depthAfter (line :: rest) = lineDelta line + depthAfter rest := rfl

@[simp]
theorem depthAfter_append (xs ys : List String) :
    depthAfter (xs ++ ys) = depthAfter xs + depthAfter ys := by
  induction xs with
  | nil => simp
  | cons line rest ih => simp [ih, Int.add_assoc]

end MediaSweep
