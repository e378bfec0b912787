/-!
# Decimal numerals

Numbers on the command line are decimal digits, at least one, with at most a plus sign in front;
leading zeros are allowed and nothing else is.  They must be machine words, so a numeral can be
refused for its shape or for its size.  The digits are read from the left and the first thing
wrong is what is reported: a numeral that outgrows a word before it reaches a character that is
no digit is too large, not malformed.
-/

namespace MediaSweep.Text

set_option autoImplicit false

/-- The least number that is no machine word. -/
def wordBound : Nat := Nat.pow 2 64

/-- What can be wrong with a numeral. -/
inductive NumeralFault where
  | empty
  | invalidDigit
  | tooLarge
  deriving DecidableEq, Repr

/-- How a fault is reported. -/
def NumeralFault.message : NumeralFault → String
  | .empty => "cannot parse integer from empty string"
  | .invalidDigit => "invalid digit found in string"
  | .tooLarge => "number too large to fit in target type"

/-- The value of a decimal digit. -/
def digitValue? (c : Char) : Option Nat :=
  if c.isDigit then some (c.toNat - '0'.toNat) else none

/-- Read digits from the left onto the number read so far. -/
def readDigits (value : Nat) : List Char → Except NumeralFault Nat
  | [] => .ok value
  | c :: rest =>
    match digitValue? c with
    | none => .error .invalidDigit
    | some digit =>
      if value * 10 + digit < wordBound then readDigits (value * 10 + digit) rest
      else .error .tooLarge

/-- Read a numeral.  A plus sign alone is no number, and a minus sign is never part of one. -/
def readNumeral (text : String) : Except NumeralFault Nat :=
  match text.toList with
  | [] => .error .empty
  | ['+'] => .error .invalidDigit
  | '+' :: digits => readDigits 0 digits
  | digits => readDigits 0 digits

theorem readDigits_lt {digits : List Char} {value number : Nat} (small : value < wordBound)
    (read : readDigits value digits = .ok number) : number < wordBound := by
  induction digits generalizing value with
  | nil =>
    cases read
    exact small
  | cons c rest ih =>
    rw [readDigits] at read
    split at read
    · exact absurd read (by simp)
    · split at read
      · rename_i fits
        exact ih fits read
      · exact absurd read (by simp)

/-- Every number read is a machine word. -/
theorem readNumeral_lt {text : String} {number : Nat} (read : readNumeral text = .ok number) :
    number < wordBound := by
  have positive : 0 < wordBound := by decide
  rw [readNumeral] at read
  split at read
  · exact absurd read (by simp)
  · exact absurd read (by simp)
  · exact readDigits_lt positive read
  · exact readDigits_lt positive read

end MediaSweep.Text
