import MediaSweep.Number.Binary64

/-!
# Sizes of files

A size is shown in the decimal unit that leaves it below a thousand.  The count is turned into a
floating-point number and divided by a thousand, again and again, rounding every time; the rest is
written without decimals when it is whole and with two when it is not.  Rounding to two decimals
comes last, so just below the next unit it can show a thousand.
-/

namespace MediaSweep.Number

set_option autoImplicit false

/-- The units of size, each a thousand times the one before. -/
def byteUnits : List String :=
  ["B", "kB", "MB", "GB", "TB", "PB", "EB", "ZB", "YB"]

/-- Divide by a thousand until less than a thousand is left or the units run out. -/
def toUnit (size : Rat) (unit : String) : List String → Rat × String
  | [] => (size, unit)
  | next :: units =>
    if size < 1000 then (size, unit)
    else toUnit (((Magnitude.nearest? (size / 1000)).map Magnitude.value).getD 0) next units

/-- A number that is not negative, rounded to two decimals. -/
def twoPlaces (x : Rat) : String :=
  let hundredths := (roundHalfEven (x * 100)).toNat
  let tens := hundredths % 100 / 10
  let ones := hundredths % 10
  toString (hundredths / 100) ++ "." ++ toString tens ++ toString ones

/-- The text of a number of bytes. -/
def byteSize (bytes : Nat) : String :=
  let size := ((Magnitude.nearest? bytes).map Magnitude.value).getD 0
  let (rest, unit) := toUnit size "B" (byteUnits.drop 1)
  let number := if rest.den = 1 then toString rest.num.toNat else twoPlaces rest
  number ++ " " ++ unit

end MediaSweep.Number
