import MediaSweep.Number.Binary64

/-!
# The shortest decimal of a floating-point number

A number is written with the fewest digits that read back as the same number, and of those with
the ones nearest to it; of two equally near ones the greater is taken.  The decimals that read
back fill an interval around the number, which reaches half way to both neighbours and includes
its ends when the mantissa is even.  For one digit, two digits and so on, the two points of the
decimal grid next to the number are tried; seventeen digits are always enough.

Numbers are written without an exponent, however long that gets, and a whole number ends in `.0`.
-/

namespace MediaSweep.Number

set_option autoImplicit false

/-- `digits` times ten to the `exponent`. -/
structure Decimal where
  digits : Nat
  exponent : Int
  deriving DecidableEq, Repr

namespace Decimal

/-- The rational that a decimal is. -/
def value (d : Decimal) : Rat :=
  d.digits * 10 ^ d.exponent

/-- Without a zero at the end of the digits. -/
def trimZero (d : Decimal) : Decimal :=
  if d.digits % 10 = 0 then ⟨d.digits / 10, d.exponent + 1⟩ else d

/-- The decimal with all its places written out and at least one behind the point. -/
def text (d : Decimal) : String :=
  let shown := Nat.toDigits 10 d.digits
  if 0 ≤ d.exponent then
    String.ofList (shown ++ List.replicate d.exponent.toNat '0') ++ ".0"
  else
    let places := (-d.exponent).toNat
    let padded := List.replicate (places + 1 - shown.length) '0' ++ shown
    String.ofList (padded.take (padded.length - places)) ++ "."
      ++ String.ofList (padded.drop (padded.length - places))

end Decimal

namespace Magnitude

/-- The distance to the next magnitude below. -/
def gapBelow (x : Magnitude) : Rat :=
  if x.mantissa = leastFullMantissa ∧ leastExponent < x.exponent then 2 ^ (x.exponent - 1)
  else 2 ^ x.exponent

/-- Whether a rational rounds to the magnitude. -/
def covers (x : Magnitude) (y : Rat) : Bool :=
  let low := x.value - x.gapBelow / 2
  let high := x.value + 2 ^ x.exponent / 2
  if x.mantissa % 2 = 0 then low ≤ y ∧ y ≤ high else low < y ∧ y < high

/-- The number of decimal places before the point, counted negatively for zeros behind it. -/
def places (x : Magnitude) : Int :=
  let scaled := (x.value * 10 ^ Binary64.placesBelow).floor.toNat
  (Nat.toDigits 10 scaled).length - Binary64.placesBelow

/-- The decimal with `count` digits that reads back as the magnitude, if there is one. -/
def decimalOf? (x : Magnitude) (count : Nat) : Option Decimal :=
  let exponent := x.places - count
  let digits := (x.value / 10 ^ exponent).floor.toNat
  let below : Decimal := ⟨digits, exponent⟩
  let above : Decimal := ⟨digits + 1, exponent⟩
  match x.covers below.value, x.covers above.value with
  | true, true => some (if x.value - below.value < above.value - x.value then below else above)
  | true, false => some below
  | false, true => some above
  | false, false => none

/-- The shortest decimal that reads back as the magnitude. -/
def shortest (x : Magnitude) : Decimal :=
  if x.mantissa = 0 then ⟨0, 0⟩
  else (((List.range' 1 17).findSome? x.decimalOf?).getD ⟨0, 0⟩).trimZero

end Magnitude

namespace Binary64

/-- The text of a number; one that is not finite is written as a word. -/
def text : Binary64 → String
  | finite negative magnitude => (if negative then "-" else "") ++ magnitude.shortest.text
  | infinite negative => if negative then "-inf" else "inf"
  | nan => "NaN"

end Binary64

end MediaSweep.Number
