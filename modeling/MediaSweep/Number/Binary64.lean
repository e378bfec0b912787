import MediaSweep.Number.Digits
import MediaSweep.Number.Rounding

/-!
# Binary floating-point numbers of 64 bits

A finite number is a mantissa below two to the 53 times a power of two whose exponent is at least
-1074 and at most 971.  It is kept as exactly that, so every step of the arithmetic is a step on
exact rationals followed by one rounding: `Magnitude.nearest?` takes a rational that is not negative
to the magnitude nearest to it, and to nothing when it is too large for any.
-/

namespace MediaSweep.Number

set_option autoImplicit false

/-- The absolute value of a finite number. -/
structure Magnitude where
  mantissa : Nat
  exponent : Int
  deriving DecidableEq, Repr

namespace Magnitude

/-- The number of binary digits of a mantissa. -/
def precision : Nat := 53

/-- The least mantissa of full precision. -/
def leastFullMantissa : Nat := Nat.pow 2 (precision - 1)

/-- The exponent of the numbers nearest to zero. -/
def leastExponent : Int := -1074

/-- The exponent of the greatest finite numbers. -/
def greatestExponent : Int := 971

/-- The rational that a magnitude is. -/
def value (x : Magnitude) : Rat :=
  x.mantissa * 2 ^ x.exponent

/-- Zero, which is kept at the least exponent. -/
def zero : Magnitude := ⟨0, leastExponent⟩

/-- The exponent at which a positive rational has a mantissa of full precision, or the least one
if that is below it. -/
def exponentOf (x : Rat) : Int :=
  let estimate : Int := (x.num.toNat.log2 : Int) - x.den.log2 - precision
  max leastExponent (if x / 2 ^ estimate < 2 ^ precision then estimate else estimate + 1)

/-- The magnitude nearest to a rational that is not negative; a half goes to the even mantissa. -/
def nearest? (x : Rat) : Option Magnitude :=
  let exponent := exponentOf x
  let mantissa := (roundHalfEven (x / 2 ^ exponent)).toNat
  let rounded : Magnitude :=
    if mantissa = Nat.pow 2 precision then ⟨leastFullMantissa, exponent + 1⟩
    else ⟨mantissa, exponent⟩
  if mantissa = 0 then some zero
  else if greatestExponent < rounded.exponent then none
  else some rounded

end Magnitude

/-- A number of 64 bits.  Zero has a sign as well. -/
inductive Binary64 where
  | finite (negative : Bool) (magnitude : Magnitude)
  | infinite (negative : Bool)
  | nan
  deriving DecidableEq, Repr

namespace Binary64

/-- Decimals of more than this many places before the point are beyond every finite number. -/
def placesAbove : Int := 310

/-- Decimals whose first digit stands this many places behind the point or later round to zero. -/
def placesBelow : Int := 330

/-- So many digits are always told apart: every number half way between two neighbours has fewer. -/
def decisiveDigits : Nat := 800

/-- The digits that decide where a decimal lies between the numbers with few digits: the first ones,
and a one in place of all others unless those are zeros. -/
def decisive (digits : List Nat) : List Nat :=
  digits.take decisiveDigits
    ++ if (digits.drop decisiveDigits).all (· = 0) then [] else [1]

/-- The number nearest to a decimal with a sign.  The point stands `exponent` places behind the last
of the digits. -/
def ofDecimal (negative : Bool) (digits : List Nat) (exponent : Int) : Binary64 :=
  let digits := digits.dropWhile (· = 0)
  let places : Int := digits.length + exponent
  if digits.isEmpty ∨ places < -placesBelow then .finite negative .zero
  else if placesAbove < places then .infinite negative
  else
    let kept := decisive digits
    match Magnitude.nearest? (ofDigits 10 kept * 10 ^ (places - kept.length)) with
    | some magnitude => .finite negative magnitude
    | none => .infinite negative

end Binary64

end MediaSweep.Number
