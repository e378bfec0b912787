import MediaSweep.Toml.Escape
import MediaSweep.Toml.Value

/-!
# Numbers

Between two digits of a number a single underscore may stand.  Whole numbers may be signed and have
no leading zeros, or they are unsigned and start with the sign of base sixteen, eight or two; they
have to fit into 64 bits with a sign.  A fraction, an exponent or both make a floating-point
number, and so do the words `inf` and `nan`; one that is too large and not negative is refused.
The digits of an exponent are read up to the one that takes it beyond a ceiling.
-/

namespace MediaSweep.Toml

set_option autoImplicit false

/-- Read digits of some base, with single underscores between them. -/
def readDigits (digit? : Char → Option Nat) : List Char → Option (List Nat × List Char)
  | [] => none
  | [c] => (digit? c).map fun d => ([d], [])
  | c :: '_' :: rest => do
    let d ← digit? c
    let (digits, left) ← readDigits digit? rest
    some (d :: digits, left)
  | c :: e :: rest => do
    let d ← digit? c
    if (digit? e).isSome then do
      let (digits, left) ← readDigits digit? (e :: rest)
      some (d :: digits, left)
    else some ([d], e :: rest)

/-- The value of a digit of a base up to sixteen. -/
def digitIn? (base : Nat) (c : Char) : Option Nat :=
  (hexValue? c).filter (· < base)

/-- Read the digits of a decimal whole number, which do not start with a zero that more follow. -/
def readWhole : List Char → Option (List Nat × List Char)
  | '0' :: rest => some ([0], rest)
  | cs => readDigits (digitIn? 10) cs

/-- Read a sign, if there is one; true for the negative sign. -/
def readSign : List Char → Bool × List Char
  | '-' :: rest => (true, rest)
  | '+' :: rest => (false, rest)
  | cs => (false, cs)

/-- The least number that does not fit into 64 bits with a sign. -/
def signedBound : Nat := Nat.pow 2 63

/-- A whole number that fits. -/
def integer? (negative : Bool) (size : Nat) : Option Value :=
  if negative then
    if size ≤ signedBound then some (.integer (-(size : Int))) else none
  else if size < signedBound then some (.integer size)
  else none

/-- A floating-point number that is not too large. -/
def float? (number : Number.Binary64) : Option Value :=
  if number = .infinite false then none else some (.float number)

/-- Read an unsigned whole number behind the sign of its base. -/
def readInBase (base : Nat) (cs : List Char) : Option (Value × List Char) := do
  let (digits, rest) ← readDigits (digitIn? base) cs
  let value ← integer? false (Number.ofDigits base digits)
  some (value, rest)

/-- Read the digits behind the point; none without a point. -/
def readFraction : List Char → Option (List Nat × List Char)
  | '.' :: rest => readDigits (digitIn? 10) rest
  | cs => some ([], cs)

/-- An exponent as great as this is beyond all use, and its further digits are passed over. -/
def exponentCeiling : Nat := Nat.pow 2 16

/-- The exponent with the given digits. -/
def exponentOfDigits (digits : List Nat) : Nat :=
  digits.foldl (fun size d => if size < exponentCeiling then size * 10 + d else size) 0

/-- Read an exponent with its sign, if there is one. -/
def readExponent : List Char → Option (Option Int × List Char)
  | [] => some (none, [])
  | c :: rest =>
    if c = 'e' ∨ c = 'E' then do
      let (negative, digits) := readSign rest
      let (digits, left) ← readDigits (digitIn? 10) digits
      let size : Int := exponentOfDigits digits
      some (some (if negative then -size else size), left)
    else some (none, c :: rest)

/-- Read one of the words for a floating-point number without digits. -/
def readSpecial (negative : Bool) : List Char → Option (Value × List Char)
  | 'i' :: 'n' :: 'f' :: rest => some (.float (.infinite negative), rest)
  | 'n' :: 'a' :: 'n' :: rest => some (.float .nan, rest)
  | _ => none

/-- Read a decimal number, whole or not, behind its sign. -/
def readDecimal (negative : Bool) (cs : List Char) : Option (Value × List Char) := do
  let (whole, rest) ← readWhole cs
  let (fraction, rest) ← readFraction rest
  let (exponent?, rest) ← readExponent rest
  let value ←
    match fraction, exponent? with
    | [], none => integer? negative (Number.ofDigits 10 whole)
    | _, _ =>
      float? (.ofDecimal negative (whole ++ fraction) (exponent?.getD 0 - fraction.length))
  some (value, rest)

/-- Read a number of any kind. -/
def readNumber (cs : List Char) : Option (Value × List Char) :=
  match cs with
  | '0' :: 'x' :: rest => readInBase 16 rest
  | '0' :: 'o' :: rest => readInBase 8 rest
  | '0' :: 'b' :: rest => readInBase 2 rest
  | _ =>
    let (negative, rest) := readSign cs
    (readSpecial negative rest).or (readDecimal negative rest)

end MediaSweep.Toml
