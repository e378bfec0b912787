/-!
# Dates and times

A date is a year of four digits, a month and a day that the month has; a time is an hour, a minute
and a second, and may have a fraction.  A date can be followed by a time, and that by its distance
from universal time.  Only their form and range are checked here.

Four digits and a hyphen can only be the beginning of a date, and an hour and a colon only the
beginning of a time: from there on anything else is a fault.
-/

namespace MediaSweep.Toml

set_option autoImplicit false

/-- The outcome of looking for a date or time. -/
inductive MomentReading where
  /-- There is none: the characters begin something else. -/
  | absent
  /-- There is one, and these characters are left after it. -/
  | read (rest : List Char)
  /-- There is the beginning of one, and what follows is wrong. -/
  | broken
  deriving DecidableEq, Repr

/-- Read a decimal number of a given number of digits onto the value read so far. -/
def readFixed (count value : Nat) (cs : List Char) : Option (Nat × List Char) :=
  match count, cs with
  | 0, rest => some (value, rest)
  | _ + 1, [] => none
  | count + 1, c :: rest =>
    if c.isDigit then readFixed count (value * 10 + (c.toNat - '0'.toNat)) rest else none

/-- Read a number of two digits within bounds. -/
def readPair (least greatest : Nat) (cs : List Char) : Option (Nat × List Char) := do
  let (n, rest) ← readFixed 2 0 cs
  if least ≤ n ∧ n ≤ greatest then some (n, rest) else none

/-- Read a sign that has to be there. -/
def readChar (sign : Char) : List Char → Option (List Char)
  | [] => none
  | c :: rest => if c = sign then some rest else none

/-- Whether February has 29 days in a year. -/
def isLeapYear (year : Nat) : Bool :=
  year % 4 = 0 && (year % 100 ≠ 0 || year % 400 = 0)

/-- The number of days that a month of a year has. -/
def daysIn (year month : Nat) : Nat :=
  if month = 2 then (if isLeapYear year then 29 else 28)
  else if month = 4 ∨ month = 6 ∨ month = 9 ∨ month = 11 then 30
  else 31

/-- Read the month and the day of a year. -/
def readDay (year : Nat) (cs : List Char) : Option (List Char) := do
  let (month, rest) ← readPair 1 12 cs
  let rest ← readChar '-' rest
  let (day, rest) ← readPair 1 31 rest
  if day ≤ daysIn year month then some rest else none

/-- Leave out a fraction of a second, if there is one. -/
def skipSecondFraction (cs : List Char) : List Char :=
  match cs with
  | '.' :: rest => if (rest.head?.any Char.isDigit) then rest.dropWhile Char.isDigit else cs
  | _ => cs

/-- Read the minute and the second of an hour. -/
def readMinutes (cs : List Char) : Option (List Char) := do
  let (_, rest) ← readPair 0 59 cs
  let rest ← readChar ':' rest
  let (_, rest) ← readPair 0 60 rest
  some (skipSecondFraction rest)

/-- Look for a time. -/
def readTime (cs : List Char) : MomentReading :=
  match (readPair 0 23 cs).bind fun (_, rest) => readChar ':' rest with
  | none => .absent
  | some rest =>
    match readMinutes rest with
    | some left => .read left
    | none => .broken

/-- Read the distance from universal time, if there is one. -/
def readOffset : List Char → MomentReading
  | [] => .absent
  | c :: rest =>
    if c = 'Z' ∨ c = 'z' then .read rest
    else if c = '+' ∨ c = '-' then
      match readPair 0 23 rest with
      | none => .broken
      | some (_, rest) =>
        match (readChar ':' rest).bind (readPair 0 59) with
        | some (_, left) => .read left
        | none => .broken
    else .absent

/-- Read what may follow a date: a time, and its distance from universal time. -/
def readAfterDate (cs : List Char) : MomentReading :=
  match cs with
  | [] => .read []
  | c :: rest =>
    if c = 'T' ∨ c = 't' ∨ c = ' ' then
      match readTime rest with
      | .absent => .read cs
      | .broken => .broken
      | .read left =>
        match readOffset left with
        | .absent => .read left
        | outcome => outcome
    else .read cs

/-- Look for a date, a time or both. -/
def readMoment (cs : List Char) : MomentReading :=
  match (readFixed 4 0 cs).bind fun (year, rest) => (readChar '-' rest).map (year, ·) with
  | some (year, rest) =>
    match readDay year rest with
    | some left => readAfterDate left
    | none => .broken
  | none => readTime cs

end MediaSweep.Toml
