/-!
# Escapes in quoted texts

In a text between double quotes a backslash starts an escape: one letter or sign for the usual
control characters, the quote and the backslash, or `u` and four or `U` and eight hexadecimal
digits for any character.  Writing uses the short escapes, and four digits in capitals for the
other control characters.
-/

namespace MediaSweep.Toml

set_option autoImplicit false

/-- The value of a hexadecimal digit, small or capital. -/
def hexValue? (c : Char) : Option Nat :=
  if '0' ≤ c ∧ c ≤ '9' then some (c.toNat - '0'.toNat)
  else if 'a' ≤ c ∧ c ≤ 'f' then some (c.toNat - 'a'.toNat + 10)
  else if 'A' ≤ c ∧ c ≤ 'F' then some (c.toNat - 'A'.toNat + 10)
  else none

/-- Read a number of hexadecimal digits onto the value read so far. -/
def readHex (count value : Nat) (cs : List Char) : Option (Nat × List Char) :=
  match count, cs with
  | 0, rest => some (value, rest)
  | _ + 1, [] => none
  | count + 1, c :: rest => do
    let digit ← hexValue? c
    readHex count (value * 16 + digit) rest

/-- Read the character with a given number of hexadecimal digits. -/
def readCodePoint (count : Nat) (cs : List Char) : Option (Char × List Char) := do
  let (code, rest) ← readHex count 0 cs
  if code.isValidChar then some (Char.ofNat code, rest) else none

/-- Read what follows the backslash of an escape. -/
def readEscape : List Char → Option (Char × List Char)
  | [] => none
  | c :: rest =>
    match c with
    | 'b' => some ('\x08', rest)
    | 't' => some ('\t', rest)
    | 'n' => some ('\n', rest)
    | 'f' => some ('\x0c', rest)
    | 'r' => some ('\r', rest)
    | '"' => some ('"', rest)
    | '\\' => some ('\\', rest)
    | 'u' => readCodePoint 4 rest
    | 'U' => readCodePoint 8 rest
    | _ => none

/-- The hexadecimal digit of a value below sixteen, as a capital. -/
def hexDigit (value : Nat) : Char :=
  (Nat.digitChar value).toUpper

/-- The escape of a character: the backslash and what follows it. -/
def escape (c : Char) : List Char :=
  match c with
  | '\x08' => ['\\', 'b']
  | '\t' => ['\\', 't']
  | '\n' => ['\\', 'n']
  | '\x0c' => ['\\', 'f']
  | '\r' => ['\\', 'r']
  | '"' => ['\\', '"']
  | '\\' => ['\\', '\\']
  | c =>
    let code := c.toNat
    ['\\', 'u', hexDigit (code / 4096 % 16), hexDigit (code / 256 % 16), hexDigit (code / 16 % 16),
      hexDigit (code % 16)]

theorem readHex_length {count value code : Nat} {cs rest : List Char}
    (read : readHex count value cs = some (code, rest)) : rest.length ≤ cs.length := by
  induction count generalizing value cs with
  | zero =>
    simp only [readHex, Option.some.injEq, Prod.mk.injEq] at read
    simp [read.2]
  | succ count ih =>
    cases cs with
    | nil => simp [readHex] at read
    | cons c cs =>
      rw [readHex] at read
      cases found : hexValue? c with
      | none => simp [found] at read
      | some digit =>
        simp only [found, Option.bind_eq_bind, Option.bind_some] at read
        exact Nat.le_succ_of_le (ih read)

theorem readCodePoint_length {count : Nat} {cs rest : List Char} {c : Char}
    (read : readCodePoint count cs = some (c, rest)) : rest.length ≤ cs.length := by
  cases found : readHex count 0 cs with
  | none => simp [readCodePoint, found] at read
  | some pair =>
    obtain ⟨code, after⟩ := pair
    simp only [readCodePoint, found, Option.bind_eq_bind, Option.bind_some] at read
    split at read
    · simp only [Option.some.injEq, Prod.mk.injEq] at read
      exact read.2 ▸ readHex_length found
    · exact absurd read (by simp)

/-- An escape takes at least one character. -/
theorem readEscape_length {cs rest : List Char} {c : Char}
    (read : readEscape cs = some (c, rest)) : rest.length < cs.length := by
  cases cs with
  | nil => simp [readEscape] at read
  | cons a after =>
    unfold readEscape at read
    dsimp only at read
    simp only [List.length_cons]
    split at read
    case h_8 => exact Nat.lt_succ_of_le (readCodePoint_length read)
    case h_9 => exact Nat.lt_succ_of_le (readCodePoint_length read)
    case h_10 => exact absurd read (by simp)
    all_goals
      simp only [Option.some.injEq, Prod.mk.injEq] at read
      simp [read.2]

end MediaSweep.Toml
