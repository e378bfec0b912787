import MediaSweep.Toml.Term

/-!
# Numbers read back

The decimal digits of a number that fits are read back as this number (`readScalar_toDigits`), where
a line end, a comma or a closing bracket follows.  Nothing else can be made of them: dates and times
need a hyphen or a colon behind some digits, and only the digits of zero start with a zero.
-/

namespace MediaSweep.Toml

set_option autoImplicit false

/-- What can stand behind a value that was written: the end of its line, or what follows an item of
a list. -/
def EndsValue (rest : List Char) : Prop :=
  ∃ c after, rest = c :: after ∧ c ∈ ['\n', ',', ']']

variable {digits rest cs left : List Char}

/-! ## No dates and times -/

/-- Of digits in a row some are read, and the rest of the row is left. -/
theorem dropWhile_of_readFixed {count value n : Nat}
    (read : readFixed count value cs = some (n, left)) :
    left.dropWhile Char.isDigit = cs.dropWhile Char.isDigit := by
  induction count generalizing value cs with
  | zero =>
    cases cs <;> cases read <;> rfl
  | succ count ih =>
    cases cs with
    | nil => exact absurd read (by simp [readFixed])
    | cons c cs =>
      rw [readFixed] at read
      split at read
      · rename_i digit
        rw [ih read, List.dropWhile_cons_of_pos digit]
      · exact absurd read (by simp)

/-- Behind digits there is no sign that could not stand behind a value. -/
theorem readChar_eq_none {sign : Char} (row : left.dropWhile Char.isDigit = rest)
    (ended : EndsValue rest) (noDigit : sign.isDigit = false) (noEnd : sign ∉ ['\n', ',', ']']) :
    readChar sign left = none := by
  obtain ⟨c, after, rfl, isEnd⟩ := ended
  cases left with
  | nil => rfl
  | cons d left =>
    rw [readChar, if_neg]
    rintro rfl
    rw [List.dropWhile_cons_of_neg (by simp [noDigit])] at row
    exact noEnd ((List.cons.inj row).1 ▸ isEnd)

theorem dropWhile_digits (areDigits : ∀ c ∈ digits, c.isDigit = true) (ended : EndsValue rest) :
    (digits ++ rest).dropWhile Char.isDigit = rest := by
  obtain ⟨c, after, rfl, isEnd⟩ := ended
  have noDigit : ∀ c ∈ ['\n', ',', ']'], c.isDigit = false := by simp [Char.isDigit]
  rw [List.dropWhile_append_of_pos areDigits,
    List.dropWhile_cons_of_neg (by simp [noDigit c isEnd])]

theorem readMoment_digits (areDigits : ∀ c ∈ digits, c.isDigit = true) (ended : EndsValue rest) :
    readMoment (digits ++ rest) = .absent := by
  have row := dropWhile_digits areDigits ended
  have noTime : readTime (digits ++ rest) = .absent := by
    rw [readTime, readPair]
    cases read : readFixed 2 0 (digits ++ rest) with
    | none => rfl
    | some found =>
      obtain ⟨hour, left⟩ := found
      have noColon : readChar ':' left = none :=
        readChar_eq_none ((dropWhile_of_readFixed read).trans row) ended (by decide) (by decide)
      by_cases inDay : 0 ≤ hour ∧ hour ≤ 23
      · simp only [Option.bind_eq_bind, Option.bind_some, if_pos inDay, noColon]
      · simp only [Option.bind_eq_bind, Option.bind_some, if_neg inDay, Option.bind_none]
  rw [readMoment]
  cases read : readFixed 4 0 (digits ++ rest) with
  | none => exact noTime
  | some found =>
    obtain ⟨year, left⟩ := found
    have noHyphen : readChar '-' left = none :=
      readChar_eq_none ((dropWhile_of_readFixed read).trans row) ended (by decide) (by decide)
    simp only [Option.bind_some, noHyphen, Option.map_none, noTime]

/-! ## Digits -/

/-- The value of a decimal digit. -/
def digitValue (c : Char) : Nat :=
  c.toNat - '0'.toNat

theorem digitIn?_of_isDigit {c : Char} (digit : c.isDigit = true) :
    digitIn? 10 c = some (digitValue c) := by
  obtain ⟨low, high⟩ := Char.isDigit_iff_toNat.1 digit
  have decimal : '0' ≤ c ∧ c ≤ '9' := ⟨low, high⟩
  have zero : '0'.toNat = 48 := by decide
  have nine : '9'.toNat = 57 := by decide
  rw [digitIn?, hexValue?, if_pos decimal, Option.filter_some, if_pos, digitValue]
  simp only [decide_eq_true_eq]
  omega

theorem readDigits_append (isRow : ∀ c ∈ digits, c.isDigit = true) (some_digit : digits ≠ [])
    (ended : EndsValue rest) :
    readDigits (digitIn? 10) (digits ++ rest) = some (digits.map digitValue, rest) := by
  induction digits with
  | nil => exact absurd rfl some_digit
  | cons c digits ih =>
    obtain ⟨digit, isRow⟩ := List.forall_mem_cons.1 isRow
    have value := digitIn?_of_isDigit digit
    cases digits with
    | nil =>
      obtain ⟨e, after, rfl, isEnd⟩ := ended
      have noDigit : ∀ e ∈ ['\n', ',', ']'], e ≠ '_' ∧ digitIn? 10 e = none := by
        simp [digitIn?, hexValue?]
      obtain ⟨noScore, stop⟩ := noDigit e isEnd
      simp [readDigits, value, stop]
    | cons d digits =>
      have next := ih isRow (List.cons_ne_nil d digits)
      have noScore : d ≠ '_' := by
        rintro rfl
        exact absurd (isRow '_' List.mem_cons_self) (by decide)
      have goesOn := digitIn?_of_isDigit (isRow d List.mem_cons_self)
      rw [List.cons_append] at next
      simp [readDigits, value, goesOn, next]

theorem ofDigits_map_digitValue (digits : List Char) :
    Number.ofDigits 10 (digits.map digitValue) = Nat.ofDigitChars 10 digits 0 := by
  rw [Number.ofDigits_eq_foldl, List.foldl_map, Nat.ofDigitChars_eq_foldl]
  congr 1
  funext value c
  rw [Nat.mul_comm, digitValue]

/-- Only zero has digits that start with a zero. -/
theorem toDigits_ne_zero_cons (n : Nat) (positive : 0 < n) (more : List Char) :
    Nat.toDigits 10 n ≠ '0' :: more := by
  induction n using Nat.strongRecOn generalizing more with
  | ind n ih =>
    rcases Nat.lt_or_ge n 10 with small | large
    · have single : ∀ n < 10, 0 < n → Nat.digitChar n ≠ '0' := by decide
      rw [Nat.toDigits_of_lt_base small]
      exact fun same => single n small positive (List.cons.inj same).1
    · rw [Nat.toDigits_of_base_le (by decide) large]
      cases leading : Nat.toDigits 10 (n / 10) with
      | nil => exact absurd leading Nat.toDigits_ne_nil
      | cons c others =>
        have := ih (n / 10) (by omega) (by omega) others
        rw [List.cons_append]
        exact fun same => this ((List.cons.inj same).1 ▸ leading)

/-! ## Numbers -/

theorem isDigit_of_mem {n : Nat} : ∀ c ∈ Nat.toDigits 10 n, c.isDigit = true := fun _ mem =>
  Nat.isDigit_of_mem_toDigits (by decide) (by decide) mem

theorem readWhole_toDigits (n : Nat) (ended : EndsValue rest) :
    readWhole (Nat.toDigits 10 n ++ rest) = some ((Nat.toDigits 10 n).map digitValue, rest) := by
  rcases Nat.eq_zero_or_pos n with rfl | positive
  · rfl
  · rw [readWhole.eq_def]
    split
    · rename_i zero
      cases written : Nat.toDigits 10 n with
      | nil => exact absurd written Nat.toDigits_ne_nil
      | cons c more =>
        rw [written, List.cons_append] at zero
        exact absurd ((List.cons.inj zero).1 ▸ written) (toDigits_ne_zero_cons n positive more)
    · exact readDigits_append isDigit_of_mem Nat.toDigits_ne_nil ended

theorem readSign_of_isDigit {c : Char} (digit : c.isDigit = true) (cs : List Char) :
    readSign (c :: cs) = (false, c :: cs) := by
  rw [readSign.eq_def]
  split
  · rename_i sign
    exact absurd ((List.cons.inj sign).1 ▸ digit) (by decide)
  · rename_i sign
    exact absurd ((List.cons.inj sign).1 ▸ digit) (by decide)
  · rfl

theorem readSpecial_of_isDigit {c : Char} (digit : c.isDigit = true) (negative : Bool)
    (cs : List Char) : readSpecial negative (c :: cs) = none := by
  rw [readSpecial.eq_def]
  split
  · rename_i word
    exact absurd ((List.cons.inj word).1 ▸ digit) (by decide)
  · rename_i word
    exact absurd ((List.cons.inj word).1 ▸ digit) (by decide)
  · rfl

/-- The digits of a number are not mistaken for the sign of another base. -/
theorem toDigits_append_ne_base {base : Char} (n : Nat) (more : List Char) (ended : EndsValue rest)
    (noEnd : base ∉ ['\n', ',', ']']) : Nat.toDigits 10 n ++ rest ≠ '0' :: base :: more := by
  obtain ⟨e, after, rfl, isEnd⟩ := ended
  intro same
  rcases Nat.eq_zero_or_pos n with rfl | positive
  · have next : e :: after = base :: more := (List.cons.inj same).2
    exact noEnd ((List.cons.inj next).1 ▸ isEnd)
  · cases written : Nat.toDigits 10 n with
    | nil => exact absurd written Nat.toDigits_ne_nil
    | cons c others =>
      rw [written, List.cons_append] at same
      exact toDigits_ne_zero_cons n positive others ((List.cons.inj same).1 ▸ written)

/-- Behind a whole number that is followed by the end of a value there is no fraction and no
exponent. -/
theorem readDecimal_toDigits {n : Nat} (fits : n < signedBound) (ended : EndsValue rest) :
    readDecimal false (Nat.toDigits 10 n ++ rest) = some (.integer n, rest) := by
  have noMore : readFraction rest = some ([], rest) ∧ readExponent rest = some (none, rest) := by
    obtain ⟨c, after, rfl, isEnd⟩ := ended
    simp only [List.mem_cons, List.not_mem_nil, or_false] at isEnd
    rcases isEnd with rfl | rfl | rfl <;> exact ⟨rfl, rfl⟩
  have size : Number.ofDigits 10 ((Nat.toDigits 10 n).map digitValue) = n := by
    rw [ofDigits_map_digitValue, Nat.ofDigitChars_ten_toDigits]
  rw [readDecimal, readWhole_toDigits n ended]
  simp [noMore, size, integer?, fits]

/-- **The digits of a number that fits are read back.** -/
theorem readScalar_toDigits {n : Nat} (fits : n < signedBound) (ended : EndsValue rest) :
    readScalar (Nat.toDigits 10 n ++ rest) = some (.integer n, rest) := by
  rw [readScalar, readMoment_digits isDigit_of_mem ended]
  dsimp only
  have decimal := readDecimal_toDigits fits ended
  rw [readNumber.eq_def]
  split
  case h_1 based => exact absurd based (toDigits_append_ne_base n _ ended (by decide))
  case h_2 based => exact absurd based (toDigits_append_ne_base n _ ended (by decide))
  case h_3 based => exact absurd based (toDigits_append_ne_base n _ ended (by decide))
  case h_4 =>
    cases written : Nat.toDigits 10 n with
    | nil => exact absurd written Nat.toDigits_ne_nil
    | cons c more =>
      have digit : c.isDigit = true := isDigit_of_mem c (written ▸ List.mem_cons_self)
      rw [written] at decimal
      rw [List.cons_append] at decimal ⊢
      rw [readSign_of_isDigit digit]
      dsimp only
      rw [readSpecial_of_isDigit digit, decimal, Option.none_or]

end MediaSweep.Toml
