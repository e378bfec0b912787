import MediaSweep.Toml.QuoteStyle
import MediaSweep.Toml.QuotedText

/-!
# Quoted texts read back

A quoted text is read back as the text that was quoted, whatever characters it has and whichever
way of quoting was chosen (`readText_quoteChars`).

Each reader goes over the characters one by one, so for each there is a lemma for one step, and
reading what was written follows by induction on the text.  A quote that ends a text may only be
followed by something else than a quote, or it would belong to the quotes around the text; this is
all that is asked of what comes behind.  In a long text the readers look three characters ahead, so
the case of a text that ends with quotes is split off: what stands there is one or two quotes of the
text and the three that close it.
-/

namespace MediaSweep.Toml

set_option autoImplicit false

variable {text rest cs after : List Char} {c : Char}

@[simp]
theorem Reading.before_some (c : Char) (text rest : List Char) :
    Reading.before c (some (text, rest)) = some (c :: text, rest) := rfl

theorem readNewline_of_isPlain (plain : isPlain c = true) (cs : List Char) :
    readNewline (c :: cs) = none := by
  rw [readNewline.eq_def]
  split
  · rename_i read
    rw [(List.cons.inj read).1] at plain
    exact absurd plain (by decide)
  · rename_i read
    rw [(List.cons.inj read).1] at plain
    exact absurd plain (by decide)
  · rfl

/-! ## Escapes -/

theorem hexValue?_hexDigit {value : Nat} (small : value < 16) :
    hexValue? (hexDigit value) = some value := by
  have all : ∀ value < 16, hexValue? (hexDigit value) = some value := by decide
  exact all value small

/-- Four digits give the number that they were made from. -/
theorem readHex_hexDigits {code : Nat} (small : code < 65536) (rest : List Char) :
    readHex 4 0 (hexDigit (code / 4096 % 16) :: hexDigit (code / 256 % 16)
      :: hexDigit (code / 16 % 16) :: hexDigit (code % 16) :: rest) = some (code, rest) := by
  have digit (n : Nat) : hexValue? (hexDigit (n % 16)) = some (n % 16) :=
    hexValue?_hexDigit (Nat.mod_lt n (by decide))
  have joined : (((0 * 16 + code / 4096 % 16) * 16 + code / 256 % 16) * 16 + code / 16 % 16) * 16
      + code % 16 = code := by omega
  simp only [readHex, digit, Option.bind_eq_bind, Option.bind_some, joined]

theorem readCodePoint_hexDigits (small : c.toNat < 65536) (rest : List Char) :
    readCodePoint 4 (hexDigit (c.toNat / 4096 % 16) :: hexDigit (c.toNat / 256 % 16)
      :: hexDigit (c.toNat / 16 % 16) :: hexDigit (c.toNat % 16) :: rest) = some (c, rest) := by
  have valid : c.toNat.isValidChar := c.valid
  simp only [readCodePoint, readHex_hexDigits small, Option.bind_eq_bind, Option.bind_some, valid,
    if_true, Char.ofNat_toNat]

/-- What can stand first behind the backslash of an escape that was written. -/
def escapeSigns : List Char :=
  ['b', 't', 'n', 'f', 'r', '"', '\\', 'u']

/-- An escape is a backslash, a sign and possibly more, and is read back as its character. -/
theorem exists_escape (small : c.toNat < 65536) :
    ∃ sign ∈ escapeSigns, ∃ code, escape c = '\\' :: sign :: code ∧
      ∀ rest, readEscape (sign :: (code ++ rest)) = some (c, rest) := by
  unfold escape
  split
  case h_8 => exact ⟨'u', by decide, _, rfl, fun rest => readCodePoint_hexDigits small rest⟩
  all_goals exact ⟨_, by decide, [], rfl, fun _ => rfl⟩

theorem toNat_lt_of_needsEscape (needs : needsEscape c = true) : c.toNat < 65536 := by
  simp only [needsEscape, Bool.or_eq_true, decide_eq_true_eq] at needs
  rcases needs with ((low | rfl) | rfl) | rfl
  · have : c.toNat < ' '.toNat := low
    have : ' '.toNat = 32 := by decide
    omega
  all_goals decide

theorem exists_escape_cons (needs : needsEscape c = true) : ∃ more, escape c = '\\' :: more := by
  obtain ⟨sign, -, code, written, -⟩ := exists_escape (toNat_lt_of_needsEscape needs)
  exact ⟨sign :: code, written⟩

/-- What is not escaped between double quotes stands for itself there. -/
theorem isPlain_of_not_needsEscape (unescaped : needsEscape c = false) :
    isPlain c = true ∧ c ≠ '"' ∧ c ≠ '\\' := by
  simp only [needsEscape, Bool.or_eq_false_iff, decide_eq_false_iff_not, Char.not_lt] at unescaped
  obtain ⟨⟨⟨high, notDelete⟩, notQuote⟩, notBackslash⟩ := unescaped
  exact ⟨by simp [isPlain, high, notDelete], notQuote, notBackslash⟩

/-! ## Between double quotes -/

theorem readBasic_quote (rest : List Char) : readBasic ('"' :: rest) = some ([], rest) := by
  rw [readBasic, if_pos rfl]

theorem readBasic_plain (plain : isPlain c = true) (notQuote : c ≠ '"') (notBackslash : c ≠ '\\')
    (rest : List Char) : readBasic (c :: rest) = (readBasic rest).before c := by
  rw [readBasic, if_neg notQuote, if_neg notBackslash, if_pos plain]

theorem readBasic_escape (needs : needsEscape c = true) (cs : List Char) :
    readBasic (escape c ++ cs) = (readBasic cs).before c := by
  obtain ⟨sign, -, code, written, read⟩ := exists_escape (toNat_lt_of_needsEscape needs)
  rw [written, List.cons_append, List.cons_append, readBasic, if_neg (by decide), if_pos rfl]
  split
  · rename_i found
    cases (read cs).symm.trans found
    rfl
  · rename_i found
    exact absurd ((read cs).symm.trans found) (by simp)

theorem readBasic_basicBody (text rest : List Char) :
    readBasic (basicBody text ++ '"' :: rest) = some (text, rest) := by
  induction text with
  | nil => exact readBasic_quote rest
  | cons c text ih =>
    rw [basicBody, List.flatMap_cons, ← basicBody]
    cases needs : needsEscape c with
    | true =>
      rw [if_pos rfl, List.append_assoc, readBasic_escape needs, ih, Reading.before_some]
    | false =>
      obtain ⟨plain, notQuote, notBackslash⟩ := isPlain_of_not_needsEscape needs
      rw [if_neg (by simp), List.append_assoc, List.singleton_append,
        readBasic_plain plain notQuote notBackslash, ih, Reading.before_some]

/-! ## Between single quotes -/

theorem readLiteral_append (plain : ∀ c ∈ text, isPlain c = true) (noQuote : '\'' ∉ text) :
    readLiteral (text ++ '\'' :: rest) = some (text, rest) := by
  induction text with
  | nil => rw [List.nil_append, readLiteral, if_pos rfl]
  | cons c text ih =>
    obtain ⟨notQuote, noQuote⟩ := List.ne_and_not_mem_of_not_mem_cons noQuote
    obtain ⟨here, plain⟩ := List.forall_mem_cons.1 plain
    rw [List.cons_append, readLiteral, if_neg notQuote.symm, if_pos here, ih plain noQuote,
      Reading.before_some]

/-! ## The end of a long text -/

/-- The quotes that close a long text. -/
def three (quote : Char) : List Char :=
  [quote, quote, quote]

/-- One or two quotes in front of the closing ones belong to the text. -/
theorem closeLong_replicate {quote : Char} {count : Nat} (few : count ≤ 2)
    (ended : rest.head? ≠ some quote) :
    closeLong quote (List.replicate count quote ++ rest) = (List.replicate count quote, rest) := by
  have last (kept : Nat) : ((rest.take kept).takeWhile (· = quote)) = [] := by
    cases rest with
    | nil => simp
    | cons c rest =>
      have other : c ≠ quote := by simpa using ended
      cases kept <;> simp [other]
  match count with
  | 0 => simp [closeLong, last]
  | 1 =>
    have one := last 1
    simp [closeLong, one]
  | 2 => simp [closeLong]
  | count + 3 => omega

/-- A text without three quotes in a row, whose closing quotes are found at once, is a few
quotes. -/
theorem eq_replicate_of_three_prefix {quote : Char} (noTriple : hasTriple quote text = false)
    (closed : three quote <+: text ++ three quote ++ rest) :
    ∃ count ≤ 2, text = List.replicate count quote := by
  match text with
  | [] => exact ⟨0, by omega, rfl⟩
  | [a] =>
    have same : quote = a := by simpa [three] using closed
    exact ⟨1, by omega, by rw [same]; rfl⟩
  | [a, b] =>
    have same : quote = a ∧ quote = b := by simpa [three] using closed
    exact ⟨2, by omega, by rw [← same.1, ← same.2]; rfl⟩
  | a :: b :: c :: text =>
    have same : quote = a ∧ quote = b ∧ quote = c := by simpa [three] using closed
    simp [hasTriple, ← same.1, ← same.2.1, ← same.2.2] at noTriple

/-- Quotes in front of the closing ones can as well stand behind them. -/
theorem replicate_append_three (quote : Char) (count : Nat) (rest : List Char) :
    List.replicate count quote ++ three quote ++ rest
      = quote :: quote :: quote :: (List.replicate count quote ++ rest) := by
  have three_eq : three quote = List.replicate 3 quote := rfl
  rw [three_eq, List.replicate_append_replicate, Nat.add_comm, ← List.replicate_append_replicate,
    List.append_assoc]
  rfl

theorem hasTriple_tail {quote : Char} (noTriple : hasTriple quote (c :: text) = false) :
    hasTriple quote text = false := by
  match text with
  | [] | [_] => simp [hasTriple]
  | b :: d :: text =>
    rw [hasTriple, Bool.or_eq_false_iff] at noTriple
    exact noTriple.2

/-! ## Between three single quotes -/

theorem readLongLiteral_step (stands : c = '\n' ∨ isPlain c = true)
    (goesOn : ¬ three '\'' <+: c :: cs) :
    readLongLiteral (c :: cs) = (readLongLiteral cs).before c := by
  have notReturn : c ≠ '\r' := by
    rintro rfl
    exact absurd stands (by decide)
  rw [readLongLiteral.eq_def]
  split
  case h_1 read => exact absurd read (by simp)
  case h_2 read =>
    rw [read] at goesOn
    exact absurd (List.prefix_append (three '\'') _) goesOn
  case h_3 read => exact absurd (List.cons.inj read).1 notReturn
  case h_4 read =>
    cases read
    rw [if_pos (by simpa using stands)]

theorem readLongLiteral_append (stands : ∀ c ∈ text, c = '\n' ∨ isPlain c = true)
    (noTriple : hasTriple '\'' text = false) (ended : rest.head? ≠ some '\'') :
    readLongLiteral (text ++ three '\'' ++ rest) = some (text, rest) := by
  induction text with
  | nil => exact congrArg some (closeLong_replicate (Nat.zero_le 2) ended)
  | cons c text ih =>
    obtain ⟨here, stands⟩ := List.forall_mem_cons.1 stands
    by_cases closed : three '\'' <+: c :: text ++ three '\'' ++ rest
    · obtain ⟨count, few, quotes⟩ := eq_replicate_of_three_prefix noTriple closed
      rw [quotes, replicate_append_three]
      exact congrArg some (closeLong_replicate few ended)
    · rw [List.cons_append, List.cons_append] at closed ⊢
      rw [readLongLiteral_step here closed, ih stands (hasTriple_tail noTriple),
        Reading.before_some]

/-! ## Between three double quotes -/

theorem readContinuation_escape {sign : Char} (isSign : sign ∈ escapeSigns) (cs : List Char) :
    readContinuation (sign :: cs) = none := by
  have plain : ∀ sign ∈ escapeSigns, isGap sign = false ∧ isPlain sign = true := by
    simp [escapeSigns, isGap, isPlain]
  obtain ⟨noGap, plain⟩ := plain sign isSign
  have stays : skipGaps (sign :: cs) = sign :: cs := by simp [skipGaps, noGap]
  rw [readContinuation, stays, readNewline_of_isPlain plain, Option.map_none]

theorem readLongBasic_three (rest : List Char) :
    readLongBasic (three '"' ++ rest) = some (closeLong '"' rest) := by
  rw [three, List.cons_append, List.cons_append, List.cons_append, List.nil_append, readLongBasic]

theorem readLongBasic_escape (needs : needsEscape c = true) (cs : List Char) :
    readLongBasic (escape c ++ cs) = (readLongBasic cs).before c := by
  obtain ⟨sign, isSign, code, written, read⟩ := exists_escape (toNat_lt_of_needsEscape needs)
  rw [written, List.cons_append, List.cons_append, readLongBasic.eq_def]
  split
  case h_1 empty => exact absurd empty (by simp)
  case h_2 quotes => exact absurd quotes (by simp)
  case h_3 same =>
    cases same
    rw [if_pos rfl]
    split
    · rename_i found
      exact absurd ((readContinuation_escape isSign _).symm.trans found) (by simp)
    · split
      · rename_i found
        cases (read cs).symm.trans found
        rfl
      · rename_i found
        exact absurd ((read cs).symm.trans found) (by simp)

theorem readLongBasic_step (stands : c = '\n' ∨ isPlain c = true) (notBackslash : c ≠ '\\')
    (goesOn : ¬ three '"' <+: c :: cs) :
    readLongBasic (c :: cs) = (readLongBasic cs).before c := by
  rw [readLongBasic.eq_def]
  split
  case h_1 empty => exact absurd empty (by simp)
  case h_2 quotes =>
    rw [quotes] at goesOn
    exact absurd (List.prefix_append (three '"') _) goesOn
  case h_3 same =>
    cases same
    rw [if_neg notBackslash]
    rcases stands with rfl | plain
    · rfl
    · have noNewline : readNewline (c :: cs) = none := readNewline_of_isPlain plain cs
      split
      · rename_i found
        exact absurd (noNewline.symm.trans found) (by simp)
      · rw [if_pos plain]

/-- After two quotes, and before any other character, no quote is written as it is. -/
theorem exists_longBasicBody_cons {run : Nat} (other : c ≠ '"' ∨ 2 ≤ run) (text : List Char) :
    ∃ d more, longBasicBody run (c :: text) = d :: more ∧ d ≠ '"' := by
  rw [longBasicBody]
  split
  · rename_i quote
    have full : ¬ run < 2 := by
      rcases other with notQuote | full
      · exact absurd quote notQuote
      · omega
    rw [if_neg full]
    exact ⟨'\\', _, rfl, by decide⟩
  · rename_i notQuote
    split
    · exact ⟨'\n', _, rfl, by decide⟩
    · split
      · rename_i needs
        obtain ⟨more, written⟩ := exists_escape_cons needs
        exact ⟨'\\', _, by rw [written, List.cons_append], by decide⟩
      · exact ⟨c, _, rfl, notQuote⟩

/-- A quote that is written as it is stands for itself, unless it is one of the last ones. -/
theorem three_prefix_longBasicBody {run : Nat} (early : run < 2)
    (closed : three '"' <+: '"' :: (longBasicBody (run + 1) text ++ three '"' ++ rest)) :
    ∃ count ≤ 2, '"' :: text = List.replicate count '"' ∧
      '"' :: longBasicBody (run + 1) text = List.replicate count '"' := by
  match text with
  | [] => exact ⟨1, by omega, rfl, rfl⟩
  | d :: text =>
    by_cases second : d = '"' ∧ run = 0
    · obtain ⟨rfl, rfl⟩ := second
      match text with
      | [] => exact ⟨2, by omega, rfl, rfl⟩
      | e :: text =>
        obtain ⟨f, more, written, notQuote⟩ :=
          exists_longBasicBody_cons (.inr (Nat.le_refl 2)) (c := e) text
        have : longBasicBody 1 ('"' :: e :: text) = '"' :: f :: more := by
          rw [longBasicBody, if_pos rfl, if_pos (by decide), written]
        simp [this, three, notQuote.symm] at closed
    · have other : d ≠ '"' ∨ 2 ≤ run + 1 := by
        rcases Decidable.not_and_iff_or_not.1 second with notQuote | later
        · exact .inl notQuote
        · exact .inr (by omega)
      obtain ⟨f, more, written, notQuote⟩ := exists_longBasicBody_cons other text
      simp [written, three, notQuote.symm] at closed

theorem readLongBasic_longBasicBody (text : List Char) (run : Nat)
    (ended : rest.head? ≠ some '"') :
    readLongBasic (longBasicBody run text ++ three '"' ++ rest) = some (text, rest) := by
  have quotes {count : Nat} (few : count ≤ 2) :
      readLongBasic (List.replicate count '"' ++ three '"' ++ rest)
        = some (List.replicate count '"', rest) := by
    rw [replicate_append_three]
    exact (readLongBasic_three _).trans (congrArg some (closeLong_replicate few ended))
  induction text generalizing run with
  | nil => exact quotes (Nat.zero_le 2)
  | cons c text ih =>
    rw [longBasicBody]
    split
    · rename_i quote
      subst quote
      split
      · rename_i early
        by_cases closed :
            three '"' <+: '"' :: (longBasicBody (run + 1) text ++ three '"' ++ rest)
        · obtain ⟨count, few, all, written⟩ := three_prefix_longBasicBody early closed
          rw [all, written]
          exact quotes few
        · rw [List.cons_append, List.cons_append,
            readLongBasic_step (.inr (by decide)) (by decide) closed, ih, Reading.before_some]
      · rw [List.append_assoc, List.append_assoc, readLongBasic_escape (by decide),
          ← List.append_assoc, ih, Reading.before_some]
    · rename_i notQuote
      split
      · rename_i newline
        subst newline
        rw [List.cons_append, List.cons_append,
          readLongBasic_step (.inl rfl) (by decide) (by simp [three]), ih, Reading.before_some]
      · split
        · rename_i needs
          rw [List.append_assoc, List.append_assoc, readLongBasic_escape needs,
            ← List.append_assoc, ih, Reading.before_some]
        · rename_i unescaped
          obtain ⟨plain, -, notBackslash⟩ :=
            isPlain_of_not_needsEscape (Bool.not_eq_true _ ▸ unescaped)
          rw [List.cons_append, List.cons_append, readLongBasic_step (.inr plain) notBackslash
            (by simp [three, Ne.symm notQuote]), ih, Reading.before_some]

/-! ## The chosen way of quoting -/

theorem stands_of_not_isControl (noControl : isControl c = false) :
    c = '\n' ∨ isPlain c = true := by
  simp only [isControl, Bool.or_eq_false_iff, Bool.and_eq_false_iff, decide_eq_false_iff_not,
    Char.not_lt, ne_eq, Decidable.not_not] at noControl
  obtain ⟨(high | tab) | newline, notDelete⟩ := noControl
  · exact .inr (by simp [isPlain, high, notDelete])
  · exact .inr (by simp [isPlain, tab])
  · exact .inl newline

/-- A text between single quotes has nothing that would have to be escaped, and no single quote. -/
theorem QuoteStyle.literal_spec (literal : QuoteStyle.of text = .literal) :
    (∀ c ∈ text, isPlain c = true) ∧ '\'' ∉ text := by
  simp only [QuoteStyle.of] at literal
  split at literal
  · exact absurd literal (by simp)
  · split at literal
    · rename_i fits
      simp only [Bool.and_eq_true, Bool.not_eq_true', List.any_eq_false, List.contains_eq_mem,
        decide_eq_false_iff_not] at fits
      obtain ⟨⟨noControl, noNewline⟩, noQuote⟩ := fits
      refine ⟨fun c mem => ?_, noQuote⟩
      rcases stands_of_not_isControl (Bool.not_eq_true _ ▸ noControl c mem) with rfl | plain
      · exact absurd mem noNewline
      · exact plain
    · repeat' split at literal
      all_goals exact absurd literal (by simp)

/-- A text between three single quotes has nothing that would have to be escaped but line ends, and
no three single quotes in a row. -/
theorem QuoteStyle.longLiteral_spec (longLiteral : QuoteStyle.of text = .longLiteral) :
    (∀ c ∈ text, c = '\n' ∨ isPlain c = true) ∧ hasTriple '\'' text = false := by
  simp only [QuoteStyle.of] at longLiteral
  split at longLiteral
  · exact absurd longLiteral (by simp)
  · split at longLiteral
    · exact absurd longLiteral (by simp)
    · split at longLiteral
      · exact absurd longLiteral (by simp)
      · split at longLiteral
        · rename_i fits
          simp only [Bool.and_eq_true, Bool.not_eq_true', List.any_eq_false] at fits
          exact ⟨fun c mem => stands_of_not_isControl (Bool.not_eq_true _ ▸ fits.1 c mem), fits.2⟩
        · split at longLiteral
          all_goals exact absurd longLiteral (by simp)

/-! ## All of a text with its quotes -/

/-- A text without line ends is not mistaken for a line end behind the opening quotes. -/
theorem skipFirstNewline_longOpening {body : List Char}
    (noNewline : '\n' ∉ text → readNewline body = none) :
    skipFirstNewline (longOpening text ++ body) = body := by
  rw [longOpening]
  split
  · rfl
  · rename_i without
    have absent : '\n' ∉ text := by simpa using without
    rw [List.nil_append, skipFirstNewline, noNewline absent, Option.getD_none]

theorem readNewline_longBasicBody (noNewline : '\n' ∉ text) (rest : List Char) :
    readNewline (longBasicBody 0 text ++ three '"' ++ rest) = none := by
  cases text with
  | nil => rfl
  | cons c text =>
    have notNewline : c ≠ '\n' := fun same => noNewline (same ▸ List.mem_cons_self)
    rw [longBasicBody]
    split
    · rfl
    · split
      · rename_i needs
        obtain ⟨more, written⟩ := exists_escape_cons needs
        rw [written]
        rfl
      · rename_i unescaped
        exact readNewline_of_isPlain
          (isPlain_of_not_needsEscape (Bool.not_eq_true _ ▸ unescaped)).1 _

theorem readNewline_longLiteral (noNewline : '\n' ∉ text)
    (stands : ∀ c ∈ text, c = '\n' ∨ isPlain c = true) (rest : List Char) :
    readNewline (text ++ three '\'' ++ rest) = none := by
  cases text with
  | nil => rfl
  | cons c text =>
    rcases stands c List.mem_cons_self with rfl | plain
    · exact absurd List.mem_cons_self noNewline
    · exact readNewline_of_isPlain plain _

/-- One double quote opens a text on one line, unless two more follow. -/
theorem readText_double (cs : List Char) (short : ¬ ['"', '"'] <+: cs) :
    readText ('"' :: cs) = readBasic cs := by
  rw [readText.eq_def]
  split
  · rename_i quotes
    exact absurd ((List.cons.inj quotes).2 ▸ List.prefix_append ['"', '"'] _) short
  · rename_i quotes
    exact absurd (List.cons.inj quotes).1 (by decide)
  · rfl

theorem readText_single (cs : List Char) (short : ¬ ['\'', '\''] <+: cs) :
    readText ('\'' :: cs) = readLiteral cs := by
  rw [readText.eq_def]
  split
  · rename_i quotes
    exact absurd (List.cons.inj quotes).1 (by decide)
  · rename_i quotes
    exact absurd ((List.cons.inj quotes).2 ▸ List.prefix_append ['\'', '\''] _) short
  · rfl

/-- The first character between double quotes is no quote. -/
theorem not_prefix_basicBody (text : List Char) (ended : rest.head? ≠ some '"') :
    ¬ ['"', '"'] <+: basicBody text ++ '"' :: rest := by
  cases text with
  | nil =>
    cases rest with
    | nil => simp [basicBody]
    | cons c rest =>
      have other : c ≠ '"' := by simpa using ended
      simp [basicBody, other.symm]
  | cons c text =>
    rw [basicBody, List.flatMap_cons, ← basicBody]
    split
    · rename_i needs
      obtain ⟨more, written⟩ := exists_escape_cons needs
      simp [written]
    · rename_i unescaped
      have notQuote := (isPlain_of_not_needsEscape (Bool.not_eq_true _ ▸ unescaped)).2.1
      simp [notQuote.symm]

theorem not_prefix_literal (noQuote : '\'' ∉ text) (ended : rest.head? ≠ some '\'') :
    ¬ ['\'', '\''] <+: text ++ '\'' :: rest := by
  cases text with
  | nil =>
    cases rest with
    | nil => simp
    | cons c rest =>
      have other : c ≠ '\'' := by simpa using ended
      simp [other.symm]
  | cons c text =>
    have other := (List.ne_and_not_mem_of_not_mem_cons noQuote).1
    simp [other]

/-- A quoted text starts with a quote. -/
theorem exists_quoteChars (text : List Char) :
    ∃ quote more, quoteChars text = quote :: more ∧ (quote = '"' ∨ quote = '\'') := by
  rw [quoteChars]
  cases QuoteStyle.of text with
  | basic => exact ⟨'"', _, rfl, .inl rfl⟩
  | literal => exact ⟨'\'', _, rfl, .inr rfl⟩
  | longBasic => exact ⟨'"', _, rfl, .inl rfl⟩
  | longLiteral => exact ⟨'\'', _, rfl, .inr rfl⟩

/-- **A quoted text is read back**, if what follows is no quote. -/
theorem readText_quoteChars (text : List Char) (noDouble : rest.head? ≠ some '"')
    (noSingle : rest.head? ≠ some '\'') :
    readText (quoteChars text ++ rest) = some (text, rest) := by
  rw [quoteChars]
  cases style : QuoteStyle.of text with
  | basic =>
    rw [List.append_assoc, List.cons_append, List.singleton_append, readText_double _
      (not_prefix_basicBody text noDouble), readBasic_basicBody]
  | literal =>
    obtain ⟨plain, noQuote⟩ := QuoteStyle.literal_spec style
    rw [List.append_assoc, List.cons_append, List.singleton_append, readText_single _
      (not_prefix_literal noQuote noSingle), readLiteral_append plain noQuote]
  | longBasic =>
    calc readText (three '"' ++ longOpening text ++ longBasicBody 0 text ++ three '"' ++ rest)
        = readText (three '"' ++ (longOpening text ++ (longBasicBody 0 text ++ three '"' ++ rest)))
          := by simp only [List.append_assoc]
      _ = readLongBasic (skipFirstNewline
            (longOpening text ++ (longBasicBody 0 text ++ three '"' ++ rest))) := rfl
      _ = some (text, rest) := by
        rw [skipFirstNewline_longOpening (readNewline_longBasicBody · rest),
          readLongBasic_longBasicBody text 0 noDouble]
  | longLiteral =>
    obtain ⟨stands, noTriple⟩ := QuoteStyle.longLiteral_spec style
    calc readText (three '\'' ++ longOpening text ++ text ++ three '\'' ++ rest)
        = readText (three '\'' ++ (longOpening text ++ (text ++ three '\'' ++ rest))) := by
          simp only [List.append_assoc]
      _ = readLongLiteral (skipFirstNewline
            (longOpening text ++ (text ++ three '\'' ++ rest))) := rfl
      _ = some (text, rest) := by
        rw [skipFirstNewline_longOpening (readNewline_longLiteral · stands rest),
          readLongLiteral_append stands noTriple noSingle]

end MediaSweep.Toml
