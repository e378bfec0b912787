import Mathlib.Algebra.Order.BigOperators.Group.List
import Mathlib.Algebra.Order.Group.Nat
import MediaSweep.Json.Printer
import MediaSweep.Proofs.Json.Reading
import MediaSweep.Proofs.Toml.Numeral

/-!
# Printed values read back

Every printed value is read as this value, with all its texts and in the order in which its items
and members were printed (`JsonTerm.ofText?_print`).

A value is printed inside others, so what has to be shown is that its text is read wherever a value
may end: `ReadsAs item text a` says that `text` is read as `a` and nothing behind it is taken, if
what follows cannot go on with a number.  Texts, numbers and truth values are read like this.  An
array or an object is one row of lines (`groupText`), and the row is read if its items are
(`readGroup_groupText`), so that one induction over the value puts the parts together
(`readsAs_printAt`).
-/

namespace MediaSweep

set_option autoImplicit false

/-! ## Values and what is read -/

namespace JsonValue

/-- The value of a member is smaller than the object. -/
theorem sizeOf_lt_of_mem_members {members : List (String × JsonValue)}
    {m : String × JsonValue} (mem : m ∈ members) : sizeOf m.2 < sizeOf (object members) := by
  have smaller := List.sizeOf_lt_of_mem mem
  obtain ⟨name, value⟩ := m
  simp only [Prod.mk.sizeOf_spec, object.sizeOf_spec] at smaller ⊢
  omega

/-- What a reader makes of a value. -/
def term : JsonValue → JsonTerm
  | boolean flag => .boolean flag
  | integer number => .number number
  | string text => .string text
  | array items => .array (items.map term)
  | object members => .object (members.map fun m => (m.1, m.2.term))
decreasing_by
  · decreasing_tactic
  · exact sizeOf_lt_of_mem_members ‹_›

/-- A property of all values may be taken for granted of items and members. -/
@[elab_as_elim]
theorem induction_on {P : JsonValue → Prop} (v : JsonValue) (boolean : ∀ flag, P (boolean flag))
    (integer : ∀ number, P (integer number)) (string : ∀ text, P (string text))
    (array : ∀ items, (∀ v ∈ items, P v) → P (array items))
    (object : ∀ members, (∀ m ∈ members, P m.2) → P (object members)) : P v := by
  match v with
  | .boolean flag => exact boolean flag
  | .integer number => exact integer number
  | .string text => exact string text
  | .array items =>
    exact array items fun v _ => induction_on v boolean integer string array object
  | .object members =>
    exact object members fun m _ => induction_on m.2 boolean integer string array object
decreasing_by
  · decreasing_tactic
  · exact sizeOf_lt_of_mem_members ‹_›

end JsonValue

open JsonValue (escapeChar quoteChars lineAt printAt printItems printMembers)

namespace JsonTerm

variable {α β : Type} {fuel depth place : Nat} {text rest cs : List Char} {c : Char}

/-! ## Blank space -/

theorem skipSpace_of_not_isSpace (word : isSpace c = false) (cs : List Char) :
    skipSpace (c :: cs) = c :: cs :=
  List.dropWhile_cons_of_neg (by simp [word])

theorem skipSpace_append (blank : ∀ c ∈ cs, isSpace c = true) (rest : List Char) :
    skipSpace (cs ++ rest) = skipSpace rest :=
  List.dropWhile_append_of_pos blank

theorem skipSpace_lineAt (place : Nat) (rest : List Char) :
    skipSpace (lineAt place ++ rest) = skipSpace rest := by
  refine skipSpace_append (fun c mem => ?_) rest
  rcases List.mem_cons.1 mem with rfl | mem
  · rfl
  · rw [(List.mem_replicate.1 mem).2]
    rfl

/-! ## Texts -/

theorem hexValue?_digitChar {value : Nat} (small : value < 16) :
    Toml.hexValue? (Nat.digitChar value) = some value := by
  have all : ∀ value < 16, Toml.hexValue? (Nat.digitChar value) = some value := by decide
  exact all value small

/-- A control character is read from the two digits that it is written with. -/
theorem readCoded_control (control : c < ' ') (rest : List Char) :
    readCoded ('0' :: '0' :: Nat.digitChar (c.toNat / 16) :: Nat.digitChar (c.toNat % 16) :: rest) =
      some (c, rest) := by
  have small : c.toNat < 32 := control
  have valid : c.toNat.isValidChar := c.valid
  have zero : Toml.hexValue? '0' = some 0 := by decide
  have high := hexValue?_digitChar (show c.toNat / 16 < 16 by omega)
  have low := hexValue?_digitChar (show c.toNat % 16 < 16 by omega)
  have joined : ((0 * 16 + 0) * 16 + c.toNat / 16) * 16 + c.toNat % 16 = c.toNat := by omega
  have code : Toml.readHex 4 0 ('0' :: '0' :: Nat.digitChar (c.toNat / 16)
      :: Nat.digitChar (c.toNat % 16) :: rest) = some (c.toNat, rest) := by
    simp only [Toml.readHex, zero, high, low, Option.bind_eq_bind, Option.bind_some, joined]
  have whole : ¬ (0xD800 ≤ c.toNat ∧ c.toNat < 0xDC00) := by omega
  simp only [readCoded, code, Option.bind_eq_bind, Option.bind_some, if_neg whole, if_pos valid,
    Char.ofNat_toNat]

theorem readQuoted_plain (plain : ¬ c < ' ') (notQuote : c ≠ '"') (notBackslash : c ≠ '\\')
    (cs : List Char) : readQuoted (fuel + 1) (c :: cs) = before c (readQuoted fuel cs) := by
  rw [readQuoted.eq_def]
  split
  case h_1 same => exact absurd (List.cons.inj same).1 notQuote
  case h_2 same => exact absurd (List.cons.inj same).1 notBackslash
  case h_3 more same =>
    cases more
    cases same
    exact if_neg plain
  case h_4 none_fits => exact absurd rfl (none_fits fuel c cs rfl)

theorem readQuoted_escape {c : Char} {cs after : List Char}
    (read : readEscape cs = some (c, after)) :
    readQuoted (fuel + 1) ('\\' :: cs) = before c (readQuoted fuel after) := by
  rw [readQuoted, read]
  rfl

theorem readQuoted_escapeChar (c : Char) (cs : List Char) :
    readQuoted (fuel + 1) (escapeChar c ++ cs) = before c (readQuoted fuel cs) := by
  unfold escapeChar
  split
  case h_8 notQuote notBackslash _ _ _ _ _ =>
    split
    · rename_i control
      exact readQuoted_escape (readCoded_control control cs)
    · rename_i plain
      exact readQuoted_plain plain notQuote notBackslash cs
  all_goals rfl

theorem length_escapeChar_pos (c : Char) : 0 < (escapeChar c).length := by
  unfold escapeChar
  split
  case h_8 => split <;> exact Nat.succ_pos _
  all_goals exact Nat.succ_pos _

theorem length_le_length_escaped (text : List Char) :
    text.length ≤ (text.flatMap escapeChar).length := by
  induction text with
  | nil => exact Nat.le_refl 0
  | cons c text ih =>
    have := length_escapeChar_pos c
    rw [List.flatMap_cons, List.length_append, List.length_cons]
    omega

/-- **A text is read back character by character.** -/
theorem readQuoted_escaped (enough : text.length ≤ fuel) (rest : List Char) :
    readQuoted fuel (text.flatMap escapeChar ++ '"' :: rest) = some (text, rest) := by
  induction text generalizing fuel with
  | nil => cases fuel <;> rfl
  | cons c text ih =>
    cases fuel with
    | zero => exact absurd enough (by simp)
    | succ fuel =>
      rw [List.flatMap_cons, List.append_assoc, readQuoted_escapeChar,
        ih (Nat.le_of_succ_le_succ enough)]
      rfl

theorem exists_quoteChars (text rest : List Char) :
    ∃ body, quoteChars text ++ rest = '"' :: body ∧
      readQuoted body.length body = some (text, rest) := by
  refine ⟨text.flatMap escapeChar ++ '"' :: rest, by simp [quoteChars], ?_⟩
  refine readQuoted_escaped ?_ rest
  have := length_le_length_escaped text
  rw [List.length_append]
  omega

/-! ## Items -/

/-- What can follow a value: no number goes on with it. -/
def EndsTerm (rest : List Char) : Prop :=
  ∀ c ∈ rest.head?, c.isDigit = false ∧ c ∉ ['.', 'e', 'E']

/-- What no item can start with: blank space and what closes a row of items. -/
def notInFront : List Char :=
  [' ', '\t', '\n', '\r', ']', '\x7d']

/-- A text that is read as an item wherever one may end. -/
structure ReadsAs (item : List Char → Option (α × List Char)) (text : List Char) (a : α) :
    Prop where
  starts : ∃ c more, text = c :: more ∧ c ∉ notInFront
  reads : ∀ rest, EndsTerm rest → item (text ++ rest) = some (a, rest)

theorem endsTerm_cons {c : Char} (noDigit : c.isDigit = false) (noSign : c ∉ ['.', 'e', 'E'])
    (rest : List Char) : EndsTerm (c :: rest) := by
  rintro _ ⟨rfl⟩
  exact ⟨noDigit, noSign⟩

variable {item : List Char → Option (α × List Char)} {a : α}

theorem ReadsAs.skipSpace_eq (readsAs : ReadsAs item text a) (rest : List Char) :
    skipSpace (text ++ rest) = text ++ rest := by
  obtain ⟨c, more, rfl, starts⟩ := readsAs.starts
  simp only [notInFront, List.mem_cons, List.not_mem_nil, or_false, not_or] at starts
  exact skipSpace_of_not_isSpace (by simp [isSpace, starts]) _

theorem readsAs_string (text : List Char) :
    ReadsAs (readNested fuel depth) (quoteChars text) (.string (String.ofList text)) := by
  constructor
  · exact ⟨'"', _, rfl, by decide⟩
  · intro rest _
    obtain ⟨body, written, read⟩ := exists_quoteChars text rest
    rw [written, readNested, read, Option.map_some]

theorem readsAs_boolean (flag : Bool) :
    ReadsAs (readNested fuel depth) (if flag then "true" else "false").toList (.boolean flag) := by
  constructor
  · cases flag
    · exact ⟨'f', _, rfl, by decide⟩
    · exact ⟨'t', _, rfl, by decide⟩
  · intro rest _
    cases flag
    · change readNested fuel depth ('f' :: 'a' :: 'l' :: 's' :: 'e' :: rest) = _
      rw [readNested]
    · change readNested fuel depth ('t' :: 'r' :: 'u' :: 'e' :: rest) = _
      rw [readNested]

/-! ## Numbers -/

theorem readDigits_append (areDigits : ∀ c ∈ text, c.isDigit = true) (some_digit : text ≠ [])
    (ended : EndsTerm rest) : readDigits (text ++ rest) = some (text, rest) := by
  have stop : rest.takeWhile Char.isDigit = [] ∧ rest.dropWhile Char.isDigit = rest := by
    cases rest with
    | nil => exact ⟨rfl, rfl⟩
    | cons c rest =>
      have noDigit := (ended c rfl).1
      exact ⟨List.takeWhile_cons_of_neg (by simp [noDigit]),
        List.dropWhile_cons_of_neg (by simp [noDigit])⟩
  rw [readDigits, List.takeWhile_append_of_pos areDigits, List.dropWhile_append_of_pos areDigits,
    stop.1, stop.2, List.append_nil]
  cases text with
  | nil => exact absurd rfl some_digit
  | cons c text => rfl

theorem readWhole_toDigits (n : Nat) (ended : EndsTerm rest) :
    readWhole (Nat.toDigits 10 n ++ rest) = some (Nat.toDigits 10 n, rest) := by
  rcases Nat.eq_zero_or_pos n with rfl | positive
  · rfl
  · rw [readWhole.eq_def]
    split
    · rename_i zero
      cases written : Nat.toDigits 10 n with
      | nil => exact absurd written Nat.toDigits_ne_nil
      | cons c more =>
        rw [written, List.cons_append] at zero
        exact absurd ((List.cons.inj zero).1 ▸ written)
          (Toml.toDigits_ne_zero_cons n positive more)
    · exact readDigits_append Toml.isDigit_of_mem Nat.toDigits_ne_nil ended

/-- Behind the digits of a number there is no fraction and no exponent. -/
theorem readUnsigned_toDigits (negative : Bool) (n : Nat) (ended : EndsTerm rest) :
    readUnsigned negative (Nat.toDigits 10 n ++ rest) =
      some (.number (if negative then -(n : Int) else n : Int), rest) := by
  have noMore : readFraction rest = some ([], rest) ∧ readExponent rest = some (0, rest) := by
    cases rest with
    | nil => exact ⟨rfl, rfl⟩
    | cons c rest =>
      have noSign := (ended c rfl).2
      simp only [List.mem_cons, List.not_mem_nil, or_false, not_or] at noSign
      obtain ⟨noPoint, noExponent⟩ := noSign
      constructor
      · rw [readFraction.eq_def]
        split
        · rename_i same
          exact absurd (List.cons.inj same).1 noPoint
        · rfl
      · rw [readExponent]
        simp [noExponent]
  rw [readUnsigned, readWhole_toDigits n ended]
  simp [noMore, Nat.ofDigitChars_ten_toDigits]

/-- What starts with none of the signs and letters of other values is a number. -/
theorem readNested_number (other : c ∉ ['n', 't', 'f', '"', '[', '\x7b']) (cs : List Char) :
    readNested fuel depth (c :: cs) = readNumber (c :: cs) := by
  rw [readNested.eq_def]
  split
  all_goals first
    | rfl
    | rename_i same
      exact absurd ((List.cons.inj same).1 ▸ other) (by decide)

theorem not_mem_of_isDigit {cs : List Char} (digit : c.isDigit = true)
    (noDigits : cs.any Char.isDigit = false) : c ∉ cs := by
  intro mem
  rw [List.any_eq_true.2 ⟨c, mem, digit⟩] at noDigits
  exact Bool.false_ne_true noDigits.symm

theorem readsAs_natural (n : Nat) :
    ReadsAs (readNested fuel depth) (Nat.toDigits 10 n) (.number n) := by
  cases written : Nat.toDigits 10 n with
  | nil => exact absurd written Nat.toDigits_ne_nil
  | cons c more =>
    have digit : c.isDigit = true := Toml.isDigit_of_mem c (written ▸ List.mem_cons_self)
    constructor
    · exact ⟨c, more, rfl, not_mem_of_isDigit digit (by decide)⟩
    · intro rest ended
      have read := readUnsigned_toDigits false n ended
      rw [written, List.cons_append] at read
      rw [List.cons_append, readNested_number (not_mem_of_isDigit digit (by decide)),
        readNumber.eq_def]
      split
      · rename_i same
        exact absurd ((List.cons.inj same).1 ▸ digit) (by decide)
      · rw [read]
        rfl

theorem readsAs_integer (number : Int) :
    ReadsAs (readNested fuel depth) (toString number).toList (.number number) := by
  cases number with
  | ofNat n =>
    have written : (toString (Int.ofNat n)).toList = Nat.toDigits 10 n := Nat.toList_repr
    rw [written]
    exact readsAs_natural n
  | negSucc n =>
    have written : (toString (Int.negSucc n)).toList = '-' :: Nat.toDigits 10 (n + 1) := by
      have sign : toString (Int.negSucc n) = "-" ++ Nat.repr (n + 1) := rfl
      rw [sign, String.toList_append, Nat.toList_repr]
      rfl
    rw [written]
    constructor
    · exact ⟨'-', _, rfl, by decide⟩
    · intro rest ended
      rw [List.cons_append, readNested_number (by decide), readNumber,
        readUnsigned_toDigits true _ ended]
      rfl

/-! ## Rows -/

/-- The text of items that stand on lines of their own, up to the closing sign on the line behind
them. -/
def groupText (place : Nat) (close : Char) : List (List Char) → List Char
  | [] => [close]
  | first :: others =>
    lineAt (place + 1) ++ first ++ others.flatMap (fun text => ',' :: lineAt (place + 1) ++ text)
      ++ lineAt place ++ [close]

/-- Blank space in front of an item is passed over. -/
theorem readRow_lineAt (close : Char) (place : Nat) (cs : List Char) :
    readRow close item fuel (lineAt place ++ cs) = readRow close item fuel cs := by
  cases fuel with
  | zero => rfl
  | succ fuel => rw [readRow, skipSpace_lineAt, readRow]

/-- What stands first is an item, and then the row ends or goes on behind a comma. -/
theorem readRow_item {close : Char} (readsAs : ReadsAs item text a) (ended : EndsTerm cs) :
    readRow close item (fuel + 1) (text ++ cs) =
      match skipSpace cs with
      | [] => none
      | c :: rest =>
        if c = close then some ([a], rest)
        else if c = ',' then
          (readRow close item fuel rest).bind fun (others, left) => some (a :: others, left)
        else none := by
  rw [readRow, readsAs.skipSpace_eq, readsAs.reads cs ended]
  rfl

section rows

variable {close : Char} {write : β → List Char} {value : β → α} {xs : List β}

/-- A closing sign is no blank space and no comma. -/
theorem word_of_isClose (isClose : close ∈ [']', '\x7d']) :
    isSpace close = false ∧ ',' ≠ close := by
  simp only [List.mem_cons, List.not_mem_nil, or_false] at isClose
  rcases isClose with rfl | rfl <;> decide

/-- The items of a row are read one after the other. -/
theorem readRow_items (place : Nat) (isClose : close ∈ [']', '\x7d']) (x : β) (xs : List β)
    (items : ∀ y ∈ x :: xs, ReadsAs item (write y) (value y)) (enough : xs.length < fuel)
    (rest : List Char) :
    readRow close item fuel (write x ++ (xs.flatMap (fun y => ',' :: lineAt (place + 1) ++ write y)
      ++ (lineAt place ++ close :: rest))) = some ((x :: xs).map value, rest) := by
  obtain ⟨word, noComma⟩ := word_of_isClose isClose
  induction xs generalizing x fuel with
  | nil =>
    cases fuel with
    | zero => exact absurd enough (by simp)
    | succ fuel =>
      have behind : EndsTerm (lineAt place ++ close :: rest) :=
        endsTerm_cons (by decide) (by decide) _
      rw [List.flatMap_nil, List.nil_append, readRow_item (items x List.mem_cons_self) behind,
        skipSpace_lineAt, skipSpace_of_not_isSpace word]
      exact if_pos rfl
  | cons y xs ih =>
    obtain ⟨here, items⟩ := List.forall_mem_cons.1 items
    cases fuel with
    | zero => exact absurd enough (by simp)
    | succ fuel =>
      have later := ih y items (Nat.lt_of_succ_lt_succ enough)
      have behind : EndsTerm (',' :: (lineAt (place + 1) ++ (write y
          ++ (xs.flatMap (fun y => ',' :: lineAt (place + 1) ++ write y)
          ++ (lineAt place ++ close :: rest))))) :=
        endsTerm_cons (by decide) (by decide) _
      rw [List.flatMap_cons, List.append_assoc, List.append_assoc, List.cons_append,
        readRow_item here behind, skipSpace_of_not_isSpace (by decide)]
      dsimp only
      rw [if_neg noComma, if_pos rfl, readRow_lineAt, later]
      rfl

/-- **A group is read if its items are.** -/
theorem readGroup_groupText (isClose : close ∈ [']', '\x7d'])
    (items : ∀ x ∈ xs, ReadsAs item (write x) (value x)) (enough : xs.length ≤ fuel)
    (rest : List Char) :
    readGroup close item fuel (groupText place close (xs.map write) ++ rest) =
      some (xs.map value, rest) := by
  cases xs with
  | nil =>
    rw [List.map_nil, groupText, List.singleton_append, readGroup,
      skipSpace_of_not_isSpace (word_of_isClose isClose).1]
    exact if_pos rfl
  | cons x xs =>
    have first := items x List.mem_cons_self
    have read := readRow_items place isClose x xs items enough rest
    have written : groupText place close ((x :: xs).map write) ++ rest = lineAt (place + 1)
        ++ (write x ++ (xs.flatMap (fun y => ',' :: lineAt (place + 1) ++ write y)
        ++ (lineAt place ++ close :: rest))) := by
      simp [groupText, List.flatMap_map]
    rw [written, readGroup, skipSpace_lineAt, first.skipSpace_eq]
    obtain ⟨c, more, start, notFront⟩ := first.starts
    have goesOn : c ≠ close := by
      rintro rfl
      simp only [notInFront, List.mem_cons, List.not_mem_nil, or_false, not_or] at isClose notFront
      exact isClose.elim notFront.2.2.2.2.1 notFront.2.2.2.2.2
    rw [start, List.cons_append] at read ⊢
    dsimp only
    rw [if_neg goesOn, read]

end rows

/-! ## Values -/

/-- The text of a member: its name, a colon and its value. -/
def memberText (place : Nat) (m : String × JsonValue) : List Char :=
  quoteChars m.1.toList ++ ':' :: ' ' :: printAt place m.2

theorem printItems_eq (place : Nat) (items : List JsonValue) :
    printItems place items =
      (items.map (printAt place)).flatMap fun text => ',' :: lineAt place ++ text := by
  induction items with
  | nil => rfl
  | cons v items ih => rw [printItems, ih, List.map_cons, List.flatMap_cons]

theorem printMembers_eq (place : Nat) (members : List (String × JsonValue)) :
    printMembers place members =
      (members.map (memberText place)).flatMap fun text => ',' :: lineAt place ++ text := by
  induction members with
  | nil => rfl
  | cons m members ih =>
    rw [printMembers, ih, List.map_cons, List.flatMap_cons]
    simp [memberText]

theorem printAt_array (place : Nat) (items : List JsonValue) :
    printAt place (.array items) =
      '[' :: groupText place ']' (items.map (printAt (place + 1))) := by
  cases items with
  | nil => rfl
  | cons v items => simp [printAt, groupText, printItems_eq]

theorem printAt_object (place : Nat) (members : List (String × JsonValue)) :
    printAt place (.object members) =
      '\x7b' :: groupText place '\x7d' (members.map (memberText (place + 1))) := by
  cases members with
  | nil => rfl
  | cons m members => simp [printAt, groupText, printMembers_eq, memberText]

/-- A group is longer than each of its items, and at least as long as there are items. -/
theorem length_groupText (place : Nat) (close : Char) (texts : List (List Char)) :
    (∀ text ∈ texts, text.length < (groupText place close texts).length) ∧
      texts.length ≤ (groupText place close texts).length := by
  cases texts with
  | nil => simp
  | cons first others =>
    have each (text : List Char) (mem : text ∈ others) : text.length ≤
        (others.flatMap fun text => ',' :: lineAt (place + 1) ++ text).length := by
      rw [List.length_flatMap]
      refine le_trans ?_ (List.le_sum_of_mem (List.mem_map_of_mem mem))
      rw [List.length_append]
      exact Nat.le_add_left _ _
    have all : others.length ≤
        (others.flatMap fun text => ',' :: lineAt (place + 1) ++ text).length := by
      rw [List.length_flatMap]
      refine le_trans ?_ (List.length_le_sum_of_one_le _ ?_)
      · simp
      · simp
    simp only [groupText, List.length_append, List.length_cons, List.length_nil]
    refine ⟨List.forall_mem_cons.2 ⟨by omega, fun text mem => ?_⟩, by omega⟩
    have := each text mem
    omega

theorem readsAs_member {m : String × JsonValue} {t : JsonTerm}
    (readsAs : ReadsAs (readNested fuel depth) (printAt place m.2) t) :
    ReadsAs (readMember (readNested fuel depth)) (memberText place m) (m.1, t) := by
  constructor
  · exact ⟨'"', _, rfl, by decide⟩
  · intro rest ended
    obtain ⟨body, written, read⟩ :=
      exists_quoteChars m.1.toList (':' :: ' ' :: (printAt place m.2 ++ rest))
    have text : memberText place m ++ rest = '"' :: body := by
      rw [← written]
      simp [memberText]
    have gap : skipSpace (' ' :: (printAt place m.2 ++ rest)) = printAt place m.2 ++ rest :=
      readsAs.skipSpace_eq rest
    have colon : isSpace ':' = false := by decide
    rw [text, readMember, read]
    simp only [Option.bind_eq_bind, Option.bind_some, skipSpace_of_not_isSpace colon, gap,
      readsAs.reads rest ended, String.ofList_toList]

/-- **Every printed value is read back**, wherever a value may end. -/
theorem readsAs_printAt (v : JsonValue) :
    ∀ {place fuel depth : Nat},
      (printAt place v).length ≤ fuel → (printAt place v).length ≤ depth →
        ReadsAs (readNested fuel depth) (printAt place v) v.term := by
  induction v using JsonValue.induction_on with
  | boolean flag =>
    intro place fuel depth _ _
    rw [printAt, JsonValue.term]
    exact readsAs_boolean flag
  | integer number =>
    intro place fuel depth _ _
    rw [printAt, JsonValue.term]
    exact readsAs_integer number
  | string text =>
    intro place fuel depth _ _
    have read := @readsAs_string fuel depth text.toList
    rw [String.ofList_toList] at read
    rwa [printAt, JsonValue.term]
  | array items ih =>
    intro place fuel depth enough deep
    rw [printAt_array] at enough deep ⊢
    rw [List.length_cons] at enough deep
    obtain ⟨each, count⟩ := length_groupText place ']' (items.map (printAt (place + 1)))
    rw [List.length_map] at count
    cases depth with
    | zero => exact absurd deep (by omega)
    | succ depth =>
      have inside (x : JsonValue) (mem : x ∈ items) :
          ReadsAs (readNested fuel depth) (printAt (place + 1) x) x.term := by
        have := each _ (List.mem_map_of_mem mem)
        exact ih x mem (by omega) (by omega)
      constructor
      · exact ⟨'[', _, rfl, by decide⟩
      · intro rest _
        rw [List.cons_append, readNested,
          readGroup_groupText (by decide) inside (by omega), Option.map_some, JsonValue.term]
  | object members ih =>
    intro place fuel depth enough deep
    rw [printAt_object] at enough deep ⊢
    rw [List.length_cons] at enough deep
    obtain ⟨each, count⟩ := length_groupText place '\x7d' (members.map (memberText (place + 1)))
    rw [List.length_map] at count
    cases depth with
    | zero => exact absurd deep (by omega)
    | succ depth =>
      have inside (m : String × JsonValue) (mem : m ∈ members) :
          ReadsAs (readMember (readNested fuel depth)) (memberText (place + 1) m)
            (m.1, m.2.term) := by
        have longer := each _ (List.mem_map_of_mem mem)
        have shorter : (printAt (place + 1) m.2).length ≤ (memberText (place + 1) m).length := by
          simp only [memberText, List.length_append, List.length_cons]
          omega
        exact readsAs_member (ih m mem (by omega) (by omega))
      constructor
      · exact ⟨'\x7b', _, rfl, by decide⟩
      · intro rest _
        rw [List.cons_append, readNested,
          readGroup_groupText (by decide) inside (by omega), Option.map_some, JsonValue.term]

/-- **Every printed value is read back**, with blank space behind it or not. -/
theorem ofText?_print (v : JsonValue) (behind : String)
    (blank : ∀ c ∈ behind.toList, isSpace c = true) :
    ofText? (v.print ++ behind) = some v.term := by
  have whole : (v.print ++ behind).toList = printAt 0 v ++ behind.toList := by
    rw [String.toList_append, JsonValue.print, String.toList_ofList]
  have enough : (printAt 0 v).length ≤ (printAt 0 v ++ behind.toList).length := by
    rw [List.length_append]
    exact Nat.le_add_right _ _
  have readsAs := readsAs_printAt v enough enough
  have ended : EndsTerm behind.toList := by
    intro c first
    have space := blank c (List.mem_of_mem_head? first)
    simp only [isSpace, Bool.or_eq_true, decide_eq_true_eq] at space
    rcases space with ((rfl | rfl) | rfl) | rfl <;> decide
  have nothing : skipSpace behind.toList = [] := by
    rw [← List.append_nil behind.toList, skipSpace_append blank]
    rfl
  rw [ofText?, whole, readsAs.skipSpace_eq]
  dsimp only
  rw [readsAs.reads _ ended]
  exact if_pos nothing

end JsonTerm

end MediaSweep
