import MediaSweep.Proofs.Toml.Numeral
import MediaSweep.Proofs.Toml.QuotedText
import MediaSweep.Settings.Encode

/-!
# Values read back

A written value is read back wherever a value can end: `Writes depth text value` says that in front
of a line end, a comma or a closing bracket `text` is read as `value` and nothing behind it is
taken.  Quoted texts, numbers that fit and truth values are written like this, and so is a list of
items that are, in one line or spread over lines (`Writes.list`).

A list is read by a loop that takes one item after the other, so the lemma for a spread list goes by
induction on its items.
-/

namespace MediaSweep.Toml

set_option autoImplicit false

/-- Whether a value can start with a character: it is not passed over, and closes no list. -/
def startsValue (c : Char) : Bool :=
  !isGap c && c ∉ ['\n', '\r', '#', ']']

/-- A text that is read as a value where a value can end. -/
structure Writes (depth : Nat) (text : List Char) (value : Value) : Prop where
  starts : ∃ c more, text = c :: more ∧ startsValue c = true
  reads : ∀ {fuel : Nat} {rest : List Char}, text.length ≤ fuel → EndsValue rest →
    readNested fuel depth (text ++ rest) = some (value, rest)

variable {depth fuel : Nat} {rest cs : List Char}

/-! ## Single values -/

theorem EndsValue.head?_ne {quote : Char} (ended : EndsValue rest)
    (noEnd : quote ∉ ['\n', ',', ']']) : rest.head? ≠ some quote := by
  obtain ⟨c, after, rfl, isEnd⟩ := ended
  rw [List.head?_cons, ne_eq, Option.some.injEq]
  exact fun same => noEnd (same ▸ isEnd)

theorem Writes.quoteChars (text : List Char) :
    Writes depth (quoteChars text) (.string (String.ofList text)) := by
  obtain ⟨quote, more, written, isQuote⟩ := exists_quoteChars text
  constructor
  · refine ⟨quote, more, written, ?_⟩
    rcases isQuote with rfl | rfl <;> decide
  · intro fuel rest _ ended
    have read := readText_quoteChars text (ended.head?_ne (by decide)) (ended.head?_ne (by decide))
    rw [written, List.cons_append] at read ⊢
    rcases isQuote with rfl | rfl <;> rw [readNested, read, Option.map_some]

theorem startsValue_of_isDigit {c : Char} (digit : c.isDigit = true) : startsValue c = true := by
  cases starts : startsValue c with
  | true => rfl
  | false =>
    simp only [startsValue, isGap, Bool.and_eq_false_iff, Bool.not_eq_false', Bool.or_eq_true,
      decide_eq_true_eq, decide_eq_false_iff_not, Decidable.not_not, List.mem_cons,
      List.not_mem_nil, or_false] at starts
    rcases starts with (rfl | rfl) | rfl | rfl | rfl | rfl <;> exact absurd digit (by decide)

theorem readNested_of_isDigit {c : Char} (digit : c.isDigit = true) (cs : List Char) :
    readNested fuel depth (c :: cs) = readScalar (c :: cs) := by
  rw [readNested.eq_def]
  split
  all_goals first
    | rfl
    | rename_i same
      exact absurd ((List.cons.inj same).1 ▸ digit) (by decide)

theorem Writes.natural {n : Nat} (fits : n < signedBound) :
    Writes depth (Nat.toDigits 10 n) (.integer n) := by
  cases written : Nat.toDigits 10 n with
  | nil => exact absurd written Nat.toDigits_ne_nil
  | cons c more =>
    have digit : c.isDigit = true := isDigit_of_mem c (written ▸ List.mem_cons_self)
    constructor
    · exact ⟨c, more, rfl, startsValue_of_isDigit digit⟩
    · intro fuel rest _ ended
      have read := readScalar_toDigits fits ended
      rw [written] at read
      rw [List.cons_append] at read ⊢
      rw [readNested_of_isDigit digit, read]

theorem Writes.boolean (flag : Bool) : Writes depth (toString flag).toList (.boolean flag) := by
  constructor
  · cases flag
    · exact ⟨'f', _, rfl, by decide⟩
    · exact ⟨'t', _, rfl, by decide⟩
  · intro fuel rest _ _
    cases flag
    · change readNested fuel depth ('f' :: 'a' :: 'l' :: 's' :: 'e' :: rest) = _
      rw [readNested]
    · change readNested fuel depth ('t' :: 'r' :: 'u' :: 'e' :: rest) = _
      rw [readNested]

/-! ## Lists -/

theorem skipFiller_of_startsValue {c : Char} (starts : startsValue c = true) (cs : List Char) :
    skipFiller false (c :: cs) = some (c :: cs) := by
  simp only [startsValue, Bool.and_eq_true, Bool.not_eq_true', decide_eq_true_eq, List.mem_cons,
    List.not_mem_nil, or_false, not_or] at starts
  obtain ⟨noGap, notNewline, notReturn, notComment, -⟩ := starts
  rw [skipFiller.eq_def]
  split
  · rename_i empty
    exact absurd empty (by simp)
  · rename_i same
    exact absurd (List.cons.inj same).1 notNewline
  · rename_i same
    exact absurd (List.cons.inj same).1 notReturn
  · rename_i same
    cases same
    simp [noGap, notComment]

section items

variable {α : Type} {item : List Char → Option (α × List Char)} {a : α} {text left : List Char}

/-- Line ends and blanks in front of an item are passed over. -/
theorem readItems_filler {c : Char} (filler : c = '\n' ∨ c = ' ') (cs : List Char) :
    readItems item fuel (c :: cs) = readItems item fuel cs := by
  cases fuel with
  | zero => rfl
  | succ fuel => rcases filler with rfl | rfl <;> rfl

/-- What stands first is an item, if a value can start with it. -/
theorem readItems_item (starts : ∃ c more, text = c :: more ∧ startsValue c = true)
    (read : item (text ++ cs) = some (a, cs)) :
    readItems item (fuel + 1) (text ++ cs) =
      (skipFiller false cs).bind fun
        | ']' :: left => some ([a], left)
        | ',' :: more =>
          (readItems item fuel more).bind fun (others, left) => some (a :: others, left)
        | _ => none := by
  obtain ⟨c, more, rfl, starts⟩ := starts
  rw [List.cons_append] at read ⊢
  rw [readItems, skipFiller_of_startsValue starts]
  simp only [Option.bind_eq_bind, Option.bind_some]
  split
  · rename_i same
    rw [(List.cons.inj same).1] at starts
    exact absurd starts (by decide)
  · rw [read]
    rfl

end items

/-- An item on a line of its own. -/
def itemLine (text : List Char) : List Char :=
  ' ' :: ' ' :: ' ' :: ' ' :: (text ++ [',', '\n'])

section lists

variable {β : Type} {text : β → List Char} {value : β → Value} {xs : List β} {bound : Nat}

theorem length_le_of_mem_itemLines (text : β → List Char) {x : β} (mem : x ∈ xs) :
    (text x).length ≤ (xs.flatMap fun x => itemLine (text x)).length := by
  induction xs with
  | nil => exact absurd mem List.not_mem_nil
  | cons y xs ih =>
    simp only [List.flatMap_cons, List.length_append, List.length_cons, itemLine] at ih ⊢
    rcases List.mem_cons.1 mem with rfl | mem
    · omega
    · have := ih mem
      omega

theorem length_le_itemLines (text : β → List Char) (xs : List β) :
    xs.length ≤ (xs.flatMap fun x => itemLine (text x)).length := by
  induction xs with
  | nil => exact Nat.le_refl 0
  | cons x xs ih =>
    simp only [List.flatMap_cons, List.length_append, List.length_cons, itemLine] at ih ⊢
    omega

/-- Items on lines of their own are read one after the other. -/
theorem readItems_itemLines (items : ∀ x ∈ xs, Writes depth (text x) (value x))
    (room : ∀ x ∈ xs, (text x).length ≤ bound) (enough : xs.length < fuel) (rest : List Char) :
    readItems (readNested bound depth) fuel (xs.flatMap (fun x => itemLine (text x)) ++ ']' :: rest)
      = some (xs.map value, rest) := by
  induction xs generalizing fuel with
  | nil =>
    cases fuel with
    | zero => exact absurd enough (by simp)
    | succ fuel => rfl
  | cons x xs ih =>
    obtain ⟨here, items⟩ := List.forall_mem_cons.1 items
    obtain ⟨fits, room⟩ := List.forall_mem_cons.1 room
    cases fuel with
    | zero => exact absurd enough (by simp)
    | succ fuel =>
      have later := ih items room (Nat.lt_of_succ_lt_succ enough)
      have comma : EndsValue
          (',' :: '\n' :: (xs.flatMap (fun x => itemLine (text x)) ++ ']' :: rest)) :=
        ⟨',', _, rfl, by decide⟩
      have written : (x :: xs).flatMap (fun x => itemLine (text x)) ++ ']' :: rest
          = ' ' :: ' ' :: ' ' :: ' ' :: (text x ++ ',' :: '\n' ::
            (xs.flatMap (fun x => itemLine (text x)) ++ ']' :: rest)) := by
        simp [itemLine]
      rw [written]
      iterate 4 rw [readItems_filler (.inr rfl)]
      rw [readItems_item here.starts (here.reads fits comma)]
      change (readItems _ fuel ('\n' :: _)).bind _ = _
      rw [readItems_filler (.inl rfl), later]
      rfl

end lists

/-- A list of at least two items is spread over lines. -/
theorem toList_writeList {items : List String} (several : 2 ≤ items.length) :
    (writeList items).toList =
      '[' :: '\n' :: (items.flatMap (fun item => itemLine item.toList) ++ [']']) := by
  match items with
  | [] | [_] => exact absurd several (by simp)
  | first :: second :: others =>
    have line (item : String) : ("    " ++ item ++ ",\n").toList = itemLine item.toList := by
      simp [itemLine]
    simp [writeList, String.toList_join, List.flatMap_map, ← line]

theorem readNested_bracket (cs : List Char) :
    readNested fuel (depth + 1) ('[' :: cs) =
      (readItems (readNested fuel depth) fuel cs).map
        fun (items, rest) => (.array items, rest) := by
  rw [readNested, readArray]

/-- **A list of written items is read back.** -/
theorem Writes.list {α : Type} {text : α → String} {value : α → Value} {xs : List α}
    (items : ∀ x ∈ xs, Writes depth (text x).toList (value x)) :
    Writes (depth + 1) (writeList (xs.map text)).toList (.array (xs.map value)) := by
  match xs with
  | [] =>
    refine ⟨⟨'[', [']'], by simp [writeList], by decide⟩, fun {fuel rest} room _ => ?_⟩
    cases fuel with
    | zero => exact absurd room (by simp [writeList])
    | succ fuel =>
      simp only [writeList, List.map_nil]
      exact readNested_bracket (']' :: rest)
  | [x] =>
    have written : (writeList ([x].map text)).toList = '[' :: ((text x).toList ++ [']']) := by
      simp [writeList]
    rw [written]
    refine ⟨⟨'[', _, rfl, by decide⟩, fun {fuel rest} room _ => ?_⟩
    have one := items x List.mem_cons_self
    cases fuel with
    | zero => exact absurd room (by simp)
    | succ fuel =>
      have fits : (text x).toList.length ≤ fuel + 1 := by
        simp only [List.length_cons, List.length_append, List.length_nil] at room
        omega
      rw [List.cons_append, List.append_assoc, List.singleton_append, readNested_bracket,
        readItems_item one.starts (one.reads fits ⟨']', rest, rfl, by decide⟩)]
      rfl
  | x :: y :: xs =>
    have several : 2 ≤ ((x :: y :: xs).map text).length := by simp
    rw [toList_writeList several, List.flatMap_map]
    refine ⟨⟨'[', _, rfl, by decide⟩, fun {fuel rest} room _ => ?_⟩
    rw [List.cons_append, List.cons_append, List.append_assoc, readNested_bracket,
      readItems_filler (.inl rfl)]
    simp only [List.length_cons, List.length_append, List.length_nil] at room
    have within (z : α) (mem : z ∈ x :: y :: xs) : (text z).toList.length ≤ fuel := by
      have := length_le_of_mem_itemLines (fun z => (text z).toList) mem
      omega
    have enough : (x :: y :: xs).length < fuel := by
      have := length_le_itemLines (fun z => (text z).toList) (x :: y :: xs)
      omega
    rw [List.singleton_append, readItems_itemLines items within enough, Option.map_some]

end MediaSweep.Toml
