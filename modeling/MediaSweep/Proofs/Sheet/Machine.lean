import MediaSweep.Proofs.Sheet.Contents
import MediaSweep.Proofs.Sheet.Pass
import MediaSweep.Text.Numeral

/-!
# Counting with machine numbers

The depth of a place and the index of a line are unbounded numbers here.  A machine counts the
depth in a signed number of 64 bits and everything else in words, and its operations fail when a
result does not fit: a word grows too great or would be negative, or a signed number leaves the
range between the bounds.  This module repeats the searches for blocks with such operations, which
give nothing when one of them fails.

For a sheet that is not too large no operation fails, and the outcome is the same (`blockEnd_eq`,
`blocks_eq`).  What carries this is one bound on what is ahead: the depth reached and the
characters still to come, counting a newline for each line, are together at most the bound of
signed numbers (`Ahead`).  A line moves the depth by no more than the characters it has, so the
bound is kept line by line, and the newline makes it strict.
-/

namespace MediaSweep

set_option autoImplicit false

/-! ## The room that lines take -/

/-- The number of characters of some lines, with a newline for each line. -/
def room (lines : List String) : Nat :=
  (withNewlines lines).length

@[simp]
theorem room_nil : room [] = 0 := rfl

@[simp]
theorem room_cons (line : String) (rest : List String) :
    room (line :: rest) = line.toList.length + 1 + room rest := by
  rw [room, withNewlines, List.flatMap_cons, List.length_append, List.length_append, room,
    withNewlines, List.length_singleton]

theorem length_le_room (lines : List String) : lines.length ≤ room lines := by
  induction lines with
  | nil => exact Nat.le_refl 0
  | cons line rest ih =>
    rw [List.length_cons, room_cons]
    omega

/-- The lines before a line take room as well, at least one character each. -/
theorem add_room_drop_le {lines : List String} {start : Nat} (within : start ≤ lines.length) :
    start + room (lines.drop start) ≤ room lines := by
  have before := length_le_room (lines.take start)
  rw [List.length_take, Nat.min_eq_left within] at before
  have split : room lines = room (lines.take start) + room (lines.drop start) := by
    rw [room, room, room, ← List.length_append, ← withNewlines_append, List.take_append_drop]
  omega

theorem length_le_utf8Len (cs : List Char) : cs.length ≤ String.utf8Len cs := by
  induction cs with
  | nil => exact Nat.le_refl 0
  | cons c rest ih =>
    have := c.utf8Size_pos
    rw [List.length_cons, String.utf8Len_cons]
    omega

/-- The lines of a text take one character more than the text, and no more than its bytes and
one. -/
theorem room_toLines_le (text : String) : room (Text.toLines text) ≤ text.utf8ByteSize + 1 := by
  rw [room, withNewlines_eq (Text.toLines_ne_nil text), Text.ofLines_toLines, List.length_append,
    ← String.utf8Len_toList]
  exact Nat.succ_le_succ (length_le_utf8Len text.toList)

/-- A line moves the depth by at most its number of characters. -/
theorem natAbs_lineDelta_le (line : String) : (lineDelta line).natAbs ≤ line.toList.length := by
  have opens := List.count_le_length (a := openBrace) (l := line.toList)
  have closes := List.count_le_length (a := closeBrace) (l := line.toList)
  simp only [lineDelta, BraceTally.delta, BraceTally.ofLine, BraceTally.ofChars]
  omega

/-- What is told of a span: its number of lines, and its first and its last line, counted from
one. -/
def Span.told (s : Span) : Nat × Nat × Nat :=
  (s.size, s.firstLine, s.lastLine)

namespace Machine

/-! ## Machine numbers -/

/-- The bound of signed numbers: they lie strictly between it and its negative. -/
def counterBound : Nat := Nat.pow 2 63

/-- A natural number, if it is a machine word. -/
def word (n : Nat) : Option Nat :=
  if n < Text.wordBound then some n else none

/-- The difference of two words, if it does not wrap. -/
def minus (n m : Nat) : Option Nat :=
  if m ≤ n then some (n - m) else none

/-- A number, if it fits strictly between the bounds of signed numbers. -/
def signed (n : Int) : Option Int :=
  if -(counterBound : Int) < n ∧ n < counterBound then some n else none

/-- A step that does not fail is followed by the next one. -/
theorem some_bind {α β : Type} (a : α) (next : α → Option β) : (some a >>= next) = next a := rfl

theorem word_eq {n : Nat} (fits : n < Text.wordBound) : word n = some n :=
  if_pos fits

theorem minus_eq {n m : Nat} (ordered : m ≤ n) : minus n m = some (n - m) :=
  if_pos ordered

theorem signed_eq {n : Int} (fits : n.natAbs < counterBound) : signed n = some n :=
  if_pos (by omega)

-- The bounds themselves do not fit.
example : word Text.wordBound = none ∧ signed counterBound = none := by decide

theorem counterBound_lt_wordBound : counterBound < Text.wordBound := by decide

/-! ## Braces -/

/-- Count one character. -/
def count (t : BraceTally) (c : Char) : Option BraceTally :=
  if c = openBrace then do
    let opens ← word (t.opens + 1)
    some { t with opens }
  else if c = closeBrace then do
    let closes ← word (t.closes + 1)
    some { t with closes }
  else some t

/-- Count the braces of a line in machine words. -/
def tally (line : String) : Option BraceTally :=
  line.toList.foldlM count ⟨0, 0⟩

/-- What a line adds to the depth: the difference of two words that are taken as signed numbers. -/
def delta (t : BraceTally) : Option Int := do
  let opens ← signed t.opens
  let closes ← signed t.closes
  signed (opens - closes)

/-- Move the depth over a line. -/
def advance (depth : Int) (line : String) : Option (BraceTally × Int) := do
  let t ← tally line
  let change ← delta t
  let after ← signed (depth + change)
  some (t, after)

theorem count_eq {t : BraceTally} (c : Char) (opens : t.opens + 1 < Text.wordBound)
    (closes : t.closes + 1 < Text.wordBound) :
    count t c = some ⟨t.opens + [c].count openBrace, t.closes + [c].count closeBrace⟩ := by
  have differ : openBrace ≠ closeBrace := by decide
  rw [count, word_eq opens, word_eq closes]
  split
  · rename_i isOpen
    simp [isOpen, differ]
  · rename_i notOpen
    split
    · rename_i isClose
      simp [isClose, differ.symm]
    · rename_i notClose
      simp [notOpen, notClose]

theorem foldlM_count {t : BraceTally} {cs : List Char}
    (opens : t.opens + cs.length < Text.wordBound)
    (closes : t.closes + cs.length < Text.wordBound) :
    cs.foldlM count t =
      some ⟨t.opens + cs.count openBrace, t.closes + cs.count closeBrace⟩ := by
  induction cs generalizing t with
  | nil => rfl
  | cons c rest ih =>
    rw [List.length_cons] at opens closes
    have atMost (brace : Char) : [c].count brace ≤ 1 := List.count_le_length
    have opened := atMost openBrace
    have closed := atMost closeBrace
    rw [List.foldlM_cons, count_eq c (by omega) (by omega), some_bind,
      ih (by simp only; omega) (by simp only; omega)]
    have first (brace : Char) : (c :: rest).count brace = [c].count brace + rest.count brace :=
      (List.count_append : ([c] ++ rest).count brace = _)
    simp only [first, Nat.add_assoc]

theorem tally_eq {line : String} (short : line.toList.length < Text.wordBound) :
    tally line = some (BraceTally.ofLine line) := by
  rw [tally, foldlM_count (by simpa using short) (by simpa using short)]
  simp [BraceTally.ofLine, BraceTally.ofChars]

theorem delta_eq {t : BraceTally} (opens : t.opens < counterBound)
    (closes : t.closes < counterBound) : delta t = some t.delta := by
  rw [delta, signed_eq (by omega), signed_eq (by omega)]
  simp only [some_bind]
  exact signed_eq (by omega)

/-- A line does not lead out of the bounds from a depth that leaves room for its characters. -/
theorem advance_eq {depth : Int} {line : String}
    (within : depth.natAbs + line.toList.length < counterBound) :
    advance depth line = some (BraceTally.ofLine line, depth + lineDelta line) := by
  have below := counterBound_lt_wordBound
  have moved := natAbs_lineDelta_le line
  have counted : tally line = some (BraceTally.ofLine line) := tally_eq (by omega)
  have change : delta (BraceTally.ofLine line) = some (lineDelta line) := by
    refine delta_eq (Nat.lt_of_le_of_lt List.count_le_length ?_)
      (Nat.lt_of_le_of_lt List.count_le_length ?_) <;> omega
  have fits : signed (depth + lineDelta line) = some (depth + lineDelta line) :=
    signed_eq (by omega)
  rw [advance, counted, some_bind, change, some_bind, fits]
  rfl

/-- The depth reached and the lines ahead stay within the bounds, and so does the index of the next
line. -/
structure Ahead (index : Nat) (depth : Int) (lines : List String) : Prop where
  depth : depth.natAbs + room lines ≤ counterBound
  index : index + room lines ≤ counterBound

namespace Ahead

variable {index : Nat} {depth : Int} {line : String} {rest : List String}

theorem advance_eq (ahead : Ahead index depth (line :: rest)) :
    advance depth line = some (BraceTally.ofLine line, depth + lineDelta line) := by
  have within := ahead.depth
  rw [room_cons] at within
  exact Machine.advance_eq (by omega)

theorem word_eq (ahead : Ahead index depth (line :: rest)) :
    word (index + 1) = some (index + 1) := by
  have within := ahead.index
  have below := counterBound_lt_wordBound
  rw [room_cons] at within
  exact Machine.word_eq (by omega)

theorem pass (ahead : Ahead index depth (line :: rest)) : Ahead (index + 1) depth rest := by
  have depth := ahead.depth
  have index := ahead.index
  rw [room_cons] at depth index
  exact ⟨by omega, by omega⟩

theorem step (ahead : Ahead index depth (line :: rest)) :
    Ahead (index + 1) (depth + lineDelta line) rest := by
  have depth := ahead.depth
  have index := ahead.index
  have moved := natAbs_lineDelta_le line
  rw [room_cons] at depth index
  exact ⟨by omega, by omega⟩

end Ahead

/-! ## The end of a block -/

/-- Look for the end of a block in the lines ahead: whether a block has started, and the index of
the line that ends it. -/
def scanEnd (index : Nat) (depth : Int) (started : Bool) :
    List String → Option (Bool × Option Nat)
  | [] => some (started, none)
  | line :: rest =>
    if started || isMediaLine line then do
      let (t, depth) ← advance depth line
      if depth = 0 ∧ t.hasClose = true then some (true, some index)
      else
        let next ← word (index + 1)
        scanEnd next depth true rest
    else do
      let next ← word (index + 1)
      scanEnd next depth false rest

/-- Where the block that starts at or after a line ends. -/
def blockEnd (lines : List String) (start : Nat) : Option (Option BlockEnd) :=
  if lines.length ≤ start then some none
  else do
    match ← scanEnd start 0 false (lines.drop start) with
    | (_, some index) => some (some (.closed index))
    | (false, none) => some (some .notStarted)
    | (true, none) =>
      let last ← minus lines.length 1
      some (some (.unterminated last))

theorem scanEnd_started {index : Nat} {depth : Int} {lines : List String}
    (ahead : Ahead index depth lines) :
    scanEnd index depth true lines = some (true, closingLine? index depth lines) := by
  induction lines generalizing index depth with
  | nil => rfl
  | cons line rest ih =>
    rw [scanEnd, Bool.true_or, if_pos rfl, ahead.advance_eq, closingLine?, some_bind]
    dsimp only [lineDelta]
    split
    · rfl
    · rw [ahead.word_eq, some_bind]
      exact ih ahead.step

/-- The lines before the one that starts a block are passed over. -/
theorem scanEnd_eq {index : Nat} {lines : List String} (ahead : Ahead index 0 lines) :
    scanEnd index 0 false lines = some
      (match lines.findIdx? isMediaLine with
      | none => (false, none)
      | some skipped => (true, closingLine? (index + skipped) 0 (lines.drop skipped))) := by
  induction lines generalizing index with
  | nil => rfl
  | cons line rest ih =>
    cases media : isMediaLine line with
    | true =>
      have started :
          scanEnd index 0 false (line :: rest) = scanEnd index 0 true (line :: rest) := by
        rw [scanEnd, scanEnd, media, Bool.true_or, Bool.or_true]
      rw [started, scanEnd_started ahead, List.findIdx?_cons, media]
      rfl
    | false =>
      rw [scanEnd, media, Bool.or_false, if_neg (by simp), ahead.word_eq, some_bind, ih ahead.pass,
        List.findIdx?_cons, media]
      cases rest.findIdx? isMediaLine with
      | none => rfl
      | some skipped =>
        simp only [Bool.false_eq_true, if_false, Option.map_some, List.drop_succ_cons]
        rw [Nat.add_assoc, Nat.add_comm 1 skipped]

/-- **The end of a block is found without a failure.** -/
theorem blockEnd_eq {lines : List String} (fits : room lines ≤ counterBound) (start : Nat) :
    blockEnd lines start = some (blockEnd? lines start) := by
  rw [blockEnd]
  split
  · rename_i behind
    rw [(blockEnd?_eq_none_iff lines start).2 behind]
  · rename_i within
    have ahead : Ahead start 0 (lines.drop start) := by
      have split := add_room_drop_le (Nat.le_of_not_le within)
      exact ⟨by omega, by omega⟩
    have length : (lines.drop start).length = lines.length - start := List.length_drop
    rw [scanEnd_eq ahead, some_bind, blockEnd?]
    cases tail : lines.drop start with
    | nil =>
      rw [tail] at length
      exact absurd length (by simp only [List.length_nil]; omega)
    | cons line rest =>
      rw [tail, List.length_cons] at length
      rw [blockEndFrom?]
      cases (line :: rest).findIdx? isMediaLine with
      | none => rfl
      | some skipped =>
        dsimp only
        cases closingLine? (start + skipped) 0 ((line :: rest).drop skipped) with
        | some index => rfl
        | none =>
          have last : lines.length - 1 = start + rest.length := by omega
          rw [minus_eq (by omega), some_bind, last]

/-! ## All blocks -/

/-- Take one line in the pass that finds all blocks. -/
def feed (s : BlockScan) (line : String) : Option (BlockScan × Option MediaBlock) := do
  let (t, depth) ← advance s.depth line
  let index ← word (s.index + 1)
  match s.blockFor line with
  | none => some (⟨index, depth, none⟩, none)
  | some entered =>
    let block := { entered with opened := entered.opened || t.hasOpen }
    if block.isOver depth then some (⟨index, depth, none⟩, some (block.endAt s.index true))
    else some (⟨index, depth, some block⟩, none)

/-- The blocks that the pass finds in the lines ahead. -/
def blocks (s : BlockScan) : List String → Option (List MediaBlock)
  | [] => some s.unfinished.toList
  | line :: rest => do
    let (next, ended) ← feed s line
    let later ← blocks next rest
    some (ended.toList ++ later)

theorem feed_eq {s : BlockScan} {line : String} {rest : List String}
    (ahead : Ahead s.index s.depth (line :: rest)) : feed s line = some (s.feed line) := by
  rw [feed, ahead.advance_eq, some_bind]
  dsimp only
  rw [ahead.word_eq, some_bind]
  cases entered : s.blockFor line with
  | none => rw [BlockScan.feed_of_blockFor_eq_none entered]
  | some block =>
    rw [BlockScan.feed_of_blockFor_eq_some entered]
    exact (apply_ite some _ _ _).symm

/-- **All blocks are found without a failure.** -/
theorem blocks_eq {s : BlockScan} {lines : List String} (ahead : Ahead s.index s.depth lines) :
    blocks s lines = some (s.blocks lines) := by
  induction lines generalizing s with
  | nil => rfl
  | cons line rest ih =>
    have next : Ahead (s.feed line).1.index (s.feed line).1.depth rest := by
      rw [BlockScan.index_feed, BlockScan.depth_feed]
      exact ahead.step
    rw [blocks, feed_eq ahead, some_bind]
    dsimp only
    rw [ih next, some_bind, BlockScan.blocks_cons]

/-! ## Spans and marked lines -/

/-- What is told of a span, with the operations of a machine. -/
def numbers (s : Span) : Option (Nat × Nat × Nat) := do
  let between ← minus s.last s.first
  let size ← word (between + 1)
  let first ← word (s.first + 1)
  let last ← word (s.last + 1)
  some (size, first, last)

/-- Keep the items at the indices that are not marked, counting the items. -/
def retain {α : Type} (marked : Nat → Bool) (index : Nat) : List α → Option (List α)
  | [] => some []
  | item :: rest => do
    let next ← word (index + 1)
    let kept ← retain marked next rest
    some (if marked index then kept else item :: kept)

theorem numbers_eq {s : Span} (fits : s.lastLine < Text.wordBound) :
    numbers s = some s.told := by
  have ordered := s.first_le_last
  rw [Span.lastLine] at fits
  rw [numbers, minus_eq ordered, some_bind, word_eq (by omega), some_bind, word_eq (by omega),
    some_bind, word_eq fits, some_bind]
  rfl

theorem retain_eq {α : Type} {marked : Nat → Bool} {index : Nat} {items : List α}
    (fits : index + items.length < Text.wordBound) :
    retain marked index items = some (keepUnless marked index items) := by
  induction items generalizing index with
  | nil => rfl
  | cons item rest ih =>
    rw [List.length_cons] at fits
    rw [retain, word_eq (by omega), some_bind, ih (by omega), some_bind, keepUnless_cons]

end Machine

end MediaSweep
