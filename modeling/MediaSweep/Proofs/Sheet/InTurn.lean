import MediaSweep.Proofs.Sheet.Outcomes

/-!
# Requests one at a time

Requests for blocks can be answered together, or one at a time, each in the text that the one before
it left.  In general that makes a difference, because the lines behind a block that is gone have
other numbers.  From the bottom up it makes none (`removeInTurn_eq`): what is asked for next stands
above the lines that are gone, and no search from there comes as far as they were.

Two facts carry this.  An end that was found depends on the lines up to it and on no others
(`blockEnd?_of_take_eq`).  And a block that is never closed reaches the last line, so of several
blocks that stand apart only the lowest can be such a one, and that one goes first.
-/

namespace MediaSweep

set_option autoImplicit false

variable {lines lines' : List String}

/-! ## An end depends on the lines up to it -/

theorem getElem?_eq_of_take_eq {count index : Nat} (same : lines.take count = lines'.take count)
    (before : index < count) : lines[index]? = lines'[index]? := by
  rw [← List.getElem?_take_of_lt before, same, List.getElem?_take_of_lt before]

theorem depthAt_eq_of_take_eq {count index : Nat} (same : lines.take count = lines'.take count)
    (upTo : index ≤ count) : depthAt lines index = depthAt lines' index := by
  have shorter := congrArg (List.take index) same
  rw [List.take_take, List.take_take, Nat.min_eq_left upTo] at shorter
  rw [depthAt, depthAt, shorter]

theorem MediaAt.of_take_eq {count index : Nat} (same : lines.take count = lines'.take count)
    (before : index < count) (media : MediaAt lines index) : MediaAt lines' index := by
  rwa [MediaAt, ← getElem?_eq_of_take_eq same before]

theorem ClosesAt.of_take_eq {count first last : Nat} (same : lines.take count = lines'.take count)
    (before : last < count) (closes : ClosesAt lines first last) : ClosesAt lines' first last := by
  have ordered := closes.1
  rwa [ClosesAt, ← getElem?_eq_of_take_eq same before, ← depthAt_eq_of_take_eq same before,
    ← depthAt_eq_of_take_eq same (by omega)]

/-- **Where a block closes depends on the lines up to there.** -/
theorem blockEnd?_of_take_eq {start media last : Nat}
    (first : IsLeast {index | start ≤ index ∧ MediaAt lines index} media)
    (closes : IsLeast {last | ClosesAt lines media last} last)
    (same : lines.take (last + 1) = lines'.take (last + 1)) :
    blockEnd? lines' start = some (.closed last) := by
  have ordered := closes.1.1
  refine @blockEnd?_eq_closed lines' start media last ⟨⟨first.1.1, ?_⟩, fun index later => ?_⟩
    ⟨closes.1.of_take_eq same (by omega), fun other closesOther => ?_⟩
  · exact first.1.2.of_take_eq same (by omega)
  · by_contra before
    exact before (first.2 ⟨later.1, later.2.of_take_eq same.symm (by omega)⟩)
  · by_contra before
    exact before (closes.2 (closesOther.of_take_eq same.symm (by omega)))

/-- The search stops at the first line that closes the block, or at the last line of the sheet. -/
theorem exists_closesAt_or_last {start last : Nat}
    (found : (blockEnd? lines start).bind BlockEnd.index? = some last) :
    (∃ media, IsLeast {index | start ≤ index ∧ MediaAt lines index} media ∧
      IsLeast {last | ClosesAt lines media last} last) ∨ last + 1 = lines.length := by
  classical
  rcases blockEnd?_outcome lines start with ⟨_, search⟩ | ⟨_, _, search⟩ |
    ⟨within, ⟨line, mem, isMedia⟩, _⟩
  · simp [search] at found
  · simp [search, BlockEnd.index?] at found
  have first := Nat.isLeast_find (exists_mediaAt_of_mem_drop mem isMedia)
  generalize Nat.find (exists_mediaAt_of_mem_drop mem isMedia) = media at first
  by_cases closes : ∃ last, ClosesAt lines media last
  · have ends := Nat.isLeast_find closes
    rw [blockEnd?_eq_closed first ends] at found
    obtain rfl : Nat.find closes = last := by simpa [BlockEnd.index?] using found
    exact .inl ⟨media, first, ends⟩
  · rw [blockEnd?_eq_unterminated first fun last at_last => closes ⟨last, at_last⟩] at found
    have : lines.length - 1 = last := by simpa [BlockEnd.index?] using found
    exact .inr (by omega)

/-- **A request above the last line of the sheet is answered by the lines up to the answer's
end.** -/
theorem lookUp_of_take_eq {lineNumber count : Nat} {found : LocatedBlock}
    (answer : lookUp lines lineNumber = .located found)
    (same : lines.take count = lines'.take count) (before : found.span.last < count)
    (notLast : found.span.last + 1 < lines.length) : lookUp lines' lineNumber = .located found := by
  cases lineNumber with
  | zero => cases answer
  | succ start =>
    obtain ⟨number, answers⟩ := answers_of_lookUp answer
    have ends := answers.last_eq
    have ordered := answers.ordered
    rw [answers.first_eq, number, Nat.add_sub_cancel] at ordered
    rw [number, Nat.add_sub_cancel] at ends
    rcases exists_closesAt_or_last ends with ⟨media, first, closes⟩ | last
    · have upTo := congrArg (List.take (found.span.last + 1)) same
      rw [List.take_take, List.take_take, Nat.min_eq_left before] at upTo
      rw [← answer, lookUp_succ, lookUp_succ, blockEnd?_of_take_eq first closes rfl,
        blockEnd?_of_take_eq first closes upTo, getElem?_eq_of_take_eq same (by omega)]
    · omega

/-! ## What is left above a block -/

theorem keepUnless_append {α : Type} {marked : Nat → Bool} (index : Nat) (xs ys : List α) :
    keepUnless marked index (xs ++ ys) =
      keepUnless marked index xs ++ keepUnless marked (index + xs.length) ys := by
  rw [keepUnless_split index xs.length, List.take_left, List.drop_left]

/-- **Lines that are marked above a span can be removed after the lines of the span.** -/
theorem keepUnless_below {α : Type} (marked : Nat → Bool) (s : Span) (items : List α)
    (above : ∀ place, marked place = true → place < s.first) :
    keepUnless (fun place => s.covers place || marked place) 0 items =
      keepUnless marked 0 (items.take s.first ++ items.drop (s.last + 1)) := by
  have high := s.first_le_last
  have run : s.first + (s.last + 1 - s.first) = s.last + 1 := by omega
  have free : ∀ {place}, s.first ≤ place → marked place = false := by
    intro place low
    rw [← Bool.not_eq_true]
    exact fun here => absurd (above place here) (by omega)
  rw [keepUnless_split 0 s.first, Nat.zero_add, keepUnless_split s.first (s.last + 1 - s.first),
    run, List.drop_drop, run, keepUnless_append, Nat.zero_add]
  congr 1
  · refine keepUnless_congr fun place _ short => ?_
    have := List.length_take_le s.first items
    have out : s.covers place = false := by
      rw [← Bool.not_eq_true, Span.covers_iff]
      omega
    rw [out, Bool.false_or]
  have inside : keepUnless (fun place => s.covers place || marked place) s.first
      ((items.drop s.first).take (s.last + 1 - s.first)) = [] := by
    refine keepUnless_eq_nil fun place low short => ?_
    have := List.length_take_le (s.last + 1 - s.first) (items.drop s.first)
    rw [Bool.or_eq_true, Span.covers_iff]
    omega
  have behind : keepUnless (fun place => s.covers place || marked place) (s.last + 1)
      (items.drop (s.last + 1)) = items.drop (s.last + 1) := by
    refine keepUnless_eq_self fun place low _ => ?_
    have out : s.covers place = false := by
      rw [← Bool.not_eq_true, Span.covers_iff]
      omega
    rw [out, free (by omega), Bool.false_or]
  have later : keepUnless marked (items.take s.first).length (items.drop (s.last + 1)) =
      items.drop (s.last + 1) := by
    refine keepUnless_eq_self fun place low short => free ?_
    -- when the items end before the span there are none behind it
    rw [List.length_take] at low short
    rw [List.length_drop] at short
    omega
  rw [inside, behind, later, List.nil_append]

/-! ## One request and the ones above it -/

section

variable {lineNumber : Nat} {found : LocatedBlock}

theorem kept_stripAt_nil (lines : List String) : (stripAt [] lines).kept = lines := by
  rw [kept_stripAt]
  exact keepUnless_eq_self fun _ _ _ => rfl

theorem located_stripAt_cons (answer : lookUp lines lineNumber = .located found)
    (rest : List Nat) :
    (stripAt (lineNumber :: rest) lines).located = found :: (stripAt rest lines).located := by
  rw [located_stripAt, located_stripAt, List.filterMap_cons_some (by rw [answer]; rfl)]

theorem mem_located_stripAt {requests : List Nat} (mem : lineNumber ∈ requests)
    (answer : lookUp lines lineNumber = .located found) :
    found ∈ (stripAt requests lines).located := by
  rw [located_stripAt]
  exact List.mem_filterMap.2 ⟨lineNumber, mem, by rw [answer]; rfl⟩

/-- A single request that is answered takes out the lines of its answer. -/
theorem kept_stripAt_singleton (answer : lookUp lines lineNumber = .located found) :
    (stripAt [lineNumber] lines).kept =
      lines.take found.span.first ++ lines.drop (found.span.last + 1) := by
  have below := keepUnless_below (fun _ => false) found.span lines fun _ none =>
    absurd none Bool.false_ne_true
  rw [keepUnless_eq_self fun _ _ _ => rfl] at below
  rw [kept_stripAt, located_stripAt_cons answer]
  exact below

/-- Requests above a block are answered without it as they are with it. -/
theorem lookUp_kept_stripAt {other : LocatedBlock} {above : Nat}
    (answer : lookUp lines lineNumber = .located found) (within : found.span.last < lines.length)
    (answer' : lookUp lines above = .located other) (apart : other.span.Before found.span) :
    lookUp (stripAt [lineNumber] lines).kept above = .located other := by
  have high := found.span.first_le_last
  have before : other.span.last < found.span.first := apart
  refine lookUp_of_take_eq answer' ?_ before (by omega)
  rw [kept_stripAt_singleton answer, List.take_left' (List.length_take_of_le (by omega))]

/-- **One request first, then the ones above it, leaves what all of them leave together.** -/
theorem kept_stripAt_cons {rest : List Nat} (answer : lookUp lines lineNumber = .located found)
    (apart : ∀ other ∈ (stripAt rest lines).located, other.span.Before found.span)
    (same : (stripAt rest (stripAt [lineNumber] lines).kept).located =
      (stripAt rest lines).located) :
    (stripAt (lineNumber :: rest) lines).kept =
      (stripAt rest (stripAt [lineNumber] lines).kept).kept := by
  have below := keepUnless_below
    (fun place => (stripAt rest lines).located.any (·.span.covers place)) found.span lines (by
      intro place marked
      obtain ⟨other, mem, covers⟩ := List.any_eq_true.1 marked
      exact (Span.covers_iff.1 covers).2.trans_lt (apart other mem))
  rw [kept_stripAt rest, same, kept_stripAt, located_stripAt_cons answer,
    kept_stripAt_singleton answer]
  exact below

/-- Above a block that does not start with the sheet there are lines left, and the text of what is
left has these lines. -/
theorem toLines_removeBlocksAt_singleton {text : String}
    (answer : lookUp (Text.toLines text) lineNumber = .located found)
    (within : found.span.last < (Text.toLines text).length) (room : 0 < found.span.first) :
    Text.toLines (removeBlocksAt text [lineNumber]).text =
      (stripAt [lineNumber] (Text.toLines text)).kept := by
  refine Text.toLines_ofLines (fun nothing => ?_) fun line kept => ?_
  · have high := found.span.first_le_last
    have size := congrArg List.length nothing
    rw [kept_stripAt_singleton answer, List.length_append, List.length_take] at size
    simp only [List.length_nil] at size
    omega
  · rw [kept_stripAt] at kept
    exact Text.unbroken_toLines text line ((keepUnless_sublist _ _).mem kept)

end

/-! ## From the bottom up -/

/-- Answer requests one at a time, each in the text that the one before it left: the blocks located
for each of them, and the text left at the end. -/
def removeInTurn (text : String) : List Nat → List (List LocatedBlock) × String
  | [] => ([], text)
  | lineNumber :: rest =>
    let step := removeBlocksAt text [lineNumber]
    let (found, left) := removeInTurn step.text rest
    (step.located :: found, left)

/-- Requests whose answers stand apart, the lowest first, can be taken one at a time. -/
theorem removeInTurn_of_ordered (text : String) {requests : List Nat}
    (answered : ∀ n ∈ requests, ∃ found, lookUp (Text.toLines text) n = .located found)
    (ordered : (stripAt requests (Text.toLines text)).located.Pairwise
      fun lower upper => upper.span.Before lower.span) :
    removeInTurn text requests =
      ((stripAt requests (Text.toLines text)).located.map ([·]),
        Text.ofLines (stripAt requests (Text.toLines text)).kept) := by
  induction requests generalizing text with
  | nil =>
    rw [kept_stripAt_nil, Text.ofLines_toLines]
    rfl
  | cons lineNumber rest ih =>
    obtain ⟨⟨found, answer⟩, answered⟩ := List.forall_mem_cons.1 answered
    rw [located_stripAt_cons answer, List.pairwise_cons] at ordered
    obtain ⟨apart, ordered⟩ := ordered
    have single : (removeBlocksAt text [lineNumber]).located = [found] :=
      located_stripAt_cons answer []
    have within : found.span.last < (Text.toLines text).length :=
      (answers_of_mem_located (single ▸ List.mem_singleton_self found)).within
    -- every other request is answered by the same block, above the one that goes first
    have above : ∀ n ∈ rest, ∃ other, lookUp (Text.toLines text) n = .located other ∧
        other.span.Before found.span ∧
        lookUp (stripAt [lineNumber] (Text.toLines text)).kept n = .located other := by
      intro n mem
      obtain ⟨other, other_answer⟩ := answered n mem
      have before := apart other (mem_located_stripAt mem other_answer)
      exact ⟨other, other_answer, before, lookUp_kept_stripAt answer within other_answer before⟩
    have same : (stripAt rest (stripAt [lineNumber] (Text.toLines text)).kept).located =
        (stripAt rest (Text.toLines text)).located := by
      rw [located_stripAt, located_stripAt]
      refine List.filterMap_congr fun n mem => ?_
      obtain ⟨other, other_answer, _, still⟩ := above n mem
      rw [other_answer, still]
    have later : removeInTurn (removeBlocksAt text [lineNumber]).text rest =
        ((stripAt rest (Text.toLines text)).located.map ([·]),
          Text.ofLines (stripAt (lineNumber :: rest) (Text.toLines text)).kept) := by
      rw [kept_stripAt_cons answer apart same]
      cases rest with
      | nil =>
        rw [kept_stripAt_nil]
        rfl
      | cons next rest =>
        obtain ⟨other, _, before, _⟩ := above next List.mem_cons_self
        have left := toLines_removeBlocksAt_singleton answer within (Nat.zero_lt_of_lt before)
        have behind := ih (removeBlocksAt text [lineNumber]).text
        rw [left, same] at behind
        refine behind (fun n mem => ?_) ordered
        obtain ⟨other, _, _, still⟩ := above n mem
        exact ⟨other, still⟩
    rw [removeInTurn, later, located_stripAt_cons answer, single]
    rfl

/-- **Requests from the bottom up can be answered one at a time.**  Every request is answered by
the block that answers it together with the others, and in the end the same text is left. -/
theorem removeInTurn_eq {text : String} {requests : List Nat}
    (descending : requests.Pairwise (· > ·))
    (answered : (removeBlocksAt text requests).located.map (·.lineNumber) = requests)
    (apart : (removeBlocksAt text requests).located.Pairwise fun lower upper =>
      ∀ index, ¬ (lower.span.covers index = true ∧ upper.span.covers index = true)) :
    removeInTurn text requests =
      ((removeBlocksAt text requests).located.map ([·]), (removeBlocksAt text requests).text) := by
  have inSheet : ∀ n ∈ requests,
      ¬ OutOfSheet (Text.toLines text) n ∧ MediaFrom (Text.toLines text) n := by
    have all := (map_lineNumber_located requests (Text.toLines text)).symm.trans answered
    exact fun n mem => of_decide_eq_true (List.filter_eq_self.1 all n mem)
  refine removeInTurn_of_ordered text (fun n mem => ?_) ?_
  · obtain ⟨inside, media⟩ := inSheet n mem
    rcases lookUp_cases (Text.toLines text) n with ⟨out, _⟩ | ⟨_, plain, _⟩ |
      ⟨_, _, found, answer, _⟩
    · exact absurd out inside
    · exact absurd media plain
    · exact ⟨found, answer⟩
  · have numbers : ∀ found ∈ (removeBlocksAt text requests).located,
        found.lineNumber ∈ requests := fun found mem => answered ▸ List.mem_map_of_mem mem
    replace descending := List.pairwise_map.1 (answered.symm ▸ descending)
    refine (descending.and apart).imp_of_mem fun {lower upper} lowerMem upperMem both => ?_
    obtain ⟨below, apart⟩ := both
    have positive := (inSheet _ (numbers upper upperMem)).1
    have lowerFirst := (answers_of_mem_located lowerMem).first_eq
    have upperFirst := (answers_of_mem_located upperMem).first_eq
    have high := lower.span.first_le_last
    by_contra meets
    rw [Span.Before] at meets
    refine apart lower.span.first ⟨?_, ?_⟩ <;> rw [Span.covers_iff] <;> omega

/-- A sheet with a block, and with one that is never closed. -/
def unclosedText : String :=
  "a\n@media print \x7b\n.b \x7b\x7d\n\x7d\n.c \x7b\x7d\n@media screen \x7b\n.d \x7b\x7d"

/-- Both numbers stand above the block that they find, and nothing is left in the end. -/
theorem removeInTurn_unclosedText :
    [5, 1].Pairwise (· > ·) ∧
    (removeBlocksAt unclosedText [5, 1]).located.map (·.lineNumber) = [5, 1] ∧
    ((removeBlocksAt unclosedText [5, 1]).located.Pairwise fun lower upper =>
      ∀ index, ¬ (lower.span.covers index = true ∧ upper.span.covers index = true)) ∧
    removeInTurn unclosedText [5, 1] =
      ([[⟨5, Span.between 4 6, false⟩], [⟨1, Span.between 0 3, false⟩]], "") := by
  have located : (removeBlocksAt unclosedText [5, 1]).located =
      [⟨5, Span.between 4 6, false⟩, ⟨1, Span.between 0 3, false⟩] := by decide +kernel
  have left : (removeBlocksAt unclosedText [5, 1]).text = "" := by decide +kernel
  have descending : [5, 1].Pairwise (· > ·) := by decide
  have answered : (removeBlocksAt unclosedText [5, 1]).located.map (·.lineNumber) = [5, 1] := by
    rw [located]
    rfl
  have apart : (removeBlocksAt unclosedText [5, 1]).located.Pairwise fun lower upper =>
      ∀ index, ¬ (lower.span.covers index = true ∧ upper.span.covers index = true) := by
    rw [located]
    refine List.pairwise_pair.2 fun index both => ?_
    simp only [Span.covers_iff, Span.between] at both
    omega
  have whole := removeInTurn_eq descending answered apart
  rw [located, left] at whole
  exact ⟨descending, answered, apart, whole⟩

end MediaSweep
