import MediaSweep.Proofs.Sheet.Blocks
import MediaSweep.Proofs.Sheet.Places
import MediaSweep.Sheet.Strip

/-!
# The body of a media rule and the block it starts

The pass over a sheet sees whole lines only, and the depth of a block is the one before its first
line.  Here its blocks are compared with the braces themselves.  The first brace behind the first
`@media` of a line opens the body of the rule, if it is an opening one (`braceBehindMedia?`), and in
a balanced text one closing brace matches it.

The closing brace stands in the block when no other brace of the first line comes before the body.
Otherwise a brace before it can end the block too early: it closes an enclosing rule on the line
where the body is opened, and the depth is back before the body is over.  The brace stands in the
block then exactly when the depth stays above the one of the block on the way.
-/

namespace MediaSweep

set_option autoImplicit false

/-! ## First places -/

/-- The first place in some characters where a word starts. -/
def firstPlace? (word cs : List Char) : Option Nat :=
  cs.tails.findIdx? word.isPrefixOf

/-- The place of the first brace from a place on. -/
def braceFrom? (cs : List Char) (place : Nat) : Option Nat :=
  ((cs.drop place).findIdx? isBrace).map (place + ·)

/-- The place of the first brace behind the first `@media` of a line. -/
def braceBehindMedia? (text : String) (index : Nat) : Option Nat := do
  let line ← (Text.toLines text)[index]?
  let ahead ← firstPlace? mediaWord line.toList
  braceFrom? text.toList (lineStart (Text.toLines text) index + ahead + mediaWord.length)

/-- A word that starts at a place ends with the characters. -/
theorem add_length_le_of_firstPlace? {word cs : List Char} {ahead : Nat}
    (found : firstPlace? word cs = some ahead) : ahead + word.length ≤ cs.length := by
  obtain ⟨within, starts, _⟩ := List.findIdx?_eq_some_iff_getElem.1 found
  rw [List.length_tails] at within
  rw [List.getElem_tails, List.isPrefixOf_iff_prefix] at starts
  have := starts.length_le
  rw [List.length_drop] at this
  omega

theorem braceFrom?_eq_some_iff {cs : List Char} {place opening : Nat} :
    braceFrom? cs place = some opening ↔
      IsLeast {later | place ≤ later ∧ BraceAt cs later} opening := by
  rw [braceFrom?, Option.map_eq_some_iff]
  constructor
  · rintro ⟨count, found, rfl⟩
    obtain ⟨within, brace, others⟩ := List.findIdx?_eq_some_iff_getElem.1 found
    rw [List.length_drop] at within
    rw [List.getElem_drop] at brace
    refine ⟨⟨Nat.le_add_right place count, _, List.getElem?_eq_getElem (by omega), brace⟩, ?_⟩
    rintro later ⟨low, c, there, brace'⟩
    by_contra before
    refine others (later - place) (by omega) ?_
    obtain ⟨_, rfl⟩ := List.getElem?_eq_some_iff.1 there
    simpa only [List.getElem_drop, Nat.add_sub_cancel' low] using brace'
  · rintro ⟨⟨low, c, there, brace⟩, least⟩
    obtain ⟨within, rfl⟩ := List.getElem?_eq_some_iff.1 there
    refine ⟨opening - place, List.findIdx?_eq_some_iff_getElem.2 ⟨?_, ?_, ?_⟩, by omega⟩
    · rw [List.length_drop]
      omega
    · simpa only [List.getElem_drop, Nat.add_sub_cancel' low] using brace
    · intro count before brace'
      rw [List.getElem_drop] at brace'
      have := least ⟨Nat.le_add_right place count, _, List.getElem?_eq_getElem (by omega), brace'⟩
      omega

/-- Where the first brace from an earlier place is another one, it stands before the later place. -/
theorem exists_earlier_brace {cs : List Char} {start place opening : Nat} (ordered : start ≤ place)
    (found : IsLeast {later | place ≤ later ∧ BraceAt cs later} opening)
    (other : braceFrom? cs start ≠ some opening) :
    ∃ early, start ≤ early ∧ early < place ∧ BraceAt cs early := by
  by_contra free
  refine other (braceFrom?_eq_some_iff.2 ⟨⟨ordered.trans found.1.1, found.1.2⟩, ?_⟩)
  rintro later ⟨low, brace⟩
  by_cases ahead : later < place
  · exact absurd ⟨later, low, ahead, brace⟩ free
  · exact found.2 ⟨Nat.le_of_not_lt ahead, brace⟩

section OfText

variable {text : String} {first index opening closing : Nat}

/-- The body of the rule at a line is opened behind the start of a word in that line. -/
theorem isLeast_of_braceBehindMedia? (found : braceBehindMedia? text index = some opening) :
    ∃ place, lineStart (Text.toLines text) index ≤ place ∧
      place ≤ lineEnd (Text.toLines text) index ∧
      IsLeast {later | place ≤ later ∧ BraceAt text.toList later} opening := by
  simp only [braceBehindMedia?, Option.bind_eq_bind, Option.bind_eq_some_iff] at found
  obtain ⟨line, there, ahead, word, brace⟩ := found
  have within := add_length_le_of_firstPlace? word
  have stop := lineEnd_eq there
  exact ⟨_, by omega, by omega, braceFrom?_eq_some_iff.1 brace⟩

/-! ## Lines on the way to the body and through it -/

/-- A block is not over on the way to its first brace. -/
theorem not_overAt_of_plain (ordered : first ≤ index) (within : index < (Text.toLines text).length)
    (plain : ∀ place, lineStart (Text.toLines text) first ≤ place →
      place < lineEnd (Text.toLines text) index → ¬ BraceAt text.toList place) :
    ¬ OverAt (Text.toLines text) first index := by
  have level : depthAt (Text.toLines text) (index + 1) = depthAt (Text.toLines text) first := by
    rw [← depthBefore_lineEnd within, ← depthBefore_lineStart (by omega)]
    exact depthBefore_eq_of_plain
      ((lineStart_mono _ ordered).trans (lineStart_le_lineEnd within)) plain
  rintro ⟨_, _, below | ⟨⟨other, line, low, high, there, opens⟩, _⟩⟩
  · omega
  · obtain ⟨place, behind, before, found⟩ := exists_place_of_mem there opens
    have start := lineStart_mono (Text.toLines text) low
    have stop := lineEnd_mono (Text.toLines text) (Nat.le_of_lt_succ high)
    exact plain place (by omega) (by omega) ⟨openBrace, found, rfl⟩

/-- Inside a body the depth is above the one before it. -/
theorem Matching.lt_depthAt (matching : Matching text.toList opening closing)
    (within : index < (Text.toLines text).length)
    (behind : opening < lineEnd (Text.toLines text) index)
    (before : lineEnd (Text.toLines text) index ≤ closing) :
    depthBefore text.toList opening < depthAt (Text.toLines text) (index + 1) := by
  have above := (matching_iff_depthBefore.1 matching).2.2.2.2 _ behind before
  rw [depthBefore_lineEnd within] at above
  omega

/-- If no brace is opened, a brace of the first line leads out of the block at once. -/
theorem overAt_first {place : Nat} (ordered : first ≤ index)
    (within : first < (Text.toLines text).length)
    (unopened : ¬ OpensBetween (Text.toLines text) first (index + 1))
    (low : lineStart (Text.toLines text) first ≤ place)
    (high : place < lineEnd (Text.toLines text) first) (brace : BraceAt text.toList place) :
    OverAt (Text.toLines text) first first := by
  have found := List.getElem?_eq_getElem within
  obtain ⟨c, there, isBrace⟩ := brace
  have mem := mem_of_place found low high there
  have unopened : openBrace ∉ ((Text.toLines text)[first]).toList := fun opens =>
    unopened ⟨first, _, Nat.le_refl first, Nat.lt_succ_of_le ordered, found, opens⟩
  have close : c = closeBrace := by
    simp only [MediaSweep.isBrace, Bool.or_eq_true, decide_eq_true_iff] at isBrace
    exact isBrace.resolve_left fun opens => unopened (opens ▸ mem)
  have step := depthAt_succ found
  have drop := lineDelta_neg unopened (close ▸ mem)
  exact ⟨Nat.le_refl first, within, .inl (by omega)⟩

/-! ## Whole bodies -/

/-- A block whose first brace opens the body is not over before the body is. -/
theorem not_overAt_of_alone (within : first < (Text.toLines text).length)
    (matching : Matching text.toList opening closing)
    (alone : braceFrom? text.toList (lineStart (Text.toLines text) first) = some opening)
    (before : index < lineOf text.toList closing) : ¬ OverAt (Text.toLines text) first index := by
  intro ended
  obtain ⟨⟨behind, _⟩, least⟩ := braceFrom?_eq_some_iff.1 alone
  have plain : ∀ place, lineStart (Text.toLines text) first ≤ place → place < opening →
      ¬ BraceAt text.toList place := by
    intro place low high brace
    have := least ⟨low, brace⟩
    omega
  have level := depthBefore_eq_of_plain behind plain
  rw [depthBefore_lineStart within] at level
  have inside : closing ≤ text.toList.length :=
    (List.getElem?_eq_some_iff.1 matching.closes).1.le
  have stop := (lineEnd_lt_iff ended.2.1 inside).2 before
  by_cases reached : opening < lineEnd (Text.toLines text) index
  · have above := matching.lt_depthAt ended.2.1 reached stop.le
    have back := depthAt_le_of_overAt ended
    omega
  · exact not_overAt_of_plain ended.1 ended.2.1
      (fun place low high => plain place low (by omega)) ended

/-- If another brace of the first line stands before the body, a block goes on only where the depth
is above its own. -/
theorem lt_depthAt_of_crowded {place : Nat} (within : first < (Text.toLines text).length)
    (low : lineStart (Text.toLines text) first ≤ place)
    (high : place ≤ lineEnd (Text.toLines text) first)
    (body : IsLeast {later | place ≤ later ∧ BraceAt text.toList later} opening)
    (crowded : braceFrom? text.toList (lineStart (Text.toLines text) first) ≠ some opening)
    (ordered : first ≤ index) (short : index < (Text.toLines text).length)
    (running : ∀ earlier ≤ index, ¬ OverAt (Text.toLines text) first earlier) :
    depthAt (Text.toLines text) first < depthAt (Text.toLines text) (index + 1) := by
  obtain ⟨early, start, ahead, brace⟩ := exists_earlier_brace low body crowded
  by_contra level
  -- the depth is back after this line and the block goes on, so no brace was opened up to here
  have unopened : ¬ OpensBetween (Text.toLines text) first (index + 1) := fun opened =>
    running index (Nat.le_refl index) ⟨ordered, short, .inr ⟨opened, by omega⟩⟩
  exact running first ordered (overAt_first ordered within unopened start (by omega) brace)

/-- **Where the body of a rule ends.**  In a balanced text the brace that opens the body behind the
`@media` of a block is matched by one closing brace.  The closing brace stands in the block exactly
when the opening one is the first brace of the first line, or the depth is above the one of the
block after every line before the closing brace. -/
theorem covers_closing_iff {b : MediaBlock} (balanced : Balanced text.toList)
    (mem : b ∈ mediaBlocks (Text.toLines text))
    (body : braceBehindMedia? text b.span.first = some opening)
    (opens : text.toList[opening]? = some openBrace) :
    ∃ closing, Matching text.toList opening closing ∧
      (∀ other, Matching text.toList opening other → other = closing) ∧
      (b.span.covers (lineOf text.toList closing) = true ↔
        braceFrom? text.toList (lineStart (Text.toLines text) b.span.first) = some opening ∨
          ∀ index, b.span.first ≤ index → index < lineOf text.toList closing →
            b.depth < depthAt (Text.toLines text) (index + 1)) := by
  obtain ⟨closing, matching⟩ := balanced.exists_matching opens
  refine ⟨closing, matching, fun other matching' => matching.unique matching', ?_⟩
  have block := isBlock_of_mem_mediaBlocks mem
  have start := block.first_lt_length
  obtain ⟨place, low, high, body⟩ := isLeast_of_braceBehindMedia? body
  have within := lineOf_lt_length (List.getElem?_eq_some_iff.1 matching.closes).1.le
  have from_first : b.span.first ≤ lineOf text.toList closing := by
    have behind := body.1.1
    have ordered := matching.ordered
    rw [← lineOf_lineStart start]
    exact lineOf_mono _ (by omega)
  rw [block.covers_iff_running within, block.depth_eq]
  constructor
  · rintro ⟨_, running⟩
    by_cases alone :
        braceFrom? text.toList (lineStart (Text.toLines text) b.span.first) = some opening
    · exact .inl alone
    · refine .inr fun index ordered before => ?_
      exact lt_depthAt_of_crowded start low high body alone ordered (by omega)
        fun earlier upto => running earlier (by omega)
  · rintro (alone | above)
    · exact ⟨from_first, fun index before => not_overAt_of_alone start matching alone before⟩
    · refine ⟨from_first, fun index before ended => ?_⟩
      have high := above index ended.1 before
      have back := depthAt_le_of_overAt ended
      omega

end OfText

/-- A balanced text in which another rule stands before the block on its first line. -/
def sharedText : String :=
  "a \x7b\n.b \x7b\x7d @media print \x7b\n.c \x7b\x7d\n\x7d\n\x7d"

/-- Its block. -/
def sharedBlock : MediaBlock :=
  ⟨Span.between 1 3, ".b \x7b\x7d @media print \x7b", 1, true⟩

theorem covers_closing_sharedBlock :
    Balanced sharedText.toList ∧ sharedBlock ∈ mediaBlocks (Text.toLines sharedText) ∧
    braceBehindMedia? sharedText sharedBlock.span.first = some 23 ∧
    sharedText.toList[23]? = some openBrace ∧ Matching sharedText.toList 23 31 ∧
    sharedBlock.span.covers (lineOf sharedText.toList 31) = true := by
  have balanced : Balanced sharedText.toList := by decide +kernel
  have mem : sharedBlock ∈ mediaBlocks (Text.toLines sharedText) := by decide +kernel
  have body : braceBehindMedia? sharedText sharedBlock.span.first = some 23 := by decide +kernel
  have opens : sharedText.toList[23]? = some openBrace := by decide +kernel
  have closes : Matching sharedText.toList 23 31 :=
    ⟨opens, by decide +kernel, by decide, by decide +kernel⟩
  obtain ⟨closing, _, unique, covers⟩ := covers_closing_iff balanced mem body opens
  obtain rfl := unique 31 closes
  refine ⟨balanced, mem, body, opens, closes, covers.2 (.inr fun index low high => ?_)⟩
  have line : lineOf sharedText.toList 31 = 3 := by decide +kernel
  have start : sharedBlock.span.first = 1 := rfl
  rcases (show index = 1 ∨ index = 2 by omega) with rfl | rfl <;> decide +kernel

/-- A balanced text in which the enclosing rule is closed on the first line of a block. -/
def crowdedText : String :=
  "a \x7b\n\x7d @media print \x7b\n.b \x7b\x7d\n\x7d"

/-- Its block is over on the line where it starts. -/
def crowdedBlock : MediaBlock :=
  ⟨Span.between 1 1, "\x7d @media print \x7b", 1, true⟩

/-- The body of this block stands behind it and stays in the sheet. -/
theorem not_covers_closing_crowdedBlock :
    Balanced crowdedText.toList ∧ crowdedBlock ∈ mediaBlocks (Text.toLines crowdedText) ∧
    braceBehindMedia? crowdedText crowdedBlock.span.first = some 19 ∧
    crowdedText.toList[19]? = some openBrace ∧ Matching crowdedText.toList 19 27 ∧
    crowdedBlock.span.covers (lineOf crowdedText.toList 27) = false ∧
    (stripMedia (Text.toLines crowdedText)).kept = ["a \x7b", ".b \x7b\x7d", "\x7d"] :=
  ⟨by decide +kernel, by decide +kernel, by decide +kernel, by decide +kernel,
    ⟨by decide +kernel, by decide +kernel, by decide, by decide +kernel⟩,
    by decide +kernel, by decide +kernel⟩

end MediaSweep
