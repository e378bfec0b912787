import MediaSweep.Proofs.Sheet.BlockEnd
import MediaSweep.Proofs.Sheet.Places
import MediaSweep.Proofs.Sheet.Strip

/-!
# Balance without the blocks

Taking the media blocks out of a balanced text takes out whole lines.  A block never ends above its
own depth, so what is left never closes more braces than it opens; but a block whose last line
closes the enclosing rule as well takes that closing brace along.  What is left is balanced exactly
when every block comes back to its own depth (`balanced_kept_iff`).

The closing brace of an enclosing rule stands in the lines of a block exactly when the depth falls
below the one of the block somewhere in these lines.  That can happen in a block that comes back to
its own depth, too, when a rule is opened behind the closing braces on its last line.
-/

namespace MediaSweep

set_option autoImplicit false

variable {lines : List String} {b : MediaBlock}

/-! ## Depths that stay above the ground -/

/-- From a place of a given depth on, no part of some characters leads below the ground. -/
def NonnegFrom (depth : Int) (cs : List Char) : Prop :=
  ∀ start, start <+: cs → 0 ≤ depth + (BraceTally.ofChars start).delta

variable {depth depth' : Int} {xs ys : List Char}

theorem NonnegFrom.mono (nonneg : NonnegFrom depth xs) (higher : depth ≤ depth') :
    NonnegFrom depth' xs := by
  intro start ahead
  have := nonneg start ahead
  omega

theorem NonnegFrom.append (front : NonnegFrom depth xs)
    (back : NonnegFrom (depth + (BraceTally.ofChars xs).delta) ys) :
    NonnegFrom depth (xs ++ ys) := by
  intro start ahead
  rcases List.prefix_or_prefix_of_prefix ahead (List.prefix_append xs ys) with inFront | behind
  · exact front start inFront
  · obtain ⟨rest, rfl⟩ := behind
    rw [BraceTally.delta_ofChars_append, ← Int.add_assoc]
    exact back rest ((List.prefix_append_right_inj xs).1 ahead)

theorem NonnegFrom.left (nonneg : NonnegFrom depth (xs ++ ys)) : NonnegFrom depth xs :=
  fun start ahead => nonneg start (ahead.trans (List.prefix_append xs ys))

theorem NonnegFrom.right (nonneg : NonnegFrom depth (xs ++ ys)) :
    NonnegFrom (depth + (BraceTally.ofChars xs).delta) ys := by
  intro start ahead
  rw [Int.add_assoc, ← BraceTally.delta_ofChars_append]
  exact nonneg (xs ++ start) ((List.prefix_append_right_inj xs).2 ahead)

theorem balanced_iff_nonnegFrom :
    Balanced xs ↔ NonnegFrom 0 xs ∧ (BraceTally.ofChars xs).delta = 0 := by
  simp only [balanced_iff_delta, NonnegFrom, Int.zero_add]

/-- A newline behind a text does not change its balance. -/
theorem balanced_concat_newline : Balanced (xs ++ ['\n']) ↔ Balanced xs := by
  have plain : (BraceTally.ofChars ['\n']).delta = 0 := by decide
  rw [balanced_iff_nonnegFrom, balanced_iff_nonnegFrom, BraceTally.delta_ofChars_append, plain,
    Int.add_zero]
  refine and_congr_left fun total => ⟨NonnegFrom.left, fun nonneg => nonneg.append ?_⟩
  intro start ahead
  rcases List.prefix_concat_iff.1 (show start <+: [] ++ ['\n'] from ahead) with rfl | nothing
  · rw [total, List.nil_append, plain]
    decide
  · rw [List.prefix_nil.1 nothing, total]
    decide

/-- The text of some lines is balanced when no line leads below the ground and all together change
nothing. -/
theorem balanced_ofLines_iff (lines : List String) :
    Balanced (Text.ofLines lines).toList ↔
      NonnegFrom 0 (withNewlines lines) ∧ depthAfter lines = 0 := by
  rw [← delta_withNewlines, ← balanced_iff_nonnegFrom]
  cases lines with
  | nil => rfl
  | cons line rest => rw [withNewlines_eq (List.cons_ne_nil line rest), balanced_concat_newline]

/-! ## Depths of the lines that stay -/

/-- Some lines in a row change the depth by the difference of the depths at their two ends. -/
theorem depthAfter_slice (lines : List String) (index count : Nat) :
    depthAfter ((lines.drop index).take count) =
      depthAt lines (index + count) - depthAt lines index := by
  rw [depthAt, depthAt, List.take_add, depthAfter_append]
  omega

/-- From a line on, a sheet is made of the lines up to a span, its own lines and those behind it. -/
theorem drop_eq_around_span (lines : List String) {start : Nat} {s : Span}
    (ordered : start ≤ s.first) :
    lines.drop start = (lines.drop start).take (s.first - start) ++
      ((lines.drop s.first).take s.size ++ lines.drop (s.last + 1)) := by
  have high := s.first_le_last
  have first : start + (s.first - start) = s.first := by omega
  have last : s.first + s.size = s.last + 1 := by
    rw [Span.size]
    omega
  have front := List.take_append_drop (s.first - start) (lines.drop start)
  have block := List.take_append_drop s.size (lines.drop s.first)
  rw [List.drop_drop, first] at front
  rw [List.drop_drop, last] at block
  rw [block, front]

/-- What is left from a line on, when a span and later ones are taken out. -/
theorem keepFrom_drop_cons (lines : List String) {start : Nat} {s : Span} (rest : List Span)
    (ordered : start ≤ s.first) :
    LineSet.keepFrom start (s :: rest) (lines.drop start) =
      (lines.drop start).take (s.first - start) ++
        LineSet.keepFrom (s.last + 1) rest (lines.drop (s.last + 1)) := by
  have high := s.first_le_last
  have behind : start + (s.last + 1 - start) = s.last + 1 := by omega
  rw [LineSet.keepFrom, List.drop_drop, behind]

/-- The depth that the lines of a block add. -/
theorem IsBlock.depthAfter_body (block : IsBlock lines b) :
    depthAfter ((lines.drop b.span.first).take b.span.size) =
      depthAt lines (b.span.last + 1) - b.depth := by
  have high := b.span.first_le_last
  have last : b.span.first + b.span.size = b.span.last + 1 := by
    rw [Span.size]
    omega
  rw [depthAfter_slice, last, block.depth_eq]

namespace BlocksFrom

variable {start : Nat} {blocks : List MediaBlock}

/-- **Without blocks that do not rise the depth stays above the ground.** -/
theorem nonnegFrom_kept (found : BlocksFrom lines start blocks)
    (no_rise : ∀ b ∈ blocks, depthAt lines (b.span.last + 1) ≤ b.depth)
    (nonneg : NonnegFrom depth (withNewlines (lines.drop start))) :
    NonnegFrom depth
      (withNewlines (LineSet.keepFrom start (blocks.map MediaBlock.span) (lines.drop start))) := by
  induction blocks generalizing start depth with
  | nil => exact nonneg
  | cons b rest ih =>
    obtain ⟨falls, others⟩ := List.forall_mem_cons.1 no_rise
    have ordered := found.from_start b List.mem_cons_self
    have body := (found.each b List.mem_cons_self).depthAfter_body
    rw [drop_eq_around_span lines ordered, withNewlines_append, withNewlines_append] at nonneg
    have behind := nonneg.right.right
    rw [delta_withNewlines, delta_withNewlines, body] at behind
    rw [List.map_cons, keepFrom_drop_cons lines _ ordered, withNewlines_append]
    refine nonneg.left.append ?_
    rw [delta_withNewlines]
    exact ih found.tail others (behind.mono (by omega))

/-- **Without blocks that do not rise the depth ends at least as high as with them**, and as high
only when every block comes back to its own depth. -/
theorem depthAfter_kept (found : BlocksFrom lines start blocks)
    (no_rise : ∀ b ∈ blocks, depthAt lines (b.span.last + 1) ≤ b.depth) :
    depthAfter (lines.drop start) ≤
        depthAfter (LineSet.keepFrom start (blocks.map MediaBlock.span) (lines.drop start)) ∧
      (depthAfter (LineSet.keepFrom start (blocks.map MediaBlock.span) (lines.drop start)) =
          depthAfter (lines.drop start) ↔
        ∀ b ∈ blocks, depthAt lines (b.span.last + 1) = b.depth) := by
  induction blocks generalizing start with
  | nil => simp [LineSet.keepFrom]
  | cons b rest ih =>
    obtain ⟨falls, others⟩ := List.forall_mem_cons.1 no_rise
    have ordered := found.from_start b List.mem_cons_self
    have body := (found.each b List.mem_cons_self).depthAfter_body
    obtain ⟨low, same⟩ := ih found.tail others
    have whole := congrArg depthAfter (drop_eq_around_span lines ordered)
    rw [depthAfter_append, depthAfter_append, body] at whole
    rw [List.map_cons, keepFrom_drop_cons lines _ ordered, depthAfter_append, whole,
      List.forall_mem_cons, ← same]
    omega

end BlocksFrom

/-- In a balanced text no block ends above its own depth. -/
theorem IsBlock.no_rise {text : String} (balanced : Balanced text.toList)
    (block : IsBlock (Text.toLines text) b) :
    depthAt (Text.toLines text) (b.span.last + 1) ≤ b.depth := by
  cases closed : b.closed with
  | true => exact block.depthAt_last_le closed
  | false =>
    have ground := balanced.depthBefore_length
    have last := (block.open_ends closed).2
    rw [← lineEnd_last last, depthBefore_lineEnd block.last_lt_length] at ground
    rw [ground, block.depth_eq]
    exact balanced.depthAt_nonneg block.first_lt_length.le

/-- **The lines that no block covers are balanced exactly when every block comes back to its own
depth.** -/
theorem balanced_kept_iff {text : String} (balanced : Balanced text.toList) :
    Balanced (Text.ofLines (stripMedia (Text.toLines text)).kept).toList ↔
      ∀ b ∈ mediaBlocks (Text.toLines text),
        depthAt (Text.toLines text) (b.span.last + 1) = b.depth := by
  have found := blocksFrom_mediaBlocks (Text.toLines text)
  have no_rise : ∀ b ∈ mediaBlocks (Text.toLines text),
      depthAt (Text.toLines text) (b.span.last + 1) ≤ b.depth :=
    fun b mem => (found.each b mem).no_rise balanced
  have whole := (balanced_ofLines_iff (Text.toLines text)).1
    (by rwa [Text.ofLines_toLines])
  have same := (found.depthAfter_kept no_rise).2
  rw [List.drop_zero, whole.2] at same
  rw [balanced_ofLines_iff, kept_stripMedia_eq_keepFrom, ← same]
  exact and_iff_right (found.nonnegFrom_kept no_rise whole.1)

/-! ## Braces of enclosing rules -/

/-- The lines of a block hold the closing brace of a rule that was opened on an earlier line. -/
def TakesBrace (text : String) (b : MediaBlock) : Prop :=
  ∃ opening closing, Matching text.toList opening closing ∧
    lineOf text.toList opening < b.span.first ∧ b.span.covers (lineOf text.toList closing) = true

/-- The depth is below the one of a block somewhere in its lines. -/
def DipsIn (text : String) (b : MediaBlock) : Prop :=
  ∃ place, place ≤ text.toList.length ∧ b.span.covers (lineOf text.toList place) = true ∧
    depthBefore text.toList place < b.depth

/-- Only the places of the text have to be looked at. -/
instance (text : String) (b : MediaBlock) : Decidable (DipsIn text b) :=
  inferInstanceAs (Decidable (∃ place, place ≤ text.toList.length ∧ _))

/-- **A block takes a brace of an enclosing rule along exactly when the depth falls below its own
inside it.** -/
theorem takesBrace_iff_dipsIn {text : String} (balanced : Balanced text.toList)
    (block : IsBlock (Text.toLines text) b) : TakesBrace text b ↔ DipsIn text b := by
  have within := block.first_lt_length
  have start : b.depth =
      depthBefore text.toList (lineStart (Text.toLines text) b.span.first) := by
    rw [block.depth_eq, depthBefore_lineStart within]
  constructor
  · rintro ⟨opening, closing, matching, outside, inside⟩
    have short := (List.getElem?_eq_some_iff.1 matching.closes).1
    have same := lineOf_succ_of_ne matching.closes (by decide)
    have before := mt (lineStart_le_iff within (by have := matching.ordered; omega)).1
      (Nat.not_le_of_lt outside)
    have behind := (lineStart_le_iff within short.le).2 (Span.covers_iff.1 inside).1
    refine ⟨closing + 1, short, by rwa [same], ?_⟩
    rw [start]
    exact matching.depthBefore_closing_lt (Nat.lt_of_not_le before) behind
  · rintro ⟨place, short, inside, dip⟩
    obtain ⟨low, high⟩ := Span.covers_iff.1 inside
    rw [start] at dip
    obtain ⟨opening, closing, matching, before, behind, earlier⟩ :=
      exists_matching_of_dip (balanced.depthBefore_nonneg place)
        ((lineStart_le_iff within short).2 low) dip
    have outside := mt (lineStart_le_iff within (by omega)).2 (Nat.not_le_of_lt before)
    refine ⟨opening, closing, matching, Nat.lt_of_not_le outside, Span.covers_iff.2 ⟨?_, ?_⟩⟩
    · exact (lineStart_le_iff within (by omega)).1 behind
    · exact (lineOf_mono text.toList earlier.le).trans high

/-- A block whose depth never falls below its own comes back to it. -/
theorem IsBlock.level_of_not_dipsIn {text : String} (balanced : Balanced text.toList)
    (block : IsBlock (Text.toLines text) b) (no_dip : ¬ DipsIn text b) :
    depthAt (Text.toLines text) (b.span.last + 1) = b.depth := by
  refine Int.le_antisymm (block.no_rise balanced) ?_
  by_contra below
  have within := block.last_lt_length
  refine no_dip ⟨lineEnd (Text.toLines text) b.span.last, lineEnd_le_length within, ?_, ?_⟩
  · rw [lineOf_lineEnd within, Span.covers_iff]
    exact ⟨b.span.first_le_last, Nat.le_refl _⟩
  · rw [depthBefore_lineEnd within]
    omega

/-- **What taking out every block does to a balanced text.**  The text that is left is balanced
exactly when every block comes back to its own depth.  A block takes a brace of an enclosing rule
along exactly when the depth falls below its own inside it; if no block does, the text that is left
is balanced. -/
theorem balance_stripMedia {text : String} (balanced : Balanced text.toList) :
    let lines := Text.toLines text
    let result := stripMedia lines
    (Balanced (Text.ofLines result.kept).toList ↔
      ∀ b ∈ result.removed, depthAt lines (b.span.last + 1) = b.depth) ∧
    (∀ b ∈ result.removed, (TakesBrace text b ↔ DipsIn text b)) ∧
    ((∀ b ∈ result.removed, ¬ TakesBrace text b) →
      Balanced (Text.ofLines result.kept).toList) := by
  intro lines result
  have each : ∀ b ∈ result.removed, IsBlock lines b := fun _ => isBlock_of_mem_mediaBlocks
  have kept := balanced_kept_iff balanced
  have takes : ∀ b ∈ result.removed, (TakesBrace text b ↔ DipsIn text b) :=
    fun b mem => takesBrace_iff_dipsIn balanced (each b mem)
  refine ⟨kept, takes, fun no_brace => kept.2 fun b mem => ?_⟩
  exact (each b mem).level_of_not_dipsIn balanced (mt (takes b mem).2 (no_brace b mem))

/-- A balanced text with a block in another rule, each brace on a line of its own. -/
def supportsText : String :=
  "@supports x \x7b\n.a \x7b\x7d\n@media y \x7b\n.b \x7b\x7d\n\x7d\n\x7d\n.c \x7b\x7d"

/-- The block of this text goes without the brace behind it. -/
theorem balance_stripMedia_supportsText :
    let result := stripMedia (Text.toLines supportsText)
    Balanced supportsText.toList ∧ result.removed.map (·.span) = [Span.between 2 4] ∧
    (∀ b ∈ result.removed, depthAt (Text.toLines supportsText) (b.span.last + 1) = b.depth) ∧
    (∀ b ∈ result.removed, ¬ TakesBrace supportsText b) ∧
    Balanced (Text.ofLines result.kept).toList := by
  intro result
  have balanced : Balanced supportsText.toList := by decide +kernel
  have blocks : result.removed.map (·.span) = [Span.between 2 4] := by decide +kernel
  have level : ∀ b ∈ result.removed,
      depthAt (Text.toLines supportsText) (b.span.last + 1) = b.depth := by decide +kernel
  have no_dip : ∀ b ∈ result.removed, ¬ DipsIn supportsText b := by decide +kernel
  obtain ⟨kept, takes, _⟩ := balance_stripMedia balanced
  exact ⟨balanced, blocks, level, fun b mem => mt (takes b mem).1 (no_dip b mem), kept.2 level⟩

/-- A balanced text in which one line closes a block and the rule around it. -/
def tightText : String :=
  "a \x7b\n@media print \x7b\n.b \x7b\x7d\n\x7d\x7d"

/-- Without its block this text is not balanced: the brace of the rule is gone. -/
theorem not_balanced_tightText :
    Balanced tightText.toList ∧
    (stripMedia (Text.toLines tightText)).removed.map (·.span) = [Span.between 1 3] ∧
    (stripMedia (Text.toLines tightText)).kept = ["a \x7b"] ∧
    ¬ Balanced (Text.ofLines (stripMedia (Text.toLines tightText)).kept).toList := by
  decide +kernel

end MediaSweep
