import Mathlib.Algebra.BigOperators.Group.List.Basic
import Mathlib.Algebra.Ring.Int.Defs
import MediaSweep.Proofs.Sheet.Balance
import MediaSweep.Proofs.Sheet.InTurn

/-!
# How deep the kept lines are

Taking out blocks brings the lines behind them up, and it can change how deep these lines stand.  A
block that comes back to its own depth leaves no trace.  A block that ends below its own depth takes
closing braces along that belong to the rules around it, so behind it the sheet stays deeper by as
much as the block fell (`MediaBlock.fall`).  A kept line is therefore deeper than it was by the
falls of the blocks above it, and by nothing else (`depthAt_kept_stripMedia`).

No closed block ends above its own depth, and a block that is left open has no line behind it.  So
no fall above a kept line is negative, whatever the depths of the sheet are.
-/

namespace MediaSweep

set_option autoImplicit false

variable {lines : List String} {index place : Nat}

/-! ## Where the kept lines were -/

/-- The indices that the lines outside all blocks have in the sheet, from top to bottom. -/
def keptIndices (lines : List String) : List Nat :=
  (List.range lines.length).filter fun index => !(mediaBlocks lines).any (·.span.covers index)

theorem keptIndices_eq_keepUnless (lines : List String) :
    keptIndices lines =
      keepUnless (fun index => (mediaBlocks lines).any (·.span.covers index)) 0
        (List.range' 0 lines.length) := by
  rw [keepUnless_range', keptIndices, List.range_eq_range']

/-- **The kept lines are the lines of the kept indices.** -/
theorem map_keptIndices (lines : List String) :
    (keptIndices lines).map (lines[·]?) = (stripMedia lines).kept.map some := by
  have each : (List.range' 0 lines.length).map (lines[·]?) = lines.map some := by
    rw [← List.range_eq_range']
    refine List.ext_getElem (by simp) fun index low high => ?_
    simp
  rw [keptIndices_eq_keepUnless, map_keepUnless, each, ← map_keepUnless, kept_stripMedia]

/-! ## Depths without some spans -/

/-- **Without some spans the depth changes as it does with them, but for what they add.** -/
theorem depthAfter_keepFrom {start : Nat} {spans : List Span}
    (ordered : spans.Pairwise Span.Before) (ahead : ∀ s ∈ spans, start ≤ s.first) :
    depthAfter (LineSet.keepFrom start spans (lines.drop start)) =
      depthAfter (lines.drop start) +
        (spans.map fun s => depthAt lines s.first - depthAt lines (s.last + 1)).sum := by
  induction spans generalizing start with
  | nil => simp [LineSet.keepFrom]
  | cons s rest ih =>
    obtain ⟨apart, ordered⟩ := List.pairwise_cons.1 ordered
    have low := ahead s List.mem_cons_self
    have high := s.first_le_last
    have last : s.first + s.size = s.last + 1 := by
      rw [Span.size]
      omega
    have whole := congrArg depthAfter (drop_eq_around_span lines low)
    rw [depthAfter_append, depthAfter_append, depthAfter_slice lines s.first, last] at whole
    rw [keepFrom_drop_cons lines rest low, depthAfter_append, @ih (s.last + 1) ordered apart, whole,
      List.map_cons, List.sum_cons]
    omega

/-! ## Blocks above a line -/

/-- How far a block ends below its own depth. -/
def MediaBlock.fall (lines : List String) (b : MediaBlock) : Int :=
  b.depth - depthAt lines (b.span.last + 1)

/-- The blocks that end above the line of an index. -/
def blocksAbove (lines : List String) (index : Nat) : List MediaBlock :=
  (mediaBlocks lines).filter (·.span.last < index)

theorem mem_blocksAbove {b : MediaBlock} :
    b ∈ blocksAbove lines index ↔ b ∈ mediaBlocks lines ∧ b.span.last < index := by
  rw [blocksAbove, List.mem_filter, decide_eq_true_iff]

theorem ordered_blocksAbove (lines : List String) (index : Nat) :
    ((blocksAbove lines index).map (·.span)).Pairwise Span.Before :=
  List.pairwise_map.2 ((blocksFrom_mediaBlocks lines).ordered.filter _)

/-- A block that has a line of the sheet behind it is closed, and it does not end above its own
depth. -/
theorem closed_of_mem_blocksAbove {b : MediaBlock} (above : b ∈ blocksAbove lines index)
    (within : index < lines.length) : b.closed = true ∧ 0 ≤ b.fall lines := by
  obtain ⟨mem, before⟩ := mem_blocksAbove.1 above
  have block := isBlock_of_mem_mediaBlocks mem
  cases closed : b.closed with
  | false =>
    have := (block.open_ends closed).2
    omega
  | true =>
    have := block.depthAt_last_le closed
    exact ⟨rfl, by rw [MediaBlock.fall]; omega⟩

/-- Of the lines above a kept one, those go that stand in the blocks above it. -/
theorem keepUnless_take_eq_keepFrom
    (free : (mediaBlocks lines).any (·.span.covers index) = false) :
    keepUnless (fun place => (mediaBlocks lines).any (·.span.covers place)) 0 (lines.take index) =
      LineSet.keepFrom 0 ((blocksAbove lines index).map (·.span)) (lines.take index) := by
  rw [LineSet.keepFrom_eq_keepUnless (ordered_blocksAbove lines index) fun _ _ => Nat.zero_le _]
  refine keepUnless_congr fun place _ short => ?_
  rw [List.length_take] at short
  rw [List.any_map, Bool.eq_iff_iff, List.any_eq_true, List.any_eq_true]
  constructor
  · rintro ⟨b, mem, covers⟩
    -- a block that goes on behind the kept line would cover it
    have away := List.any_eq_false.1 free b mem
    rw [Span.covers_iff] at covers away
    exact ⟨b, mem_blocksAbove.2 ⟨mem, by omega⟩, Span.covers_iff.2 covers⟩
  · rintro ⟨b, above, covers⟩
    exact ⟨b, (mem_blocksAbove.1 above).1, covers⟩

/-- **A kept line is deeper than it was by the falls of the blocks above it.** -/
theorem depthAt_kept_eq (found : (keptIndices lines)[place]? = some index) :
    depthAt (stripMedia lines).kept place =
      depthAt lines index + ((blocksAbove lines index).map (·.fall lines)).sum := by
  rw [keptIndices_eq_keepUnless] at found
  obtain ⟨_, free, above⟩ := take_keepUnless found
  have depth := @depthAfter_keepFrom (lines.take index) 0 _ (ordered_blocksAbove lines index)
    fun _ _ => Nat.zero_le _
  have same : (lines.take index).take index = lines.take index := by
    rw [List.take_take, Nat.min_self]
  have falls : ((blocksAbove lines index).map (·.span)).map (fun s =>
      depthAt (lines.take index) s.first - depthAt (lines.take index) (s.last + 1)) =
      (blocksAbove lines index).map (·.fall lines) := by
    rw [List.map_map]
    refine List.map_congr_left fun b above => ?_
    obtain ⟨mem, before⟩ := mem_blocksAbove.1 above
    have high := b.span.first_le_last
    rw [Function.comp_apply, depthAt_eq_of_take_eq same (by omega),
      depthAt_eq_of_take_eq same (by omega), MediaBlock.fall,
      (isBlock_of_mem_mediaBlocks mem).depth_eq]
  rw [List.drop_zero, falls] at depth
  rw [depthAt, kept_stripMedia, above, Nat.sub_zero, keepUnless_take_eq_keepFrom free]
  exact depth

/-- **How deep the kept lines are.**  They are the lines of the kept indices, in their order.  A
kept line is deeper than it was by the falls of the blocks above it, none of which is negative; so
it is as deep as it was when every closed block comes back to its own depth. -/
theorem depthAt_kept_stripMedia (lines : List String) :
    let result := stripMedia lines
    (keptIndices lines).map (lines[·]?) = result.kept.map some ∧
    ∀ place index, (keptIndices lines)[place]? = some index →
      depthAt result.kept place =
        depthAt lines index + ((blocksAbove lines index).map (·.fall lines)).sum ∧
      (∀ b ∈ blocksAbove lines index, 0 ≤ b.fall lines ∧
        (b.fall lines = 0 ↔ depthAt lines (b.span.last + 1) = b.depth)) ∧
      ((∀ b ∈ result.removed, b.closed = true → depthAt lines (b.span.last + 1) = b.depth) →
        depthAt result.kept place = depthAt lines index) := by
  refine ⟨map_keptIndices lines, fun place index found => ?_⟩
  have within : index < lines.length :=
    List.mem_range.1 (List.mem_filter.1 (List.mem_of_getElem? found)).1
  have deeper := depthAt_kept_eq found
  have fall_eq_zero_iff : ∀ b : MediaBlock,
      b.fall lines = 0 ↔ depthAt lines (b.span.last + 1) = b.depth := by
    intro b
    rw [MediaBlock.fall, Int.sub_eq_zero, eq_comm]
  refine ⟨deeper, fun b above => ?_, fun level => ?_⟩
  · exact ⟨(closed_of_mem_blocksAbove above within).2, fall_eq_zero_iff b⟩
  · have falls : ((blocksAbove lines index).map (·.fall lines)).sum = 0 := by
      refine List.sum_eq_zero fun fall mem => ?_
      obtain ⟨b, above, rfl⟩ := List.mem_map.1 mem
      exact (fall_eq_zero_iff b).2
        (level b (mem_blocksAbove.1 above).1 (closed_of_mem_blocksAbove above within).1)
    rw [deeper, falls, Int.add_zero]

/-- A sheet that closes a brace first, with a block that is closed and one that is not. -/
def sunkenLines : List String :=
  ["\x7d", "@media a \x7b", "\x7d", ".b \x7b", "@media c"]

/-- The last line of the one sheet stands one deeper without the block that closes the rule around
it as well; in the other sheet every kept line stays where it was. -/
theorem depthAt_kept_stripMedia_overclosedLines :
    (keptIndices overclosedLines)[1]? = some 4 ∧
    depthAt (stripMedia overclosedLines).kept 1 =
      depthAt overclosedLines 4 +
        ((blocksAbove overclosedLines 4).map (·.fall overclosedLines)).sum ∧
    (blocksAbove overclosedLines 4).map (·.fall overclosedLines) = [1] ∧
    (keptIndices sunkenLines)[1]? = some 3 ∧
    (∀ b ∈ (stripMedia sunkenLines).removed, b.closed = true →
      depthAt sunkenLines (b.span.last + 1) = b.depth) ∧
    depthAt (stripMedia sunkenLines).kept 1 = depthAt sunkenLines 3 := by
  have found : (keptIndices overclosedLines)[1]? = some 4 := by decide +kernel
  have found' : (keptIndices sunkenLines)[1]? = some 3 := by decide +kernel
  have level : ∀ b ∈ (stripMedia sunkenLines).removed, b.closed = true →
      depthAt sunkenLines (b.span.last + 1) = b.depth := by decide +kernel
  exact ⟨found, ((depthAt_kept_stripMedia overclosedLines).2 1 4 found).1, by decide +kernel,
    found', level, ((depthAt_kept_stripMedia sunkenLines).2 1 3 found').2.2 level⟩

end MediaSweep
