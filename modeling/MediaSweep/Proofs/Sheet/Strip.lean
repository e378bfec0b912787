import MediaSweep.Proofs.Sheet.Blocks
import MediaSweep.Proofs.Sheet.LineSet
import MediaSweep.Sheet.Strip

/-!
# What taking blocks out leaves

Both ways to take blocks out mark lines first and remove them in one step.  Here what they leave is
said by the spans alone: the lines that no located span covers (`kept_stripAt`), and the lines that
stand in no block (`kept_stripMedia`).  The blocks of a sheet stand apart, so the second kind of
removal also takes the blocks out one after the other (`kept_stripMedia_eq_keepFrom`).

A request comes out in one of three ways, and each list of the report holds the requests that came
out in its way.
-/

namespace MediaSweep

set_option autoImplicit false

/-! ## Requests -/

theorem located_stripAt (requests : List Nat) (lines : List String) :
    (stripAt requests lines).located = requests.filterMap fun lineNumber =>
      (lookUp lines lineNumber).block? := by
  simp only [stripAt, List.filterMap_map]
  rfl

theorem skipped_stripAt (requests : List Nat) (lines : List String) :
    (stripAt requests lines).skipped =
      requests.filter fun lineNumber => lookUp lines lineNumber = .outOfRange := by
  simp only [stripAt, List.filter_map, List.map_map]
  exact List.map_id _

theorem unmatched_stripAt (requests : List Nat) (lines : List String) :
    (stripAt requests lines).unmatched =
      requests.filter fun lineNumber => lookUp lines lineNumber = .unmatched := by
  simp only [stripAt, List.filter_map, List.map_map]
  exact List.map_id _

/-- The lines that stay are those that no located span covers. -/
theorem kept_stripAt (requests : List Nat) (lines : List String) :
    (stripAt requests lines).kept = keepUnless
      (fun index => (stripAt requests lines).located.any (·.span.covers index)) 0 lines := by
  rw [stripAt, LineSet.remove_eq_keepUnless]
  simp only [funext (LineSet.contains_ofSpans _), List.any_map]
  rfl

/-! ## Every block -/

/-- The lines that stay are those that stand in no block. -/
theorem kept_stripMedia (lines : List String) :
    (stripMedia lines).kept =
      keepUnless (fun index => (mediaBlocks lines).any (·.span.covers index)) 0 lines := by
  rw [stripMedia, LineSet.remove_eq_keepUnless]
  simp only [funext (LineSet.contains_ofSpans _), List.any_map]
  rfl

/-- The blocks go one after the other, from the first to the last. -/
theorem kept_stripMedia_eq_keepFrom (lines : List String) :
    (stripMedia lines).kept =
      LineSet.keepFrom 0 ((mediaBlocks lines).map MediaBlock.span) lines := by
  have ordered := List.pairwise_map.2 (blocksFrom_mediaBlocks lines).ordered
  rw [kept_stripMedia, LineSet.keepFrom_eq_keepUnless ordered fun _ _ => Nat.zero_le _]
  simp only [List.any_map]
  rfl

/-- No line that stays has `@media` in it. -/
theorem plain_of_mem_kept_stripMedia {lines : List String} {line : String}
    (mem : line ∈ (stripMedia lines).kept) : isMediaLine line = false := by
  rw [kept_stripMedia] at mem
  obtain ⟨index, found, free⟩ := exists_free_of_mem_keepUnless mem
  rw [Nat.zero_add] at free
  rw [← Bool.not_eq_true]
  intro media
  obtain ⟨b, inBlocks, covers⟩ := (blocksFrom_mediaBlocks lines).covering index (Nat.zero_le _)
    ⟨line, found, media⟩
  exact List.any_eq_false.1 free b inBlocks covers

/-- A block is removed exactly when some line has `@media` in it. -/
theorem removed_stripMedia_eq_nil_iff (lines : List String) :
    (stripMedia lines).removed = [] ↔ ¬ ∃ line ∈ lines, isMediaLine line = true := by
  have found := blocksFrom_mediaBlocks lines
  constructor
  · rintro nothing ⟨line, mem, media⟩
    obtain ⟨index, there⟩ := List.mem_iff_getElem?.1 mem
    obtain ⟨b, inBlocks, _⟩ := found.covering index (Nat.zero_le _) ⟨line, there, media⟩
    rw [show mediaBlocks lines = [] from nothing] at inBlocks
    exact absurd inBlocks List.not_mem_nil
  · intro plain
    refine List.eq_nil_iff_forall_not_mem.2 fun b mem => plain ?_
    obtain ⟨line, there, media⟩ := (found.each b mem).mediaAt
    exact ⟨line, List.mem_of_getElem? there, media⟩

end MediaSweep
