import MediaSweep.Proofs.Sheet.Outcomes

/-!
# Requests as a set

Requests for blocks come as a list, and the report tells of each of them in its place.  What is
taken out of the sheet does not depend on that order, nor on how often a line is asked for: the
lines of a request are found in the sheet as it was given, and a line that is marked twice is marked
once.  So the lines that some requests take (`takenLines`) are those that single requests take
(`mem_takenLines`), and they decide what is left (`kept_stripAt_eq_keepUnless`).

`removeBlocksAt_requests` draws the two conclusions: lists with the same requests leave the same
text, and the lines that two lists take together are those that the one takes and those that the
other takes.
-/

namespace MediaSweep

set_option autoImplicit false

variable {lines : List String} {requests others : List Nat}

/-- The indices of the lines that requests take out of a sheet. -/
def takenLines (lines : List String) (requests : List Nat) : Finset Nat :=
  coveredLines ((stripAt requests lines).located.map (·.span))

theorem Request.block?_eq_some_iff {outcome : Request} {found : LocatedBlock} :
    outcome.block? = some found ↔ outcome = .located found := by
  cases outcome <;> simp [block?]

/-- A line is taken when a single request is answered by a span that covers it. -/
theorem mem_takenLines {index : Nat} :
    index ∈ takenLines lines requests ↔
      ∃ n ∈ requests, ∃ found, lookUp lines n = .located found ∧
        found.span.covers index = true := by
  simp only [takenLines, mem_coveredLines, located_stripAt, List.any_map, List.any_eq_true,
    List.mem_filterMap, Request.block?_eq_some_iff]
  constructor
  · rintro ⟨found, ⟨n, mem, answer⟩, covers⟩
    exact ⟨n, mem, found, answer, covers⟩
  · rintro ⟨n, mem, found, answer, covers⟩
    exact ⟨found, ⟨n, mem, answer⟩, covers⟩

/-- No line behind the last one is taken. -/
theorem takenLines_subset (lines : List String) (requests : List Nat) :
    takenLines lines requests ⊆ Finset.range lines.length := by
  intro index taken
  obtain ⟨n, _, found, answer, covers⟩ := mem_takenLines.1 taken
  have within := (answers_of_lookUp answer).2.within
  exact Finset.mem_range.2 ((Span.covers_iff.1 covers).2.trans_lt within)

/-- **The lines that stay are those that are not taken.** -/
theorem kept_stripAt_eq_keepUnless (requests : List Nat) (lines : List String) :
    (stripAt requests lines).kept =
      keepUnless (fun index => decide (index ∈ takenLines lines requests)) 0 lines := by
  rw [kept_stripAt_eq_linesOutside, linesOutside]
  refine keepUnless_congr fun index _ _ => ?_
  rw [Bool.eq_iff_iff, decide_eq_true_iff, takenLines, mem_coveredLines]

/-- The lines that stay and the lines that are taken make up the sheet. -/
theorem length_kept_stripAt_add_card (requests : List Nat) (lines : List String) :
    (stripAt requests lines).kept.length + (takenLines lines requests).card = lines.length := by
  rw [takenLines, ← removedLines_stripAt]
  exact length_kept_stripAt_add requests lines

/-- Requests take the same lines in every order and however often they are made. -/
theorem takenLines_congr (same : ∀ n, n ∈ requests ↔ n ∈ others) :
    takenLines lines requests = takenLines lines others := by
  ext index
  simp only [mem_takenLines, same]

/-- **Two lists of requests take together what each of them takes.** -/
theorem takenLines_append (lines : List String) (requests others : List Nat) :
    takenLines lines (requests ++ others) =
      takenLines lines requests ∪ takenLines lines others := by
  simp only [takenLines, located_stripAt, List.filterMap_append, List.map_append,
    coveredLines_append]

/-- Further requests leave some of the lines, in the same order. -/
theorem kept_stripAt_append_sublist (lines : List String) (requests others : List Nat) :
    (stripAt (requests ++ others) lines).kept.Sublist (stripAt requests lines).kept := by
  rw [kept_stripAt_eq_keepUnless, kept_stripAt_eq_keepUnless]
  refine keepUnless_sublist_keepUnless 0 lines fun index taken => ?_
  rw [decide_eq_true_iff] at taken ⊢
  rw [takenLines_append]
  exact Finset.mem_union_left _ taken

/-- **Removing requested blocks depends on the set of requested lines only.**  The lines that are
taken are those that the answers to the single requests cover, and they decide what is left.  Two
lists with the same requests leave the same text; two lists together take what each of them takes,
so that together they leave some of the lines that one of them leaves, in the same order. -/
theorem removeBlocksAt_requests (text : String) :
    let lines := Text.toLines text
    (∀ requests,
      (removeBlocksAt text requests).text = Text.ofLines (stripAt requests lines).kept ∧
      (stripAt requests lines).kept =
        keepUnless (fun index => decide (index ∈ takenLines lines requests)) 0 lines ∧
      (∀ index, index ∈ takenLines lines requests ↔ ∃ n ∈ requests, ∃ found,
        lookUp lines n = .located found ∧ found.span.covers index = true) ∧
      takenLines lines requests ⊆ Finset.range lines.length ∧
      (removeBlocksAt text requests).linesAfter + (takenLines lines requests).card =
        lines.length) ∧
    (∀ requests others, (∀ n, n ∈ requests ↔ n ∈ others) →
      (removeBlocksAt text requests).text = (removeBlocksAt text others).text ∧
      (removeBlocksAt text requests).linesAfter = (removeBlocksAt text others).linesAfter) ∧
    ∀ requests others,
      takenLines lines (requests ++ others) =
        takenLines lines requests ∪ takenLines lines others ∧
      (stripAt (requests ++ others) lines).kept.Sublist (stripAt requests lines).kept := by
  intro lines
  refine ⟨fun requests => ?_, fun requests others same => ?_, fun requests others => ?_⟩
  · exact ⟨rfl, kept_stripAt_eq_keepUnless requests lines, fun _ => mem_takenLines,
      takenLines_subset lines requests, length_kept_stripAt_add_card requests lines⟩
  · have kept : (stripAt requests lines).kept = (stripAt others lines).kept := by
      rw [kept_stripAt_eq_keepUnless, kept_stripAt_eq_keepUnless, takenLines_congr same]
    exact ⟨congrArg Text.ofLines kept, congrArg List.length kept⟩
  · exact ⟨takenLines_append lines requests others,
      kept_stripAt_append_sublist lines requests others⟩

/-- A sheet with a block in another block, and a third one with a rule before it. -/
def nestText : String :=
  "@media x \x7b\n@media y \x7b\n\x7d\n\x7d\n.a \x7b\x7d\n@media z \x7b\n\x7d\n.b \x7b\x7d"

/-- The requests overlap, and one of them takes the rule before its block along. -/
theorem removeBlocksAt_requests_nestText :
    (∀ n, n ∈ [2, 5, 1, 2] ↔ n ∈ [1, 2, 5]) ∧
    (removeBlocksAt nestText [2, 5, 1, 2]).text = (removeBlocksAt nestText [1, 2, 5]).text ∧
    (removeBlocksAt nestText [1, 2, 5]).text = ".b \x7b\x7d" ∧
    takenLines (Text.toLines nestText) ([2] ++ [5]) =
      takenLines (Text.toLines nestText) [2] ∪ takenLines (Text.toLines nestText) [5] := by
  have same : ∀ n, n ∈ [2, 5, 1, 2] ↔ n ∈ [1, 2, 5] := by
    intro n
    simp only [List.mem_cons, List.not_mem_nil, or_false]
    omega
  obtain ⟨_, order, together⟩ := removeBlocksAt_requests nestText
  exact ⟨same, (order _ _ same).1, by decide, (together [2] [5]).1⟩

end MediaSweep
