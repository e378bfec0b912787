import MediaSweep.Proofs.Sheet.Streaming

/-!
# The pass, part by part

The pass that finds the blocks can be looked at in the middle of a sheet.  By then it has reached a
state (`BlockScan.after`), has told the blocks that ended so far (`told`) and has passed over the
lines that stand in no block (`left`).  From that state it goes on as if the sheet began there, so
what it does with two parts of a sheet is what it does with the first, and then with the second
(`blocks_append`, `left_append`).

What is left by the pass over a whole sheet is what is left when its blocks are taken out
(`kept_stripMedia_eq_left`).  Said this way, it does not mention the places of the lines.
-/

namespace MediaSweep

set_option autoImplicit false

namespace BlockScan

variable {s : BlockScan} {line : String}

/-- What the pass knows after some more lines. -/
def after (s : BlockScan) : List String → BlockScan
  | [] => s
  | line :: rest => (s.feed line).1.after rest

/-- The blocks that end within some more lines. -/
def told (s : BlockScan) : List String → List MediaBlock
  | [] => []
  | line :: rest => (s.feed line).2.toList ++ (s.feed line).1.told rest

/-- Those of some more lines that stand in no block. -/
def left (s : BlockScan) : List String → List String
  | [] => []
  | line :: rest =>
    (if (s.blockFor line).isSome then [] else [line]) ++ (s.feed line).1.left rest

theorem blocks_cons (s : BlockScan) (line : String) (rest : List String) :
    s.blocks (line :: rest) = (s.feed line).2.toList ++ (s.feed line).1.blocks rest := by
  rw [blocks]
  cases fed : s.feed line with
  | mk next ended => cases ended <;> rfl

/-- **The blocks of two parts**: those that end in the first one, and those that the pass finds in
the second one from there. -/
theorem blocks_append (s : BlockScan) (xs ys : List String) :
    s.blocks (xs ++ ys) = s.told xs ++ (s.after xs).blocks ys := by
  induction xs generalizing s with
  | nil => rfl
  | cons line rest ih => rw [List.cons_append, blocks_cons, ih, told, after, List.append_assoc]

theorem blocks_eq_told_append (s : BlockScan) (lines : List String) :
    s.blocks lines = s.told lines ++ (s.after lines).unfinished.toList := by
  have whole := s.blocks_append lines []
  rwa [List.append_nil] at whole

/-- **The lines left of two parts.** -/
theorem left_append (s : BlockScan) (xs ys : List String) :
    s.left (xs ++ ys) = s.left xs ++ (s.after xs).left ys := by
  induction xs generalizing s with
  | nil => rfl
  | cons line rest ih => rw [List.cons_append, left, left, after, ih, List.append_assoc]

/-! ## Where the pass stands -/

theorem index_after (s : BlockScan) (lines : List String) :
    (s.after lines).index = s.index + lines.length := by
  induction lines generalizing s with
  | nil => rfl
  | cons line rest ih =>
    rw [after, ih, index_feed, List.length_cons]
    omega

theorem depth_feed (s : BlockScan) (line : String) :
    (s.feed line).1.depth = s.depth + lineDelta line := by
  cases entered : s.blockFor line with
  | none => rw [feed_of_blockFor_eq_none entered]
  | some block =>
    rw [feed_of_blockFor_eq_some entered]
    split <;> rfl

theorem depth_after (s : BlockScan) (lines : List String) :
    (s.after lines).depth = s.depth + depthAfter lines := by
  induction lines generalizing s with
  | nil => exact (Int.add_zero _).symm
  | cons line rest ih =>
    rw [after, ih, depth_feed, depthAfter_cons]
    omega

/-! ## What is left -/

/-- The streaming remover copies the lines that the pass leaves. -/
theorem copied_eq_left {r : StreamingRemover} (mirrors : StreamingRemover.Mirrors s r)
    (lines : List String) :
    (lines.foldl StreamingRemover.step r).copied = r.copied ++ s.left lines := by
  induction lines generalizing s r with
  | nil => exact (List.append_nil _).symm
  | cons line rest ih =>
    obtain ⟨together, copied, _⟩ := mirrors.step line
    rw [List.foldl_cons, ih together, copied, left, List.append_assoc]

/-- **Taking out the blocks of a sheet leaves what the pass leaves.** -/
theorem kept_stripMedia_eq_left (lines : List String) :
    (stripMedia lines).kept = start.left lines := by
  obtain ⟨copies, _⟩ :=
    StreamingRemover.mirrors_start.run (follows_start lines) List.drop_zero
  rw [copied_eq_left StreamingRemover.mirrors_start] at copies
  rw [kept_stripMedia]
  exact (List.append_cancel_left copies).symm

end BlockScan

end MediaSweep
