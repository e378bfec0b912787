import MediaSweep.Proofs.Sheet.Strip

/-!
# Taking blocks out while reading

Blocks can be taken out in one pass that never looks back.  The streaming remover copies the lines
outside blocks as it goes; it keeps the depth, whether it is inside a block and, for that block, the
depth at which it was entered and whether a brace was opened since.

It leaves what marking and removing the blocks leaves, and it enters as many blocks as are removed
(`run_eq_stripMedia`).  Between two lines it knows the same as the pass that finds the blocks
(`Mirrors`); and a line of the sheet stands in one of the blocks that this pass tells exactly when
the pass has a block for it (`Follows.covered_index`), so the lines that one removes are the lines
that the other does not copy.
-/

namespace MediaSweep

set_option autoImplicit false

/-! ## The streaming remover -/

/-- What the streaming remover knows between two lines, the lines copied and the blocks entered. -/
structure StreamingRemover where
  depth : Int
  inside : Bool
  /-- The depth at which the block was entered. -/
  baseline : Int
  /-- Whether a brace was opened since. -/
  opened : Bool
  copied : List String
  entries : Nat
  deriving DecidableEq, Repr

namespace StreamingRemover

/-- Before the first line. -/
def start : StreamingRemover :=
  ⟨0, false, 0, false, [], 0⟩

/-- A line outside blocks counts and stays. -/
def copy (r : StreamingRemover) (line : String) : StreamingRemover :=
  { r with depth := r.depth + lineDelta line, copied := r.copied ++ [line] }

/-- A block is entered at the depth of the place. -/
def enter (r : StreamingRemover) : StreamingRemover :=
  { r with inside := true, baseline := r.depth, opened := false, entries := r.entries + 1 }

/-- Whether the block is left: the depth is below the baseline, or back at it and a brace was
opened. -/
def leaves (r : StreamingRemover) : Bool :=
  r.depth < r.baseline || (r.opened && r.depth ≤ r.baseline)

/-- A line inside a block counts and goes, and may be the last one of the block. -/
def discard (r : StreamingRemover) (line : String) : StreamingRemover :=
  let counted := { r with
    depth := r.depth + lineDelta line
    opened := r.opened || (BraceTally.ofLine line).hasOpen }
  { counted with inside := !counted.leaves }

/-- Take one line. -/
def step (r : StreamingRemover) (line : String) : StreamingRemover :=
  if r.inside then r.discard line
  else if isMediaLine line then r.enter.discard line
  else r.copy line

/-- Take all lines of a sheet. -/
def run (lines : List String) : StreamingRemover :=
  lines.foldl step start

end StreamingRemover

/-! ## The pass, line by line -/

namespace BlockScan

variable {lines : List String} {s : BlockScan} {line : String} {rest : List String}

/-- The lines of the block that the pass is in are covered by a block that it will tell. -/
theorem Follows.covered_current (follows : s.Follows lines) (ahead : lines.drop s.index = rest)
    (within : s.index ≤ lines.length) {block : OpenBlock} (current : s.current = some block)
    {place : Nat} (low : block.first ≤ place) (high : place < s.index) :
    (s.blocks rest).any (·.span.covers place) = true := by
  have inside := follows.inside block current
  have found := follows.blocks ahead within
  rw [origin, current] at found
  obtain ⟨line, there, media, _⟩ := inside.heading
  obtain ⟨b, mem, covers⟩ := found.covering block.first (Nat.le_refl _) ⟨line, there, media⟩
  have first : b.span.first = block.first :=
    Nat.le_antisymm (Span.covers_iff.1 covers).1 (found.from_start b mem)
  refine List.any_eq_true.2 ⟨b, mem, ?_⟩
  rw [(found.each b mem).covers_iff_running (by omega), first]
  exact ⟨low, fun earlier before => inside.running earlier (by omega)⟩

/-- What a line does, by the block that it belongs to. -/
theorem feed_of_blockFor_eq_none (free : s.blockFor line = none) :
    s.feed line = (⟨s.index + 1, s.depth + lineDelta line, none⟩, none) := by
  simp only [feed, free, lineDelta]

theorem feed_of_blockFor_eq_some {block : OpenBlock} (entered : s.blockFor line = some block) :
    s.feed line =
      if (block.after line).isOver (s.depth + lineDelta line) then
        (⟨s.index + 1, s.depth + lineDelta line, none⟩,
          some ((block.after line).endAt s.index true))
      else (⟨s.index + 1, s.depth + lineDelta line, some (block.after line)⟩, none) := by
  rw [feed, entered]
  rfl

theorem index_feed (s : BlockScan) (line : String) : (s.feed line).1.index = s.index + 1 := by
  cases entered : s.blockFor line with
  | none => rw [feed_of_blockFor_eq_none entered]
  | some block =>
    rw [feed_of_blockFor_eq_some entered]
    split <;> rfl

theorem length_blocks_cons (s : BlockScan) (line : String) (rest : List String) :
    (s.blocks (line :: rest)).length =
      (s.feed line).2.toList.length + ((s.feed line).1.blocks rest).length := by
  rw [blocks]
  cases fed : s.feed line with
  | mk next told => cases told <;> simp [Nat.add_comm]

/-- **A line stands in one of the blocks that the pass will tell exactly when the pass has a block
for it.** -/
theorem Follows.covered_index (follows : s.Follows lines)
    (ahead : lines.drop s.index = line :: rest) :
    (s.blocks (line :: rest)).any (·.span.covers s.index) = (s.blockFor line).isSome := by
  obtain ⟨found, behind⟩ := getElem?_of_drop_eq_cons ahead
  have inner : s.index < lines.length := (List.getElem?_eq_some_iff.1 found).1
  have later : (s.feed line).1.Follows lines := (follows.feed found).follows
  rw [BlockScan.blocks]
  cases entered : s.blockFor line with
  | none =>
    rw [feed_of_blockFor_eq_none entered] at later ⊢
    refine List.any_eq_false.2 fun b mem => ?_
    have := (later.blocks behind inner).from_start b mem
    rw [Span.covers_iff]
    simp only [origin] at this
    omega
  | some block =>
    obtain ⟨inside, _⟩ := follows.blockFor found entered
    have low := inside.first_le
    rw [feed_of_blockFor_eq_some entered] at later ⊢
    split at later
    · rename_i ended
      have covers : ((block.after line).endAt s.index true).span.covers s.index = true :=
        Span.covers_iff.2 ⟨low, Nat.le_max_right _ _⟩
      rw [if_pos ended, List.any_cons, covers]
      rfl
    · rename_i running
      rw [if_neg running]
      exact later.covered_current behind inner rfl low (Nat.lt_succ_self s.index)

/-- The lines behind stand in the same blocks when the line has been taken. -/
theorem Follows.covered_behind (follows : s.Follows lines) (found : lines[s.index]? = some line)
    {place : Nat} (later : s.index < place) :
    (s.blocks (line :: rest)).any (·.span.covers place) =
      ((s.feed line).1.blocks rest).any (·.span.covers place) := by
  rw [BlockScan.blocks]
  cases fed : s.feed line with
  | mk next told =>
    cases told with
    | none => rfl
    | some b =>
      have ends := follows.feed found
      rw [fed] at ends
      cases ends with
      | ends block inside _ _ =>
        have free : (block.endAt s.index true).span.covers place = false := by
          rw [← Bool.not_eq_true, Span.covers_iff, OpenBlock.endAt,
            Span.last_between inside.first_le]
          omega
        rw [List.any_cons, free, Bool.false_or]

end BlockScan

/-! ## The remover follows the pass -/

/-- The number of blocks that the pass is in. -/
def BlockScan.unended (s : BlockScan) : Nat :=
  s.current.toList.length

namespace StreamingRemover

variable {s : BlockScan} {r : StreamingRemover} {line : String} {block : OpenBlock}

/-- The remover is in a block, with what the pass knows of it. -/
structure IsIn (s : BlockScan) (block : OpenBlock) (r : StreamingRemover) : Prop where
  depth_eq : r.depth = s.depth
  baseline_eq : r.baseline = block.baseline
  opened_eq : r.opened = block.opened

/-- The remover knows what the pass knows. -/
structure Mirrors (s : BlockScan) (r : StreamingRemover) : Prop where
  depth_eq : r.depth = s.depth
  inside_eq : r.inside = s.current.isSome
  isIn : ∀ block, s.current = some block → IsIn s block r

theorem mirrors_start : Mirrors BlockScan.start start where
  depth_eq := rfl
  inside_eq := rfl
  isIn := by simp [BlockScan.start]

/-- A line without a block is copied. -/
theorem Mirrors.step_outside (mirrors : Mirrors s r) (free : s.blockFor line = none) :
    r.step line = r.copy line ∧ s.current = none := by
  rw [BlockScan.blockFor] at free
  cases current : s.current with
  | some block => simp [current] at free
  | none =>
    have outside : r.inside = false := by rw [mirrors.inside_eq, current, Option.isSome_none]
    have plain : isMediaLine line = false := by simpa [current] using free
    exact ⟨by simp [step, outside, plain], rfl⟩

/-- A line of a block is discarded, by a remover that is in this block. -/
theorem Mirrors.step_inside (mirrors : Mirrors s r) (entered : s.blockFor line = some block) :
    ∃ r', r.step line = r'.discard line ∧ IsIn s block r' ∧ r'.copied = r.copied ∧
      r'.entries + s.unended = r.entries + 1 := by
  rw [BlockScan.blockFor] at entered
  cases current : s.current with
  | some was =>
    have inside : r.inside = true := by rw [mirrors.inside_eq, current, Option.isSome_some]
    obtain rfl : was = block := by simpa [current] using entered
    refine ⟨r, by simp [step, inside], mirrors.isIn was current, rfl, ?_⟩
    simp [BlockScan.unended, current]
  | none =>
    have outside : r.inside = false := by rw [mirrors.inside_eq, current, Option.isSome_none]
    simp only [current, ite_eq_iff, reduceCtorEq, and_false, or_false] at entered
    obtain ⟨media, entered⟩ := entered
    obtain rfl := Option.some_inj.1 entered
    refine ⟨r.enter, by simp [step, outside, media], ⟨mirrors.depth_eq, mirrors.depth_eq, rfl⟩, rfl,
      ?_⟩
    simp [BlockScan.unended, current, enter]

/-- The remover leaves a block when the pass ends it. -/
theorem IsIn.discard (isIn : IsIn s block r) (line : String) :
    (r.discard line).inside = !(block.after line).isOver (s.depth + lineDelta line) ∧
      (r.discard line).depth = s.depth + lineDelta line ∧
      (r.discard line).baseline = (block.after line).baseline ∧
      (r.discard line).opened = (block.after line).opened := by
  simp only [StreamingRemover.discard, leaves, OpenBlock.after, OpenBlock.isOver, isIn.depth_eq,
    isIn.baseline_eq, isIn.opened_eq]
  trivial

/-- **One line keeps remover and pass together**, and copies the line exactly when the pass has no
block for it. -/
theorem Mirrors.step (mirrors : Mirrors s r) (line : String) :
    Mirrors (s.feed line).1 (r.step line) ∧
      (r.step line).copied = r.copied ++ (if (s.blockFor line).isSome then [] else [line]) ∧
      (r.step line).entries + s.unended =
        r.entries + (s.feed line).2.toList.length + (s.feed line).1.unended := by
  cases entered : s.blockFor line with
  | none =>
    obtain ⟨copies, outside⟩ := mirrors.step_outside entered
    rw [copies, BlockScan.feed_of_blockFor_eq_none entered]
    refine ⟨⟨?_, ?_, by simp⟩, rfl, by simp [copy, outside, BlockScan.unended]⟩
    · rw [copy, mirrors.depth_eq]
    · rw [copy, mirrors.inside_eq, outside]
  | some block =>
    obtain ⟨r', discards, isIn, copied, entries⟩ := mirrors.step_inside entered
    obtain ⟨inside, depth, baseline, opened⟩ := isIn.discard line
    have kept : (r'.discard line).copied = r.copied ++ [] := by
      rw [List.append_nil, ← copied]
      rfl
    rw [discards, BlockScan.feed_of_blockFor_eq_some entered]
    by_cases ended : (block.after line).isOver (s.depth + lineDelta line) = true
    · rw [ended] at inside
      rw [if_pos ended]
      exact ⟨⟨depth, inside, by simp⟩, kept, entries⟩
    · rw [Bool.not_eq_true] at ended
      rw [ended] at inside
      rw [if_neg (by simp [ended])]
      refine ⟨⟨depth, inside, ?_⟩, kept, entries⟩
      intro current was
      obtain rfl := Option.some_inj.1 was
      exact ⟨depth, baseline, opened⟩

variable {lines rest : List String}

/-- **The rest of a sheet.**  The remover copies the lines that stand in none of the blocks that the
pass will tell, and enters those of them that it is not in yet. -/
theorem Mirrors.run (mirrors : Mirrors s r) (follows : s.Follows lines)
    (ahead : lines.drop s.index = rest) :
    (rest.foldl StreamingRemover.step r).copied =
        r.copied ++
          keepUnless (fun place => (s.blocks rest).any (·.span.covers place)) s.index rest ∧
      (rest.foldl StreamingRemover.step r).entries + s.unended =
        r.entries + (s.blocks rest).length := by
  induction rest generalizing s r with
  | nil =>
    refine ⟨(List.append_nil _).symm, ?_⟩
    rw [BlockScan.blocks, BlockScan.unfinished, BlockScan.unended]
    cases s.current <;> rfl
  | cons line rest ih =>
    obtain ⟨found, behind⟩ := getElem?_of_drop_eq_cons ahead
    obtain ⟨together, copied, entries⟩ := mirrors.step line
    obtain ⟨copies, enters⟩ := ih together (follows.feed found).follows
      (by rw [BlockScan.index_feed, behind])
    rw [BlockScan.index_feed, copied] at copies
    rw [List.foldl_cons, keepUnless_cons, follows.covered_index ahead, copies]
    -- behind the line the same lines are covered when it has been taken
    rw [keepUnless_congr fun place low _ => follows.covered_behind found low]
    refine ⟨?_, ?_⟩
    · cases (s.blockFor line).isSome <;> simp
    · rw [BlockScan.length_blocks_cons]
      omega

end StreamingRemover

/-- **The streaming remover leaves what marking and removing the blocks leaves, and enters as many
blocks as are removed.** -/
theorem run_eq_stripMedia (lines : List String) :
    (StreamingRemover.run lines).copied = (stripMedia lines).kept ∧
      (StreamingRemover.run lines).entries = (stripMedia lines).removed.length := by
  obtain ⟨copied, entries⟩ :=
    StreamingRemover.mirrors_start.run (BlockScan.follows_start lines) List.drop_zero
  refine ⟨?_, ?_⟩
  · rw [kept_stripMedia]
    exact copied
  · exact entries.trans (Nat.zero_add _)

end MediaSweep
