import MediaSweep.Proofs.Sheet.Ending
import MediaSweep.Sheet.LineSet
import MediaSweep.Sheet.MediaBlock

/-!
# The blocks of a sheet, without the pass

What the blocks of a sheet are is said here by the lines and depths of the sheet alone.  A block
starts at a line with `@media`, at the depth of that place, and ends with the first line after which
it is over; a block that is never over reaches the last line of the sheet (`IsBlock`).  The blocks
stand apart, from top to bottom, and no line with `@media` stands outside them (`BlocksOf`).

The pass over the sheet finds exactly these blocks.  It keeps an invariant, `BlockScan.Follows`:
between two lines it knows the depth of the place and, inside a block, where the block was entered,
whether a brace was opened since, and that the block is not over yet.
-/

namespace MediaSweep

set_option autoImplicit false

variable {lines : List String}

/-! ## Blocks -/

/-- The line of an index has `@media` in it. -/
def MediaAt (lines : List String) (index : Nat) : Prop :=
  ∃ line, lines[index]? = some line ∧ isMediaLine line = true

theorem MediaAt.lt_length {index : Nat} (media : MediaAt lines index) : index < lines.length := by
  obtain ⟨line, found, _⟩ := media
  exact (List.getElem?_eq_some_iff.1 found).1

/-- A block that starts at a line with `@media` and ends when it is over, or with the sheet. -/
structure IsBlock (lines : List String) (b : MediaBlock) : Prop where
  /-- The first line has `@media` in it, and trimmed it is the query. -/
  heading : ∃ line, lines[b.span.first]? = some line ∧ isMediaLine line = true ∧
    b.query = Text.trim line
  /-- The depth of the block is the depth of the place where it starts. -/
  depth_eq : b.depth = depthAt lines b.span.first
  /-- A closed block ends with the first line after which it is over. -/
  closed_ends : b.closed = true → IsLeast {last | OverAt lines b.span.first last} b.span.last
  /-- A block that is not closed is never over, and its end is the last line. -/
  open_ends : b.closed = false →
    (∀ last, ¬ OverAt lines b.span.first last) ∧ b.span.last + 1 = lines.length

/-- The blocks of a sheet, from top to bottom. -/
structure BlocksOf (lines : List String) (blocks : List MediaBlock) : Prop where
  /-- Each is a block. -/
  each : ∀ b ∈ blocks, IsBlock lines b
  /-- No block reaches past the last line. -/
  within : ∀ b ∈ blocks, b.span.last < lines.length
  /-- A block ends before the next one starts. -/
  ordered : blocks.Pairwise fun earlier later => earlier.span.Before later.span
  /-- A line with `@media` stands in some block. -/
  covering : ∀ index, MediaAt lines index → ∃ b ∈ blocks, b.span.covers index = true
  /-- Only the last block can be left open. -/
  open_last : ∀ b ∈ blocks, b.closed = false → blocks.getLast? = some b

namespace IsBlock

variable {b : MediaBlock}

theorem mediaAt (block : IsBlock lines b) : MediaAt lines b.span.first := by
  obtain ⟨line, found, media, _⟩ := block.heading
  exact ⟨line, found, media⟩

theorem first_lt_length (block : IsBlock lines b) : b.span.first < lines.length :=
  block.mediaAt.lt_length

theorem last_lt_length (block : IsBlock lines b) : b.span.last < lines.length := by
  cases closed : b.closed with
  | true => exact (block.closed_ends closed).1.2.1
  | false =>
    have := (block.open_ends closed).2
    omega

/-- No line before the last one ends the block. -/
theorem running (block : IsBlock lines b) {last : Nat} (before : last < b.span.last) :
    ¬ OverAt lines b.span.first last := by
  cases closed : b.closed with
  | true =>
    intro ended
    have := (block.closed_ends closed).2 ended
    omega
  | false => exact (block.open_ends closed).1 last

/-- A line of the sheet stands in the block when the block starts before it and is not over yet. -/
theorem covers_iff_running (block : IsBlock lines b) {index : Nat} (within : index < lines.length) :
    b.span.covers index = true ↔
      b.span.first ≤ index ∧ ∀ earlier < index, ¬ OverAt lines b.span.first earlier := by
  rw [Span.covers_iff]
  refine and_congr_right fun _ => ⟨fun inside earlier before => ?_, fun running => ?_⟩
  · exact block.running (by omega)
  · by_contra behind
    cases closed : b.closed with
    | true => exact running b.span.last (by omega) (block.closed_ends closed).1
    | false =>
      have := (block.open_ends closed).2
      omega

/-- A block is known by its first line. -/
theorem eq_of_first_eq {b' : MediaBlock} (block : IsBlock lines b) (block' : IsBlock lines b')
    (same : b.span.first = b'.span.first) : b = b' := by
  have depths : b.depth = b'.depth := by rw [block.depth_eq, block'.depth_eq, same]
  have queries : b.query = b'.query := by
    obtain ⟨line, found, _, query⟩ := block.heading
    obtain ⟨line', found', _, query'⟩ := block'.heading
    rw [same, found', Option.some_inj] at found
    rw [query, query', found]
  have ends : b.closed = b'.closed ∧ b.span.last = b'.span.last := by
    cases closed : b.closed <;> cases closed' : b'.closed
    · have := (block.open_ends closed).2
      have := (block'.open_ends closed').2
      exact ⟨rfl, by omega⟩
    · exact absurd (same ▸ (block'.closed_ends closed').1) ((block.open_ends closed).1 _)
    · exact absurd (same ▸ (block.closed_ends closed).1) ((block'.open_ends closed').1 _)
    · exact ⟨rfl, (block.closed_ends closed).unique (same ▸ block'.closed_ends closed')⟩
  obtain ⟨⟨first, last, _⟩, query, depth, closed⟩ := b
  obtain ⟨⟨first', last', _⟩, query', depth', closed'⟩ := b'
  simp only at same depths queries ends
  obtain ⟨rfl, rfl⟩ := ends
  subst same depths queries
  rfl

end IsBlock

/-! ## The blocks from a line on -/

/-- The blocks of a sheet from a line on, when no block reaches over that line. -/
structure BlocksFrom (lines : List String) (start : Nat) (blocks : List MediaBlock) : Prop where
  each : ∀ b ∈ blocks, IsBlock lines b
  ordered : blocks.Pairwise fun earlier later => earlier.span.Before later.span
  from_start : ∀ b ∈ blocks, start ≤ b.span.first
  covering : ∀ index, start ≤ index → MediaAt lines index →
    ∃ b ∈ blocks, b.span.covers index = true

namespace BlocksFrom

variable {start : Nat} {b : MediaBlock} {blocks : List MediaBlock}

/-- There is no block from the end of the sheet on. -/
theorem nil (finished : lines.length ≤ start) : BlocksFrom lines start [] where
  each := by simp
  ordered := .nil
  from_start := by simp
  covering := by
    intro index later media
    have := media.lt_length
    omega

/-- A line without `@media` can be passed over. -/
theorem skip (plain : ¬ MediaAt lines start) (found : BlocksFrom lines (start + 1) blocks) :
    BlocksFrom lines start blocks where
  each := found.each
  ordered := found.ordered
  from_start b mem := by
    have := found.from_start b mem
    omega
  covering := by
    intro index later media
    rcases Nat.eq_or_lt_of_le later with rfl | later
    · exact absurd media plain
    · exact found.covering index later media

/-- A block, and the blocks after its last line. -/
theorem cons (block : IsBlock lines b) (found : BlocksFrom lines (b.span.last + 1) blocks) :
    BlocksFrom lines b.span.first (b :: blocks) where
  each := List.forall_mem_cons.2 ⟨block, found.each⟩
  ordered := List.pairwise_cons.2 ⟨found.from_start, found.ordered⟩
  from_start := by
    refine List.forall_mem_cons.2 ⟨le_refl _, fun later mem => ?_⟩
    have := found.from_start later mem
    have := b.span.first_le_last
    omega
  covering := by
    intro index later media
    by_cases inside : index ≤ b.span.last
    · exact ⟨b, List.mem_cons_self, Span.covers_iff.2 ⟨later, inside⟩⟩
    · obtain ⟨other, mem, covers⟩ := found.covering index (by omega) media
      exact ⟨other, List.mem_cons_of_mem b mem, covers⟩

/-- The first block starts at the first line with `@media`. -/
theorem isLeast_first (found : BlocksFrom lines start (b :: blocks)) :
    IsLeast {index | start ≤ index ∧ MediaAt lines index} b.span.first := by
  refine ⟨⟨found.from_start b List.mem_cons_self, (found.each b List.mem_cons_self).mediaAt⟩, ?_⟩
  rintro index ⟨later, media⟩
  obtain ⟨other, mem, covers⟩ := found.covering index later media
  have low := (Span.covers_iff.1 covers).1
  rcases List.mem_cons.1 mem with rfl | mem
  · exact low
  · have apart : b.span.last < other.span.first := (List.pairwise_cons.1 found.ordered).1 other mem
    have := b.span.first_le_last
    show b.span.first ≤ index
    omega

/-- Behind its first block the sheet goes on with the other ones. -/
theorem tail (found : BlocksFrom lines start (b :: blocks)) :
    BlocksFrom lines (b.span.last + 1) blocks where
  each other mem := found.each other (List.mem_cons_of_mem b mem)
  ordered := (List.pairwise_cons.1 found.ordered).2
  from_start := (List.pairwise_cons.1 found.ordered).1
  covering := by
    intro index later media
    have first := found.from_start b List.mem_cons_self
    have := b.span.first_le_last
    obtain ⟨other, mem, covers⟩ := found.covering index (by omega) media
    rcases List.mem_cons.1 mem with rfl | mem
    · have := (Span.covers_iff.1 covers).2
      omega
    · exact ⟨other, mem, covers⟩

/-- **The blocks from a line on are determined.** -/
theorem unique {blocks' : List MediaBlock} (found : BlocksFrom lines start blocks)
    (found' : BlocksFrom lines start blocks') : blocks = blocks' := by
  induction blocks generalizing start blocks' with
  | nil =>
    cases blocks' with
    | nil => rfl
    | cons b' _ =>
      obtain ⟨later, media⟩ := found'.isLeast_first.1
      obtain ⟨_, mem, _⟩ := found.covering b'.span.first later media
      exact absurd mem List.not_mem_nil
  | cons b rest ih =>
    cases blocks' with
    | nil =>
      obtain ⟨later, media⟩ := found.isLeast_first.1
      obtain ⟨_, mem, _⟩ := found'.covering b.span.first later media
      exact absurd mem List.not_mem_nil
    | cons b' rest' =>
      have same : b = b' :=
        (found.each b List.mem_cons_self).eq_of_first_eq (found'.each b' List.mem_cons_self)
          (found.isLeast_first.unique found'.isLeast_first)
      subst same
      rw [ih found.tail found'.tail]

end BlocksFrom

/-- Taken from the first line on, these are the blocks of the sheet. -/
theorem BlocksFrom.blocksOf {blocks : List MediaBlock} (found : BlocksFrom lines 0 blocks) :
    BlocksOf lines blocks where
  each := found.each
  within b mem := (found.each b mem).last_lt_length
  ordered := found.ordered
  covering index media := found.covering index (Nat.zero_le index) media
  open_last := by
    intro b mem opened
    obtain ⟨before, after, rfl⟩ := List.append_of_mem mem
    cases after with
    | nil => simp
    | cons next later =>
      -- a block behind the one left open would start past the last line
      have apart : b.span.Before next.span :=
        (List.pairwise_cons.1 (List.pairwise_append.1 found.ordered).2.1).1 next
          List.mem_cons_self
      have last := ((found.each b mem).open_ends opened).2
      have := (found.each next (by simp)).first_lt_length
      simp only [Span.Before] at apart
      omega

theorem BlocksOf.blocksFrom {blocks : List MediaBlock} (found : BlocksOf lines blocks) :
    BlocksFrom lines 0 blocks where
  each := found.each
  ordered := found.ordered
  from_start _ _ := Nat.zero_le _
  covering index _ media := found.covering index media

/-! ## The pass -/

/-- What the pass knows of the block it is in, before the line of an index. -/
structure OpenBlock.Inside (lines : List String) (index : Nat) (block : OpenBlock) : Prop where
  heading : ∃ line, lines[block.first]? = some line ∧ isMediaLine line = true ∧
    block.query = Text.trim line
  first_le : block.first ≤ index
  baseline_eq : block.baseline = depthAt lines block.first
  opened_iff : block.opened = true ↔ OpensBetween lines block.first index
  running : ∀ last < index, ¬ OverAt lines block.first last

namespace OpenBlock

variable {index : Nat} {block : OpenBlock} {line : String}

/-- A block with the braces of a further line taken into account. -/
def after (block : OpenBlock) (line : String) : OpenBlock :=
  { block with opened := block.opened || (BraceTally.ofLine line).hasOpen }

theorem Inside.opened_after (inside : block.Inside lines index)
    (found : lines[index]? = some line) :
    (block.after line).opened = true ↔ OpensBetween lines block.first (index + 1) := by
  rw [opensBetween_succ inside.first_le found, after, Bool.or_eq_true, inside.opened_iff,
    BraceTally.hasOpen_ofLine]

/-- The test of the pass says whether the block is over. -/
theorem Inside.isOver_after (inside : block.Inside lines index)
    (found : lines[index]? = some line) :
    (block.after line).isOver (depthAt lines (index + 1)) = true ↔
      OverAt lines block.first index := by
  have within : index < lines.length := (List.getElem?_eq_some_iff.1 found).1
  have baseline : (block.after line).baseline = depthAt lines block.first := inside.baseline_eq
  rw [isOver, Bool.or_eq_true, Bool.and_eq_true, inside.opened_after found, decide_eq_true_iff,
    decide_eq_true_iff, baseline, OverAt]
  exact ⟨fun ended => ⟨inside.first_le, within, ended⟩, fun ended => ended.2.2⟩

/-- A block that is not over goes on. -/
theorem Inside.after (inside : block.Inside lines index) (found : lines[index]? = some line)
    (running : ¬ OverAt lines block.first index) : (block.after line).Inside lines (index + 1) where
  heading := inside.heading
  first_le := Nat.le_succ_of_le inside.first_le
  baseline_eq := inside.baseline_eq
  opened_iff := inside.opened_after found
  running := by
    intro last before
    rcases Nat.lt_succ_iff_lt_or_eq.1 before with before | rfl
    · exact inside.running last before
    · exact running

/-- A block that is over ends with the line that it is over after. -/
theorem Inside.isBlock_closed (inside : block.Inside lines index)
    (ended : OverAt lines block.first index) : IsBlock lines (block.endAt index true) where
  heading := inside.heading
  depth_eq := inside.baseline_eq
  closed_ends := by
    intro _
    show IsLeast {last | OverAt lines block.first last} (max block.first index)
    rw [Nat.max_eq_right inside.first_le]
    refine ⟨ended, fun last overAt => ?_⟩
    by_contra before
    exact inside.running last (by omega) overAt
  open_ends := by simp [endAt]

/-- A block that is not over when the sheet ends is left open. -/
theorem Inside.isBlock_open (inside : block.Inside lines lines.length) :
    IsBlock lines (block.endAt (lines.length - 1) false) where
  heading := inside.heading
  depth_eq := inside.baseline_eq
  closed_ends := by simp [endAt]
  open_ends := by
    intro _
    obtain ⟨line, found, _⟩ := inside.heading
    have within : block.first < lines.length := (List.getElem?_eq_some_iff.1 found).1
    refine ⟨fun last ended => inside.running last ended.2.1 ended, ?_⟩
    show max block.first (lines.length - 1) + 1 = lines.length
    omega

end OpenBlock

namespace BlockScan

variable {s : BlockScan} {line : String}

/-- What the pass knows between two lines is true of the sheet. -/
structure Follows (lines : List String) (s : BlockScan) : Prop where
  depth_eq : s.depth = depthAt lines s.index
  inside : ∀ block, s.current = some block → block.Inside lines s.index

/-- The line from which on the blocks are still to be told: the start of the block entered, or the
next line. -/
def origin (s : BlockScan) : Nat :=
  match s.current with
  | some block => block.first
  | none => s.index

theorem follows_start (lines : List String) : start.Follows lines where
  depth_eq := rfl
  inside := by simp [start]

/-- The block that a line belongs to was entered before, or is entered with this line. -/
theorem Follows.blockFor (follows : s.Follows lines) (found : lines[s.index]? = some line)
    {block : OpenBlock} (entered : s.blockFor line = some block) :
    block.Inside lines s.index ∧ block.first = s.origin := by
  rw [BlockScan.blockFor] at entered
  split at entered
  · rename_i current was
    obtain rfl := Option.some_inj.1 entered
    exact ⟨follows.inside current was, by rw [origin, was]⟩
  · rename_i outside
    split at entered
    · rename_i media
      obtain rfl := Option.some_inj.1 entered
      refine ⟨⟨⟨line, found, media, rfl⟩, le_refl _, follows.depth_eq, ?_, ?_⟩, ?_⟩
      · simp [not_opensBetween_self]
      · intro last before ended
        exact absurd ended.1 (by simpa using before)
      · rw [origin, outside]
    · exact absurd entered (by simp)

/-- What a line can do: pass outside every block, end a block, or go on with one. -/
inductive Step (lines : List String) (s : BlockScan) : BlockScan × Option MediaBlock → Prop where
  | outside (free : s.current = none) (plain : ¬ MediaAt lines s.index) :
      Step lines s (⟨s.index + 1, depthAt lines (s.index + 1), none⟩, none)
  | ends (block : OpenBlock) (inside : block.Inside lines s.index) (origin : block.first = s.origin)
      (ended : OverAt lines block.first s.index) :
      Step lines s
        (⟨s.index + 1, depthAt lines (s.index + 1), none⟩, some (block.endAt s.index true))
  | goesOn (block : OpenBlock) (inside : block.Inside lines (s.index + 1))
      (origin : block.first = s.origin) :
      Step lines s (⟨s.index + 1, depthAt lines (s.index + 1), some block⟩, none)

/-- **One line of the pass does one of the three.** -/
theorem Follows.feed (follows : s.Follows lines) (found : lines[s.index]? = some line) :
    Step lines s (s.feed line) := by
  have depth : s.depth + (BraceTally.ofLine line).delta = depthAt lines (s.index + 1) := by
    rw [depthAt_succ found, follows.depth_eq, lineDelta]
  rw [BlockScan.feed]
  simp only [depth]
  cases entered : s.blockFor line with
  | none =>
    rw [BlockScan.blockFor] at entered
    cases current : s.current with
    | some block => simp [current] at entered
    | none =>
      refine .outside current ?_
      rintro ⟨line', found', media⟩
      rw [found, Option.some_inj] at found'
      simp [current, found', media] at entered
  | some block =>
    obtain ⟨inside, origin⟩ := follows.blockFor found entered
    have test := inside.isOver_after found
    show Step lines s
      (if (block.after line).isOver (depthAt lines (s.index + 1)) = true then _ else _)
    by_cases ended : OverAt lines block.first s.index
    · rw [if_pos (test.2 ended)]
      exact .ends block inside origin ended
    · rw [if_neg (mt test.1 ended)]
      exact .goesOn (block.after line) (inside.after found ended) origin

/-- The pass knows the truth after the next line, too. -/
theorem Step.follows {next : BlockScan} {told : Option MediaBlock}
    (step : Step lines s (next, told)) : next.Follows lines := by
  cases step with
  | outside | ends => exact ⟨rfl, by simp⟩
  | goesOn block inside =>
    refine ⟨rfl, fun current was => ?_⟩
    obtain rfl := Option.some_inj.1 was
    exact inside

/-- **The rest of the pass tells the blocks from the origin on.** -/
theorem Follows.blocks {rest : List String} (follows : s.Follows lines)
    (ahead : lines.drop s.index = rest) (within : s.index ≤ lines.length) :
    BlocksFrom lines s.origin (s.blocks rest) := by
  induction rest generalizing s with
  | nil =>
    have finished : s.index = lines.length :=
      Nat.le_antisymm within (List.drop_eq_nil_iff.1 ahead)
    cases current : s.current with
    | none =>
      rw [blocks, unfinished, current, origin, current]
      exact .nil finished.ge
    | some block =>
      have inside : block.Inside lines lines.length := finished ▸ follows.inside block current
      rw [blocks, unfinished, current, origin, current, finished]
      refine .cons inside.isBlock_open (.nil ?_)
      have last := (inside.isBlock_open.open_ends rfl).2
      omega
  | cons line rest ih =>
    obtain ⟨found, behind⟩ := getElem?_of_drop_eq_cons ahead
    have inner : s.index < lines.length := (List.getElem?_eq_some_iff.1 found).1
    have step := follows.feed found
    rw [blocks]
    cases fed : s.feed line with
    | mk next told =>
      rw [fed] at step
      have later := step.follows
      cases step with
      | outside free plain =>
        rw [origin, free]
        exact .skip plain (ih later behind inner)
      | ends block inside origin ended =>
        rw [← origin]
        refine .cons (inside.isBlock_closed ended) ?_
        rw [OpenBlock.endAt, Span.last_between inside.first_le]
        exact ih later behind inner
      | goesOn block inside origin =>
        rw [← origin]
        exact ih later behind inner

end BlockScan

/-- The pass tells the blocks from the first line on. -/
theorem blocksFrom_mediaBlocks (lines : List String) : BlocksFrom lines 0 (mediaBlocks lines) :=
  (BlockScan.follows_start lines).blocks rfl (Nat.zero_le _)

theorem isBlock_of_mem_mediaBlocks {b : MediaBlock} (mem : b ∈ mediaBlocks lines) :
    IsBlock lines b :=
  (blocksFrom_mediaBlocks lines).each b mem

/-- **The pass finds the blocks of the sheet, and nothing else is a list of its blocks.** -/
theorem mediaBlocks_eq_iff_blocksOf (lines : List String) (blocks : List MediaBlock) :
    mediaBlocks lines = blocks ↔ BlocksOf lines blocks := by
  constructor
  · rintro rfl
    exact (blocksFrom_mediaBlocks lines).blocksOf
  · intro found
    exact (blocksFrom_mediaBlocks lines).unique found.blocksFrom

end MediaSweep
