import MediaSweep.Sheet.Braces

/-!
# Where the block at a given line ends

The other way to delimit a block starts from a line that somebody names.  The block is taken to
stand outside every rule: counting starts from zero, at the first line with `@media` at or after
the named one, and the block ends with the first line from there on that closes a brace and brings
the count back to zero.  A count that has gone below zero can come back.

The named line may be a few lines early, but one past the end of the sheet has no answer at all.
-/

namespace MediaSweep

set_option autoImplicit false

/-- How the search for the end of a block comes out. -/
inductive BlockEnd where
  /-- The block ends with the line of this index. -/
  | closed (index : Nat)
  /-- The block is never closed; the index is the one of the last line. -/
  | unterminated (index : Nat)
  /-- No block starts at or after the named line. -/
  | notStarted
  deriving DecidableEq, Repr

namespace BlockEnd

/-- The index of the last line of the block, when there is a block. -/
def index? : BlockEnd → Option Nat
  | closed index => some index
  | unterminated index => some index
  | notStarted => none

end BlockEnd

/-- The index of the first line that closes a brace and brings the count back to zero; the first
line given has index `index`, and `depth` is the count before it. -/
def closingLine? (index : Nat) (depth : Int) : List String → Option Nat
  | [] => none
  | line :: rest =>
    let tally := BraceTally.ofLine line
    if depth + tally.delta = 0 ∧ tally.hasClose = true then some index
    else closingLine? (index + 1) (depth + tally.delta) rest

/-- Where the first block in the last lines of a sheet ends; the first of these lines has index
`start`.  Nothing when there are no such lines. -/
def blockEndFrom? (start : Nat) : List String → Option BlockEnd
  | [] => none
  | line :: rest =>
    match (line :: rest).findIdx? isMediaLine with
    | none => some .notStarted
    | some ahead =>
      match closingLine? (start + ahead) 0 ((line :: rest).drop ahead) with
      | some index => some (.closed index)
      | none => some (.unterminated (start + rest.length))

/-- Where the block that starts at or after the line of index `start` ends; nothing when there is
no such line. -/
def blockEnd? (lines : List String) (start : Nat) : Option BlockEnd :=
  blockEndFrom? start (lines.drop start)

/-- Only a line past the end of the sheet has no answer. -/
theorem blockEnd?_eq_none_iff (lines : List String) (start : Nat) :
    blockEnd? lines start = none ↔ lines.length ≤ start := by
  rw [blockEnd?, ← List.drop_eq_nil_iff]
  constructor
  · intro nothing
    match tail : lines.drop start with
    | [] => rfl
    | line :: rest =>
      rw [tail, blockEndFrom?] at nothing
      split at nothing
      · exact absurd nothing (by simp)
      · split at nothing <;> exact absurd nothing (by simp)
  · intro tail
    rw [tail, blockEndFrom?]

end MediaSweep
