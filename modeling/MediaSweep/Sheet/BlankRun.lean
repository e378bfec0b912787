import MediaSweep.Text.Blank

/-!
# Runs of blank lines

Removing blocks leaves runs of blank lines behind.  Compaction cuts each run down to its first few
lines, which stay as they are; lines that are not blank are kept and end the run before them.  At
least one line of a run is always kept: a bound of zero counts as one.
-/

namespace MediaSweep

set_option autoImplicit false

/-- How many blank lines in a row are kept unless another number is asked for. -/
def defaultBlankLines : Nat := 2

/-- The bound that is applied when `most` is asked for. -/
def runBound (most : Nat) : Nat :=
  max most 1

/-- Keep at most `bound` lines of each blank run; `run` blank lines stand directly before. -/
def cutRuns (bound : Nat) (run : Nat) : List String → List String
  | [] => []
  | line :: rest =>
    if Text.isBlankLine line then
      if run < bound then line :: cutRuns bound (run + 1) rest
      else cutRuns bound (run + 1) rest
    else line :: cutRuns bound 0 rest

/-- Cut every run of blank lines down to `most` lines, or to one. -/
def compactRuns (most : Nat) (lines : List String) : List String :=
  cutRuns (runBound most) 0 lines

end MediaSweep
