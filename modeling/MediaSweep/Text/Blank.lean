/-!
# Blank characters, trimming and blank lines

Three questions about a line rest on one notion of blank: what is cut off its two ends, whether
anything is left, and hence whether the line counts as empty.  The notion is the Unicode property
`White_Space`, written out here as a list of ranges.  It is wider than the blanks of ASCII (the
no-break space and the ideographic space belong to it) and narrower than what looks empty: the
zero-width space and the byte-order mark do not belong.

`isBlankLine_iff_trim` ties the two uses together: a line is blank exactly when trimming leaves
nothing.
-/

namespace MediaSweep.Text

set_option autoImplicit false

/-- The ranges of code points with the property `White_Space`, ends included. -/
def blankRanges : List (Nat × Nat) :=
  [(0x0009, 0x000D), (0x0020, 0x0020), (0x0085, 0x0085), (0x00A0, 0x00A0), (0x1680, 0x1680),
   (0x2000, 0x200A), (0x2028, 0x2029), (0x202F, 0x202F), (0x205F, 0x205F), (0x3000, 0x3000)]

/-- Whether a character has the property. -/
def isBlank (c : Char) : Bool :=
  blankRanges.any fun r => r.1 ≤ c.toNat && c.toNat ≤ r.2

/-- The characters between the first and the last that is not blank. -/
def trimChars (cs : List Char) : List Char :=
  ((cs.dropWhile isBlank).reverse.dropWhile isBlank).reverse

/-- The text without the blanks at its two ends. -/
def trim (line : String) : String :=
  String.ofList (trimChars line.toList)

/-- A line is blank when it holds nothing but blank characters. -/
def isBlankLine (line : String) : Bool :=
  line.toList.all isBlank

/-! ## The two notions agree -/

theorem dropWhile_eq_nil_iff_all {α : Type} (p : α → Bool) (cs : List α) :
    cs.dropWhile p = [] ↔ cs.all p = true := by
  induction cs with
  | nil => simp
  | cons c rest ih =>
    by_cases hc : p c = true
    · simp [hc, ih]
    · simp [hc]

theorem trimChars_eq_nil_iff (cs : List Char) : trimChars cs = [] ↔ cs.all isBlank = true := by
  constructor
  · intro h
    have h' : (cs.dropWhile isBlank).reverse.dropWhile isBlank = [] := by
      simpa [trimChars] using h
    rw [dropWhile_eq_nil_iff_all, List.all_reverse] at h'
    rw [← dropWhile_eq_nil_iff_all]
    cases hrest : cs.dropWhile isBlank with
    | nil => rfl
    | cons c rest =>
      have hc : isBlank c = true := by
        rw [hrest] at h'
        simp only [List.all_cons, Bool.and_eq_true] at h'
        exact h'.1
      have hne := List.head_dropWhile_not isBlank (l := cs) (by simp [hrest])
      simp [hrest, hc] at hne
  · intro h
    simp [trimChars, (dropWhile_eq_nil_iff_all isBlank cs).2 h]

/-- A line is blank exactly when trimming leaves nothing of it. -/
theorem isBlankLine_iff_trim (line : String) : isBlankLine line = true ↔ trim line = "" := by
  unfold isBlankLine trim
  rw [← trimChars_eq_nil_iff]
  constructor
  · intro h
    rw [h]
  · intro h
    have := congrArg String.toList h
    simpa using this

end MediaSweep.Text
