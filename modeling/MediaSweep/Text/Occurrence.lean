/-!
# Words inside a text

Whether and how often a word stands in a text, wherever it stands: no boundary is asked for on
either side.  `holds_iff_infix` says what the search finds.
-/

namespace MediaSweep.Text

set_option autoImplicit false

/-- Whether the word stands somewhere in the text. -/
def holds (word : List Char) : List Char → Bool
  | [] => word.isEmpty
  | c :: rest => word.isPrefixOf (c :: rest) || holds word rest

/-- How many places of the text the word starts at, added to `found`. -/
def countFrom (word : List Char) (found : Nat) : List Char → Nat
  | [] => found
  | c :: rest => countFrom word (if word.isPrefixOf (c :: rest) then found + 1 else found) rest

/-- How often a word stands in the text.  Two occurrences may share characters only if a part of
the word is both its beginning and its end. -/
def occurrences (word text : List Char) : Nat :=
  countFrom word 0 text

/-- The search finds exactly the contiguous pieces of the text. -/
theorem holds_iff_infix (word text : List Char) : holds word text = true ↔ word <:+: text := by
  induction text with
  | nil => simp [holds]
  | cons c rest ih =>
    rw [holds, Bool.or_eq_true, ih, List.isPrefixOf_iff_prefix, List.infix_cons_iff]

end MediaSweep.Text
