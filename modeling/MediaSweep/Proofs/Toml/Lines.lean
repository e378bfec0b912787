import MediaSweep.Proofs.Toml.Values
import MediaSweep.Toml.Document

/-!
# Lines read back

A document is read line by line, so it is enough to say of each line what it is read as:
`WritesLines text lines` says that `text` is read as `lines`, followed by whatever is read of the
text behind it.  Texts that are written one behind the other are read as their lines in that order
(`WritesLines.append`).

The number of lines that can be read is bounded by the number of characters, and every line takes at
least one, so the bound never stops the reading.
-/

namespace MediaSweep.Toml

set_option autoImplicit false

variable {name rest cs : List Char} {fuel : Nat} {c : Char}

/-! ## Bare keys -/

/-- Whether a name can stand without quotes. -/
def isBare (name : List Char) : Bool :=
  !name.isEmpty && name.all isBareKeyChar

/-- What cannot be part of a bare key, as far as it matters where one starts. -/
theorem plain_of_isBareKeyChar (bare : isBareKeyChar c = true) :
    isGap c = false ∧ c ∉ ['"', '\'', '[', '#', '\n', '\r', '.'] := by
  have special : ∀ c ∈ ['"', '\'', '[', '#', '\n', '\r', '.'], isBareKeyChar c = false := by
    simp only [List.mem_cons, List.not_mem_nil, or_false, forall_eq_or_imp, forall_eq]
    decide
  constructor
  · cases gap : isGap c with
    | false => rfl
    | true =>
      simp only [isGap, Bool.or_eq_true, decide_eq_true_eq] at gap
      rcases gap with rfl | rfl <;> exact absurd bare (by decide)
  · intro mem
    exact absurd bare (by simp [special c mem])

theorem skipGaps_cons (noGap : isGap c = false) (cs : List Char) :
    skipGaps (c :: cs) = c :: cs := by
  rw [skipGaps, List.dropWhile_cons_of_neg (by simp [noGap])]

theorem exists_bare (bare : isBare name = true) :
    ∃ d more, name = d :: more ∧ isBareKeyChar d = true := by
  simp only [isBare, Bool.and_eq_true, List.all_eq_true] at bare
  cases name with
  | nil => exact absurd bare.1 (by decide)
  | cons d more => exact ⟨d, more, rfl, bare.2 d List.mem_cons_self⟩

theorem readKey_bare (bare : isBare name = true) {e : Char} (stop : isBareKeyChar e = false)
    (rest : List Char) : readKey (name ++ e :: rest) = some (name, e :: rest) := by
  simp only [isBare, Bool.and_eq_true, List.all_eq_true] at bare
  obtain ⟨notEmpty, all⟩ := bare
  have word : (name ++ e :: rest).takeWhile isBareKeyChar = name := by
    rw [List.takeWhile_append_of_pos all, List.takeWhile_cons_of_neg (by simp [stop]),
      List.append_nil]
  have left : (name ++ e :: rest).dropWhile isBareKeyChar = e :: rest := by
    rw [List.dropWhile_append_of_pos all, List.dropWhile_cons_of_neg (by simp [stop])]
  cases name with
  | nil => exact absurd notEmpty (by decide)
  | cons d name =>
    have notQuote := (plain_of_isBareKeyChar (all d List.mem_cons_self)).2
    rw [List.cons_append] at word left ⊢
    rw [readKey.eq_def]
    split
    · rename_i same
      exact absurd (by simp [(List.cons.inj same).1]) notQuote
    · rename_i same
      exact absurd (by simp [(List.cons.inj same).1]) notQuote
    · rw [word, left]

/-- A bare key that no point follows is a path of its own. -/
theorem readKeyPath_bare {e : Char} (rest : List Char) (bare : isBare name = true)
    (stop : isBareKeyChar e = false)
    {left : List Char} (single : skipGaps (e :: rest) = c :: left) (noPoint : c ≠ '.') :
    readKeyPath (name ++ e :: rest) = some ([String.ofList name], c :: left) := by
  have start : skipGaps (name ++ e :: rest) = name ++ e :: rest := by
    obtain ⟨d, more, rfl, first⟩ := exists_bare bare
    exact skipGaps_cons (plain_of_isBareKeyChar first).1 _
  rw [readKeyPath, depthLimit, readPath, start, readKey_bare bare stop]
  simp only [Option.bind_eq_bind, Option.bind_some, single]
  split
  · rename_i same
    exact absurd (List.cons.inj same).1 noPoint
  · rfl

/-! ## Single lines -/

/-- A line that sets a key. -/
def entryLine (name text : List Char) : List Char :=
  name ++ ' ' :: '=' :: ' ' :: (text ++ ['\n'])

/-- A line that opens a table. -/
def headerLine (name : List Char) : List Char :=
  '[' :: (name ++ [']', '\n'])

theorem readLineEnd_newline (rest : List Char) : readLineEnd ('\n' :: rest) = some rest :=
  rfl

theorem readEntry_entryLine {text : List Char} {value : Value} (rest : List Char)
    (bare : isBare name = true) (written : Writes (depthLimit - 1) text value)
    (room : text.length ≤ fuel) :
    readEntry (readValue fuel) (entryLine name text ++ rest)
      = some (([String.ofList name], value), '\n' :: rest) := by
  have path : readKeyPath (entryLine name text ++ rest)
      = some ([String.ofList name], '=' :: ' ' :: (text ++ '\n' :: rest)) := by
    simpa [entryLine] using readKeyPath_bare (e := ' ') ('=' :: ' ' :: (text ++ '\n' :: rest)) bare
      (by decide) rfl (by decide)
  have behind : skipGaps (' ' :: (text ++ '\n' :: rest)) = text ++ '\n' :: rest := by
    obtain ⟨d, more, rfl, starts⟩ := written.starts
    rw [skipGaps, List.dropWhile_cons_of_pos (by decide)]
    simp only [startsValue, Bool.and_eq_true, Bool.not_eq_true'] at starts
    exact skipGaps_cons starts.1 _
  have read : readValue fuel (text ++ '\n' :: rest) = some (value, '\n' :: rest) :=
    written.reads room ⟨'\n', rest, rfl, by decide⟩
  rw [readEntry, path]
  simp only [Option.bind_eq_bind, Option.bind_some, behind, read]

theorem readLine_entryLine {text : List Char} {value : Value} (rest : List Char)
    (bare : isBare name = true) (written : Writes (depthLimit - 1) text value)
    (room : text.length ≤ fuel) :
    readLine fuel (entryLine name text ++ rest)
      = some (.entry [String.ofList name] value, rest) := by
  have read := readEntry_entryLine rest bare written room
  obtain ⟨d, more, rfl, first⟩ := exists_bare bare
  have notBracket : d ≠ '[' := fun same =>
    (plain_of_isBareKeyChar first).2 (by simp [same])
  rw [readLine.eq_def]
  split
  · rename_i same
    exact absurd (List.cons.inj same).1 notBracket
  · rename_i same
    exact absurd (List.cons.inj same).1 notBracket
  · simp only [Option.bind_eq_bind, read, Option.bind_some, readLineEnd_newline]

theorem readLine_headerLine (rest : List Char) (bare : isBare name = true) :
    readLine fuel (headerLine name ++ rest) = some (.header [String.ofList name], rest) := by
  have path : readKeyPath (name ++ ']' :: '\n' :: rest)
      = some ([String.ofList name], ']' :: '\n' :: rest) :=
    readKeyPath_bare ('\n' :: rest) bare (by decide) rfl (by decide)
  have header : readHeader [']'] (name ++ ']' :: '\n' :: rest)
      = some ([String.ofList name], rest) := by
    rw [readHeader, path]
    rfl
  have written : headerLine name ++ rest = '[' :: (name ++ ']' :: '\n' :: rest) := by
    simp [headerLine]
  obtain ⟨d, more, rfl, first⟩ := exists_bare bare
  rw [written, readLine.eq_def]
  split
  · rename_i same
    have isBracket : d = '[' := (List.cons.inj (List.cons.inj same).2).1
    exact absurd (by simp [isBracket]) (plain_of_isBareKeyChar first).2
  · rename_i same
    rw [← (List.cons.inj same).2, header, Option.map_some]
  · rename_i other
    exact absurd rfl (other _)

/-! ## Lines in a row -/

/-- A text that is read as some lines, followed by those that are read behind it. -/
structure WritesLines (text : List Char) (lines : List Line) : Prop where
  reads : ∀ {rest : List Char} {later : List Line},
    (∀ {fuel : Nat}, rest.length < fuel → readLines fuel rest = some later) →
    ∀ {fuel : Nat}, (text ++ rest).length < fuel →
      readLines fuel (text ++ rest) = some (lines ++ later)

theorem WritesLines.append {text more : List Char} {lines others : List Line}
    (first : WritesLines text lines) (second : WritesLines more others) :
    WritesLines (text ++ more) (lines ++ others) := by
  refine ⟨fun {rest later} behind {fuel} enough => ?_⟩
  rw [List.append_assoc] at enough ⊢
  rw [List.append_assoc, first.reads (second.reads behind) enough]

/-- A text of its own is read as its lines. -/
theorem WritesLines.readLines_eq {text : List Char} {lines : List Line}
    (written : WritesLines text lines) (enough : text.length < fuel) :
    readLines fuel text = some lines := by
  have ended {fuel : Nat} (enough : ([] : List Char).length < fuel) :
      readLines fuel [] = some [] := by
    cases fuel with
    | zero => exact absurd enough (by simp)
    | succ fuel => rfl
  have read := @written.reads [] [] ended fuel (by simpa using enough)
  rwa [List.append_nil, List.append_nil] at read

theorem WritesLines.blank : WritesLines ['\n'] [] := by
  refine ⟨fun {rest later} behind {fuel} enough => ?_⟩
  cases fuel with
  | zero => exact absurd enough (by simp)
  | succ fuel =>
    have room : rest.length < fuel := by simpa using enough
    exact behind room

/-- A text is read as a line with content, if it is read as this line whatever stands behind it. -/
theorem WritesLines.line {text : List Char} {line : Line}
    (starts : ∃ c more, text = c :: more ∧ isGap c = false ∧ c ∉ ['#', '\n', '\r'])
    (read : ∀ {fuel : Nat} {rest : List Char}, text.length ≤ fuel →
      readLine fuel (text ++ rest) = some (line, rest)) :
    WritesLines text [line] := by
  refine ⟨fun {rest later} behind {fuel} enough => ?_⟩
  obtain ⟨c, more, rfl, noGap, content⟩ := starts
  cases fuel with
  | zero => exact absurd enough (by simp)
  | succ fuel =>
    simp only [List.length_append, List.length_cons] at enough
    have room : (c :: more).length ≤ fuel := by
      rw [List.length_cons]
      omega
    have here : readLine fuel (c :: more ++ rest) = some (line, rest) := read room
    have left : rest.length < fuel := by omega
    simp only [List.mem_cons, List.not_mem_nil, or_false] at content
    rw [List.cons_append] at here ⊢
    rw [readLines, skipGaps_cons noGap]
    simp only [if_neg content, here, Option.bind_eq_bind, Option.bind_some, behind left]
    rfl

theorem WritesLines.entry {text : List Char} {value : Value} (bare : isBare name = true)
    (written : Writes (depthLimit - 1) text value) :
    WritesLines (entryLine name text) [.entry [String.ofList name] value] := by
  refine .line ?_ fun {fuel rest} room => readLine_entryLine rest bare written ?_
  · obtain ⟨d, more, rfl, first⟩ := exists_bare bare
    obtain ⟨noGap, content⟩ := plain_of_isBareKeyChar first
    refine ⟨d, _, rfl, noGap, fun mem => content ?_⟩
    simp only [List.mem_cons, List.not_mem_nil, or_false] at mem ⊢
    rcases mem with rfl | rfl | rfl <;> simp
  · simp only [entryLine, List.length_append, List.length_cons] at room
    omega

theorem WritesLines.header (name : List Char) (bare : isBare name = true) :
    WritesLines (headerLine name) [.header [String.ofList name]] :=
  .line ⟨'[', _, rfl, by decide, by decide⟩ fun _ => readLine_headerLine _ bare

end MediaSweep.Toml
