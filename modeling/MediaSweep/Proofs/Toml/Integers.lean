import MediaSweep.Toml.Document

/-!
# Numbers of a document

Every whole number that is read from a document fits into 64 bits with a sign, however deep in
arrays and tables it stands (`fits_of_readDocument`).

A number is checked where it is read, and from there on values are only put into other values.  So
the property is carried through the readers of values first, by recursion on the depth, and then
through what is done with tables, where a path leads from a table into the tables it holds.
-/

namespace MediaSweep.Toml

set_option autoImplicit false

/-- Every whole number in a value fits into 64 bits with a sign. -/
inductive Value.Fits : Value → Prop where
  | string (text : String) : Fits (.string text)
  | integer {number : Int} (low : -(signedBound : Int) ≤ number) (high : number < signedBound) :
      Fits (.integer number)
  | float (number : Number.Binary64) : Fits (.float number)
  | boolean (flag : Bool) : Fits (.boolean flag)
  | moment : Fits .moment
  | array {items : List Value} (all : ∀ v ∈ items, Fits v) : Fits (.array items)
  | table {content : Table Value} (all : ∀ e ∈ content.entries, Fits e.2) :
      Fits (.table content)
  | tables {last : Table Value} {earlier : List (Table Value)}
      (all : ∀ t ∈ last :: earlier, ∀ e ∈ t.entries, Fits e.2) : Fits (.tables last earlier)

/-- Every whole number in a table fits. -/
def Table.Fits (t : Table Value) : Prop :=
  ∀ e ∈ t.entries, e.2.Fits

variable {cs rest : List Char} {v : Value}

/-! ## Numbers -/

theorem fits_of_integer? {negative : Bool} {size : Nat} (read : integer? negative size = some v) :
    v.Fits := by
  have positive : 0 < signedBound := by decide
  rw [integer?] at read
  repeat' split at read
  all_goals
    cases read
    try exact .integer (by omega) (by omega)

theorem fits_of_float? {number : Number.Binary64} (read : float? number = some v) : v.Fits := by
  rw [float?] at read
  split at read <;> cases read
  exact .float number

theorem fits_of_readSpecial {negative : Bool} (read : readSpecial negative cs = some (v, rest)) :
    v.Fits := by
  rw [readSpecial.eq_def] at read
  split at read <;> cases read <;> exact .float _

theorem fits_of_readInBase {base : Nat} (read : readInBase base cs = some (v, rest)) : v.Fits := by
  simp only [readInBase, Option.bind_eq_bind, Option.bind_eq_some_iff] at read
  obtain ⟨⟨digits, after⟩, -, value, number, done⟩ := read
  cases done
  exact fits_of_integer? number

theorem fits_of_readDecimal {negative : Bool} (read : readDecimal negative cs = some (v, rest)) :
    v.Fits := by
  simp only [readDecimal, Option.bind_eq_bind, Option.bind_eq_some_iff] at read
  obtain ⟨⟨whole, r1⟩, -, ⟨fraction, r2⟩, -, ⟨exponent?, r3⟩, -, read⟩ := read
  split at read
  · obtain ⟨value, number, done⟩ := Option.bind_eq_some_iff.1 read
    cases done
    exact fits_of_integer? number
  · obtain ⟨value, number, done⟩ := Option.bind_eq_some_iff.1 read
    cases done
    exact fits_of_float? number

theorem fits_of_readNumber (read : readNumber cs = some (v, rest)) : v.Fits := by
  rw [readNumber.eq_def] at read
  split at read
  · exact fits_of_readInBase read
  · exact fits_of_readInBase read
  · exact fits_of_readInBase read
  · rcases Option.or_eq_some_iff.1 read with special | ⟨-, decimal⟩
    · exact fits_of_readSpecial special
    · exact fits_of_readDecimal decimal

theorem fits_of_readScalar (read : readScalar cs = some (v, rest)) : v.Fits := by
  rw [readScalar] at read
  split at read
  · cases read
    exact .moment
  · cases read
  · exact fits_of_readNumber read

/-! ## Values with values in them -/

theorem forall_of_readItems {α : Type} {P : α → Prop} {item : List Char → Option (α × List Char)}
    (each : ∀ {cs a rest}, item cs = some (a, rest) → P a) {fuel : Nat} {items : List α}
    (read : readItems item fuel cs = some (items, rest)) : ∀ a ∈ items, P a := by
  induction fuel generalizing cs items rest with
  | zero => cases read
  | succ fuel ih =>
    rw [readItems] at read
    simp only [Option.bind_eq_bind, Option.bind_eq_some_iff] at read
    obtain ⟨start, -, read⟩ := read
    split at read
    · cases read
      simp
    · simp only [Option.bind_eq_some_iff] at read
      obtain ⟨⟨first, behind⟩, here, found, -, read⟩ := read
      split at read
      · cases read
        exact List.forall_mem_cons.2 ⟨each here, by simp⟩
      · obtain ⟨⟨others, left⟩, later, done⟩ := Option.bind_eq_some_iff.1 read
        cases done
        exact List.forall_mem_cons.2 ⟨each here, ih later⟩
      · cases read

theorem forall_of_readEntries {α : Type} {P : α → Prop}
    {entry : List Char → Option (α × List Char)}
    (each : ∀ {cs a rest}, entry cs = some (a, rest) → P a) {fuel : Nat} {entries : List α}
    (read : readEntries entry fuel cs = some (entries, rest)) : ∀ a ∈ entries, P a := by
  induction fuel generalizing cs entries rest with
  | zero => cases read
  | succ fuel ih =>
    simp only [readEntries, Option.bind_eq_bind, Option.bind_eq_some_iff] at read
    obtain ⟨⟨first, behind⟩, here, read⟩ := read
    split at read
    · cases read
      exact List.forall_mem_cons.2 ⟨each here, by simp⟩
    · obtain ⟨⟨others, left⟩, later, done⟩ := Option.bind_eq_some_iff.1 read
      cases done
      exact List.forall_mem_cons.2 ⟨each here, ih later⟩
    · cases read

theorem fits_of_readEntry {value : List Char → Option (Value × List Char)}
    (each : ∀ {cs v rest}, value cs = some (v, rest) → v.Fits) {entry : List String × Value}
    (read : readEntry value cs = some (entry, rest)) : entry.2.Fits := by
  simp only [readEntry, Option.bind_eq_bind, Option.bind_eq_some_iff] at read
  obtain ⟨⟨path, behind⟩, -, read⟩ := read
  split at read
  · obtain ⟨⟨v, left⟩, here, done⟩ := Option.bind_eq_some_iff.1 read
    cases done
    exact each here
  · cases read

/-! ## Tables -/

/-- What each step keeps is kept by all of them. -/
theorem foldlM_induction {σ α : Type} {P : σ → Prop} {step : σ → α → Option σ} {as : List α}
    (keeps : ∀ {s a s'}, a ∈ as → P s → step s a = some s' → P s') {s s' : σ} (start : P s)
    (run : as.foldlM step s = some s') : P s' := by
  induction as generalizing s with
  | nil =>
    cases run
    exact start
  | cons a as ih =>
    obtain ⟨next, here, run⟩ := Option.bind_eq_some_iff.1 run
    exact ih (fun mem => keeps (List.mem_cons_of_mem a mem)) (keeps List.mem_cons_self start here)
      run

namespace Table

variable {t t' : Table Value} {key : String}

theorem fits_empty (origin : Origin) : (Table.empty origin : Table Value).Fits := by
  simp [Fits, empty]

theorem Fits.push (fits : t.Fits) (key : String) (new : v.Fits) : (t.push key v).Fits := by
  intro e mem
  rw [entries_push, List.mem_append, List.mem_singleton] at mem
  rcases mem with mem | rfl
  · exact fits e mem
  · exact new

theorem Fits.replace (fits : t.Fits) (key : String) (new : v.Fits) : (t.replace key v).Fits := by
  intro e mem
  obtain ⟨old, held, rfl⟩ := List.mem_map.1 mem
  split
  · exact new
  · exact fits old held

theorem Fits.erase (fits : t.Fits) (key : String) : (t.erase key).Fits := fun e mem =>
  fits e (List.mem_filter.1 mem).1

theorem Fits.of_find? (fits : t.Fits) (found : t.find? key = some v) : v.Fits := by
  obtain ⟨before, after, split, -⟩ := List.lookup_eq_some_iff.1 found
  exact fits (key, v) (by simp [split])

/-- What is taken at the end of a path, and what is left there, decide about the whole. -/
theorem Fits.visitAt {β : Type} {Q : β → Prop} {kind : PathKind}
    {visit : Table Value → Option (β × Table Value)}
    (visits : ∀ {t b t'}, t.Fits → visit t = some (b, t') → Q b ∧ t'.Fits) {path : List String}
    {b : β} (fits : t.Fits) (visited : Table.visitAt kind visit path t = some (b, t')) :
    Q b ∧ t'.Fits := by
  induction path generalizing t b t' with
  | nil => exact visits fits visited
  | cons key path ih =>
    rw [Table.visitAt] at visited
    split at visited
    · obtain ⟨⟨b, child⟩, inside, done⟩ := Option.bind_eq_some_iff.1 visited
      cases done
      have below := ih (fits_empty _) inside
      exact ⟨below.1, fits.push key (.table below.2)⟩
    · rename_i child found
      split at visited
      · obtain ⟨⟨b, child⟩, inside, done⟩ := Option.bind_eq_some_iff.1 visited
        cases done
        cases fits.of_find? found with
        | table all =>
          have below := ih all inside
          exact ⟨below.1, fits.replace key (.table below.2)⟩
      · cases visited
    · rename_i last earlier found
      obtain ⟨⟨b, child⟩, inside, done⟩ := Option.bind_eq_some_iff.1 visited
      cases done
      cases fits.of_find? found with
      | tables all =>
        obtain ⟨here, all⟩ := List.forall_mem_cons.1 all
        have below := ih here inside
        exact ⟨below.1, fits.replace key (.tables (List.forall_mem_cons.2 ⟨below.2, all⟩))⟩
    · cases visited

theorem Fits.changeAt {kind : PathKind} {change : Table Value → Option (Table Value)}
    (changes : ∀ {t t'}, t.Fits → change t = some t' → t'.Fits) {path : List String}
    (fits : t.Fits) (changed : Table.changeAt kind change path t = some t') : t'.Fits := by
  obtain ⟨⟨_, after⟩, visited, rfl⟩ := Option.map_eq_some_iff.1 changed
  refine (fits.visitAt (Q := fun _ => True) (fun {t b t'} fits visited => ?_) visited).2
  obtain ⟨left, done, same⟩ := Option.map_eq_some_iff.1 visited
  cases same
  exact ⟨trivial, changes fits done⟩

theorem Fits.defineAt (fits : t.Fits) {path : List String} (new : v.Fits)
    (defined : t.defineAt path v = some t') : t'.Fits := by
  obtain ⟨key, -, defined⟩ := Option.bind_eq_some_iff.1 defined
  refine fits.changeAt (fun {t t'} fits changed => ?_) defined
  repeat' split at changed
  all_goals cases changed
  exact fits.push key new

theorem fits_of_ofInline {entries : List (List String × Value)} (fit : ∀ e ∈ entries, e.2.Fits)
    (made : ofInline entries = some t) : t.Fits :=
  foldlM_induction (fun mem fits defined => fits.defineAt (fit _ mem) defined) (fits_empty .inlined)
    made

end Table

theorem fits_of_readArray {value : List Char → Option (Value × List Char)}
    (each : ∀ {cs v rest}, value cs = some (v, rest) → v.Fits) {fuel : Nat}
    (read : readArray value fuel cs = some (v, rest)) : v.Fits := by
  obtain ⟨⟨items, left⟩, read, done⟩ := Option.map_eq_some_iff.1 read
  cases done
  exact .array (forall_of_readItems each read)

theorem fits_of_readInlineTable {value : List Char → Option (Value × List Char)}
    (each : ∀ {cs v rest}, value cs = some (v, rest) → v.Fits) {fuel : Nat}
    (read : readInlineTable value fuel cs = some (v, rest)) : v.Fits := by
  rw [readInlineTable] at read
  split at read
  · cases read
    exact .table (Table.fits_empty _)
  · simp only [Option.bind_eq_bind, Option.bind_eq_some_iff] at read
    obtain ⟨⟨entries, left⟩, read, content, made, done⟩ := read
    cases done
    exact .table (Table.fits_of_ofInline (forall_of_readEntries (fits_of_readEntry each) read) made)

/-- Every whole number in a value that was read fits. -/
theorem fits_of_readNested {fuel depth : Nat} (read : readNested fuel depth cs = some (v, rest)) :
    v.Fits := by
  induction depth using Nat.strongRecOn generalizing cs v rest with
  | ind depth ih =>
    rw [readNested.eq_def] at read
    split at read
    · obtain ⟨⟨text, left⟩, -, done⟩ := Option.map_eq_some_iff.1 read
      cases done
      exact .string _
    · obtain ⟨⟨text, left⟩, -, done⟩ := Option.map_eq_some_iff.1 read
      cases done
      exact .string _
    · cases read
      exact .boolean _
    · cases read
      exact .boolean _
    · exact fits_of_readArray (ih _ (Nat.lt_succ_self _)) read
    · exact fits_of_readInlineTable (ih _ (Nat.lt_succ_self _)) read
    · exact fits_of_readScalar read

/-! ## Documents -/

/-- Every whole number in a line fits. -/
def Line.Fits : Line → Prop
  | .entry _ value => value.Fits
  | .header _ => True
  | .repeated _ => True

theorem fits_of_readLine {fuel : Nat} {line : Line} (read : readLine fuel cs = some (line, rest)) :
    line.Fits := by
  rw [readLine.eq_def] at read
  split at read
  · obtain ⟨⟨path, left⟩, -, done⟩ := Option.map_eq_some_iff.1 read
    cases done
    trivial
  · obtain ⟨⟨path, left⟩, -, done⟩ := Option.map_eq_some_iff.1 read
    cases done
    trivial
  · simp only [Option.bind_eq_bind, Option.bind_eq_some_iff] at read
    obtain ⟨⟨⟨path, value⟩, behind⟩, entry, left, -, done⟩ := read
    cases done
    exact fits_of_readEntry fits_of_readNested entry

theorem fits_of_readLines {fuel : Nat} {lines : List Line} (read : readLines fuel cs = some lines) :
    ∀ line ∈ lines, line.Fits := by
  induction fuel generalizing cs lines with
  | zero => cases read
  | succ fuel ih =>
    rw [readLines] at read
    split at read
    · cases read
      simp
    · split at read
      · obtain ⟨left, -, read⟩ := Option.bind_eq_some_iff.1 read
        exact ih read
      · simp only [Option.bind_eq_bind, Option.bind_eq_some_iff] at read
        obtain ⟨⟨line, left⟩, here, others, later, done⟩ := read
        cases done
        exact List.forall_mem_cons.2 ⟨fits_of_readLine here, ih later⟩

namespace Draft

/-- Every whole number in a document under construction fits. -/
structure Fits (d : Draft) : Prop where
  document : d.document.Fits
  current : d.current.Fits

variable {d d' : Draft} {t : Table Value}

theorem Fits.finish (fits : d.Fits) (finished : d.finish = some t) : t.Fits := by
  rw [Draft.finish] at finished
  split at finished
  · cases finished
    exact fits.current
  · rename_i key _
    refine fits.document.changeAt (fun {parent after} parentFits changed => ?_) finished
    split at changed
    · split at changed
      · rename_i last earlier found
        cases changed
        cases parentFits.of_find? found with
        | tables all =>
          exact parentFits.replace key (.tables (List.forall_mem_cons.2 ⟨fits.current, all⟩))
      · cases changed
      · cases changed
        exact parentFits.push key (.tables (List.forall_mem_cons.2 ⟨fits.current, by simp⟩))
    · cases changed
      exact parentFits.push key (.table fits.current)

theorem fits_of_takeOut {key : String} {parent taken left : Table Value} (fits : parent.Fits)
    (found : takeOut key parent = some (taken, left)) : taken.Fits ∧ left.Fits := by
  rw [takeOut] at found
  split at found
  · cases found
    exact ⟨Table.fits_empty _, fits⟩
  · rename_i value here
    obtain ⟨t, opened, same⟩ := Option.map_eq_some_iff.1 found
    cases same
    refine ⟨?_, fits.erase key⟩
    rw [opened?.eq_def] at opened
    split at opened
    · split at opened
      · cases opened
        cases fits.of_find? here with
        | table all => exact all
      · cases opened
    · cases opened

theorem Fits.openTable (fits : d.Fits) {path : List String} (opened : d.openTable path = some d') :
    d'.Fits := by
  simp only [Draft.openTable, Option.bind_eq_bind, Option.bind_eq_some_iff] at opened
  obtain ⟨document, finished, key, -, ⟨current, left⟩, visited, done⟩ := opened
  cases done
  have taken := (fits.finish finished).visitAt fits_of_takeOut visited
  exact ⟨taken.2, taken.1⟩

theorem Fits.openRepeated (fits : d.Fits) {path : List String}
    (opened : d.openRepeated path = some d') : d'.Fits := by
  simp only [Draft.openRepeated, Option.bind_eq_bind, Option.bind_eq_some_iff] at opened
  obtain ⟨document, finished, key, -, left, changed, done⟩ := opened
  cases done
  have kept := (fits.finish finished).changeAt (fun {t t'} fits changed => ?_) changed
  · exact ⟨kept, Table.fits_empty _⟩
  split at changed <;> cases changed
  exact fits

theorem Fits.add (fits : d.Fits) {line : Line} (new : line.Fits) (added : d.add line = some d') :
    d'.Fits := by
  cases line with
  | entry path value =>
    obtain ⟨current, defined, done⟩ := Option.map_eq_some_iff.1 added
    cases done
    exact ⟨fits.document, fits.current.defineAt new defined⟩
  | header path => exact fits.openTable added
  | repeated path => exact fits.openRepeated added

end Draft

/-- **Every whole number in a document that was read fits.** -/
theorem fits_of_readDocument {text : String} {document : Table Value}
    (read : readDocument text = some document) : document.Fits := by
  obtain ⟨lines, read, assembled⟩ := Option.bind_eq_some_iff.1 read
  obtain ⟨draft, run, finished⟩ := Option.bind_eq_some_iff.1 assembled
  have start : Draft.start.Fits := ⟨Table.fits_empty _, Table.fits_empty _⟩
  have fits : draft.Fits := foldlM_induction
    (fun mem fits added => Draft.Fits.add fits (fits_of_readLines read _ mem) added) start run
  exact fits.finish finished

end MediaSweep.Toml
