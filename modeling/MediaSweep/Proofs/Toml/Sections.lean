import MediaSweep.Toml.Document

/-!
# Documents of plain tables

Most documents are a row of tables, each with a header of one key and entries of one key.  If no
name comes twice, such lines put together are exactly these tables (`ofLines_sections`).

The table of the last header is kept aside until it is finished, so what is invariant is not the
document so far but what it would be if the open table were finished now.
-/

namespace MediaSweep.Toml

set_option autoImplicit false

/-- A table with a header, by its name. -/
abbrev Section := String × List (String × Value)

namespace Section

/-- The lines of a table: its header, and one for each entry. -/
def lines (s : Section) : List Line :=
  .header [s.1] :: s.2.map fun e => .entry [e.1] e.2

/-- The table that a document has for these lines. -/
def table (s : Section) : Table Value :=
  ⟨.header, s.2⟩

end Section

namespace Table

variable {α : Type} {t : Table α} {key : String}

theorem find?_eq_none_iff : t.find? key = none ↔ key ∉ t.entries.map Prod.fst := by
  rw [find?, List.lookup_eq_none_iff, List.mem_map]
  constructor
  · rintro absent ⟨e, mem, rfl⟩
    exact absurd (absent e mem) (by simp)
  · intro absent e mem
    simp only [bne_iff_ne, ne_eq]
    exact fun same => absent ⟨e, mem, same.symm⟩

theorem defineAt_new {t : Table Value} (value : Value) (opened : t.origin ≠ .dotted)
    (new : t.find? key = none) : t.defineAt [key] value = some (t.push key value) := by
  simp [defineAt, define, changeAt, visitAt, new, opened]

end Table

namespace Draft

variable {d : Draft} {document : Table Value}

/-- Entries with names of their own come behind the entries of the open table. -/
theorem foldlM_add_entries {entries : List (String × Value)} (opened : d.current.origin ≠ .dotted)
    (names : ((d.current.entries ++ entries).map Prod.fst).Nodup) :
    (entries.map fun e => Line.entry [e.1] e.2).foldlM add d =
      some { d with current := ⟨d.current.origin, d.current.entries ++ entries⟩ } := by
  induction entries generalizing d with
  | nil => simp
  | cons e entries ih =>
    have inOrder : d.current.entries ++ e :: entries
        = (d.current.push e.1 e.2).entries ++ entries := by simp
    rw [inOrder] at names ⊢
    have new : d.current.find? e.1 = none := by
      rw [Table.find?_eq_none_iff]
      rw [List.map_append, Table.entries_push, List.map_append] at names
      have apart := (List.nodup_append.1 (List.nodup_append.1 names).1).2.2
      exact fun mem => apart e.1 mem e.1 (by simp) rfl
    have added : d.add (.entry [e.1] e.2) = some { d with current := d.current.push e.1 e.2 } := by
      rw [add, Table.defineAt_new e.2 opened new, Option.map_some]
    have later := @ih { d with current := d.current.push e.1 e.2 } opened names
    rw [List.map_cons, List.foldlM_cons, added, Option.bind_eq_bind, Option.bind_some, later]
    rfl

theorem add_header {name : String} (finished : d.finish = some document)
    (new : document.find? name = none) :
    d.add (.header [name]) = some ⟨document, .empty .header, [name], false⟩ := by
  simp [add, openTable, finished, Table.visitAt, takeOut, new]

theorem finish_named (document current : Table Value) (name : String) :
    finish ⟨document, current, [name], false⟩ = some (document.push name (.table current)) := by
  simp [finish, Table.changeAt, Table.visitAt]

/-- A table that is written behind a finished document is an entry of it. -/
theorem foldlM_add_lines {s : Section} (finished : d.finish = some document)
    (new : document.find? s.1 = none) (names : (s.2.map Prod.fst).Nodup) :
    ∃ after, s.lines.foldlM add d = some after ∧
      after.finish = some (document.push s.1 (.table s.table)) := by
  obtain ⟨name, entries⟩ := s
  have opened : (Table.empty .header : Table Value).origin ≠ .dotted := by simp [Table.empty]
  refine ⟨_, ?_, finish_named document ⟨.header, entries⟩ name⟩
  rw [Section.lines, List.foldlM_cons, add_header finished new, Option.bind_eq_bind,
    Option.bind_some]
  exact foldlM_add_entries opened names

theorem finish_foldlM_sections {sections : List Section} (finished : d.finish = some document)
    (names : (document.entries.map Prod.fst ++ sections.map Prod.fst).Nodup)
    (keys : ∀ s ∈ sections, (s.2.map Prod.fst).Nodup) :
    ((sections.flatMap Section.lines).foldlM add d).bind finish =
      some ⟨document.origin, document.entries ++ sections.map fun s => (s.1, .table s.table)⟩ := by
  induction sections generalizing d document with
  | nil => simpa using finished
  | cons s sections ih =>
    obtain ⟨here, keys⟩ := List.forall_mem_cons.1 keys
    have new : document.find? s.1 = none := by
      rw [Table.find?_eq_none_iff]
      exact fun mem => (List.nodup_append.1 names).2.2 s.1 mem s.1 (by simp) rfl
    obtain ⟨after, run, finished⟩ := foldlM_add_lines finished new here
    have later := ih finished (by simpa using names) keys
    rw [List.flatMap_cons, List.foldlM_append, run, Option.bind_eq_bind, Option.bind_some, later]
    simp

end Draft

/-- **Tables with different names, put together, are the document.** -/
theorem ofLines_sections {sections : List Section} (names : (sections.map Prod.fst).Nodup)
    (keys : ∀ s ∈ sections, (s.2.map Prod.fst).Nodup) :
    ofLines (sections.flatMap Section.lines) =
      some ⟨.header, sections.map fun s => (s.1, .table s.table)⟩ :=
  Draft.finish_foldlM_sections (d := .start) rfl names keys

end MediaSweep.Toml
