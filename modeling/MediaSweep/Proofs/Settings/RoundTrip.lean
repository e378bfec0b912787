import MediaSweep.Proofs.Steps
import MediaSweep.Proofs.Toml.Lines
import MediaSweep.Proofs.Toml.Sections
import MediaSweep.Settings.Decode

/-!
# Settings read back

Settings can be written exactly when their numbers fit into 64 bits with a sign
(`Settings.exists_toText_iff`), and what was written is read as the same settings
(`Settings.ofText_of_toText`), whatever characters their texts have.

Each group is written as the lines of one table, so the readers of lines and of tables leave only
one question: whether the entries of a table, taken up one after the other, make the group they were
made from.  All fields of a group are written but a stylesheet that is not set, and not to be set is
also what a group starts out with.
-/

namespace MediaSweep

set_option autoImplicit false

open Toml (Value Writes WritesLines)

/-! ## Numbers and lists that can be written -/

theorem writeNatural_of_le {n : Nat} (fits : n ≤ greatestWritten) :
    writeNatural n = .ok (toString n) :=
  if_pos fits

theorem le_of_writeNatural {n : Nat} {text : String} (written : writeNatural n = .ok text) :
    n ≤ greatestWritten := by
  rw [writeNatural] at written
  split at written
  · assumption
  · exact absurd written (by simp)

theorem mapM_writeNatural {ns : List Nat} (fit : ∀ n ∈ ns, n ≤ greatestWritten) :
    ns.mapM writeNatural = .ok (ns.map toString) :=
  mapM_eq_pure fun n mem => writeNatural_of_le (fit n mem)

theorem le_of_mapM_writeNatural {ns : List Nat} {texts : List String}
    (written : ns.mapM writeNatural = .ok texts) : ∀ n ∈ ns, n ≤ greatestWritten := by
  intro n mem
  obtain ⟨text, one⟩ := (each_of_mapM_eq_ok written).1 n mem
  exact le_of_writeNatural one

namespace Toml

variable {depth : Nat}

theorem Writes.quote (text : String) : Writes depth (quote text).toList (.string text) := by
  rw [Toml.quote, String.toList_ofList]
  have written := @Writes.quoteChars depth text.toList
  rwa [String.ofList_toList] at written

theorem Writes.toString_natural {n : Nat} (fits : n ≤ greatestWritten) :
    Writes depth (toString n).toList (.integer n) := by
  have small : n < signedBound := Nat.lt_of_le_of_lt fits (by decide)
  rw [Nat.toString_eq_ofList_toDigits, String.toList_ofList]
  exact Writes.natural small

end Toml

namespace Toml.WritesLines

theorem setting (name : String) {text : String} {value : Value}
    (bare : isBare name.toList = true)
    (written : Writes (depthLimit - 1) text.toList value) :
    WritesLines (settingLine name text).toList [.entry [name] value] := by
  have line : (settingLine name text).toList = entryLine name.toList text.toList := by
    simp [settingLine, entryLine]
  have read := WritesLines.entry bare written
  rwa [← line, String.ofList_toList] at read

end Toml.WritesLines

/-- A list is read item by item. -/
theorem list_map {α : Type} {item : Decoder α} {value : α → Value} (xs : List α)
    (read : ∀ x, item (value x) = .ok x) : Decoder.list item (.array (xs.map value)) = .ok xs := by
  rw [Decoder.list, List.mapM_map]
  exact (mapM_eq_pure fun x _ => read x).trans (congrArg Except.ok (List.map_id' xs))

/-! ## Groups -/

namespace BlanketSettings

/-- The table of the settings. -/
def table (s : BlanketSettings) : Toml.Section :=
  ("blanket",
    [("root", .string s.root.text), ("subdirs", .array (s.subdirs.map .string)),
      ("extension", .string s.extension), ("backup", .boolean s.backup),
      ("max_blank_lines", .integer s.maxBlankLines)])

theorem exists_toText {s : BlanketSettings} (fits : s.maxBlankLines ≤ greatestWritten) :
    ∃ text, s.toText = .ok text ∧ text.toList.head? = some '[' ∧
      WritesLines text.toList s.table.lines := by
  refine ⟨_, by rw [toText, writeNatural_of_le fits]; rfl, by simp, ?_⟩
  have header : WritesLines "[blanket]\n".toList [.header ["blanket"]] :=
    WritesLines.header "blanket".toList (by decide)
  have root : WritesLines _ _ := .setting "root" (by decide) (.quote s.root.text)
  have subdirs : WritesLines _ _ := .setting "subdirs" (by decide)
    (.list fun text (_ : text ∈ s.subdirs) => .quote text)
  have extension : WritesLines _ _ := .setting "extension" (by decide) (.quote s.extension)
  have backup : WritesLines _ _ := .setting "backup" (by decide) (.boolean s.backup)
  have most : WritesLines _ _ := .setting "max_blank_lines" (by decide)
    (.toString_natural fits)
  simp only [String.toList_append]
  exact ((((header.append root).append subdirs).append extension).append backup).append most

theorem decode_table (s : BlanketSettings) :
    Field.decodeGroup fields "BlanketConfig" {} (.table s.table.table) = .ok s := by
  have read : Decoder.list Decoder.text (.array (s.subdirs.map .string)) = .ok s.subdirs :=
    list_map s.subdirs fun _ => rfl
  simp [Field.decodeGroup, table, Toml.Section.table, Field.takeEntry, fields, Decoder.path,
    Decoder.text, Decoder.bool, Decoder.natural, read, bind, Except.bind, pure, Except.pure]

end BlanketSettings

namespace TargetedSettings

/-- The table of the settings. -/
def table (s : TargetedSettings) : Toml.Section :=
  ("targeted",
    (s.file.map fun path => ("file", .string path.text)).toList
      ++ [("lines", .array (s.lines.map fun n : Nat => .integer n))])

theorem exists_toText {s : TargetedSettings} (fit : ∀ n ∈ s.lines, n ≤ greatestWritten) :
    ∃ text, s.toText = .ok text ∧ WritesLines text.toList s.table.lines := by
  refine ⟨_, by rw [toText, mapM_writeNatural fit]; rfl, ?_⟩
  have header : WritesLines "[targeted]\n".toList [.header ["targeted"]] :=
    WritesLines.header "targeted".toList (by decide)
  have lines : WritesLines _ _ := .setting "lines" (by decide)
    (.list fun n mem => .toString_natural (fit n mem))
  rw [table]
  cases s.file with
  | none =>
    simp only [String.toList_append, String.toList_empty, List.append_nil]
    exact header.append lines
  | some path =>
    have file : WritesLines _ _ := .setting "file" (by decide) (.quote path.text)
    simp only [String.toList_append]
    exact (header.append file).append lines

theorem decode_table (s : TargetedSettings) :
    Field.decodeGroup fields "TargetedConfig" {} (.table s.table.table) = .ok s := by
  obtain ⟨file, lines⟩ := s
  have read : Decoder.list Decoder.natural (.array (lines.map fun n : Nat => .integer n))
      = .ok lines := list_map lines fun _ => rfl
  cases file <;>
    simp [Field.decodeGroup, table, Toml.Section.table, Field.takeEntry, fields, Decoder.path, read,
      bind, Except.bind, pure, Except.pure]

end TargetedSettings

namespace Settings

/-- Whether every number can be written. -/
structure IsWritable (s : Settings) : Prop where
  maxBlankLines : s.blanket.maxBlankLines ≤ greatestWritten
  lines : ∀ n ∈ s.targeted.lines, n ≤ greatestWritten

/-- The tables that settings are written as. -/
def sections (s : Settings) : List Toml.Section :=
  [s.blanket.table, s.targeted.table]

theorem exists_toText {s : Settings} (writable : s.IsWritable) :
    ∃ text, s.toText = .ok text ∧ text.toList.head? = some '[' ∧
      WritesLines text.toList (s.sections.flatMap Toml.Section.lines) := by
  obtain ⟨blanket, wroteBlanket, bracket, first⟩ := s.blanket.exists_toText writable.maxBlankLines
  obtain ⟨targeted, wroteTargeted, second⟩ := s.targeted.exists_toText writable.lines
  refine ⟨blanket ++ "\n" ++ targeted, by rw [toText, wroteBlanket, wroteTargeted]; rfl, ?_, ?_⟩
  · rw [String.toList_append, String.toList_append, List.append_assoc, List.head?_append, bracket]
    rfl
  · simp only [String.toList_append, sections, List.flatMap_cons, List.flatMap_nil, List.append_nil]
    exact (first.append .blank).append second

theorem nodup_sections (s : Settings) :
    (s.sections.map Prod.fst).Nodup ∧ ∀ t ∈ s.sections, (t.2.map Prod.fst).Nodup := by
  have blanket : (s.blanket.table.2.map Prod.fst).Nodup := by
    simp only [BlanketSettings.table, List.map_cons, List.map_nil]
    decide
  have targeted : (s.targeted.table.2.map Prod.fst).Nodup := by
    rw [TargetedSettings.table]
    cases s.targeted.file <;>
    · simp only [Option.map_none, Option.map_some, Option.toList, List.nil_append, List.cons_append,
        List.map_cons, List.map_nil]
      decide
  refine ⟨?_, List.forall_mem_cons.2 ⟨blanket, List.forall_mem_cons.2 ⟨targeted, by simp⟩⟩⟩
  change ["blanket", "targeted"].Nodup
  decide

theorem ofText_of_writesLines {s : Settings} {text : String}
    (bracket : text.toList.head? = some '[')
    (written : WritesLines text.toList (s.sections.flatMap Toml.Section.lines)) :
    ofText text = .ok s := by
  have noMark : Toml.skipMark text.toList = text.toList := by
    cases first : text.toList with
    | nil => rfl
    | cons c more =>
      rw [first, List.head?_cons, Option.some.injEq] at bracket
      rw [bracket]
      rfl
  have document : Toml.readDocument text
      = some ⟨.header, s.sections.map fun t => (t.1, .table t.table)⟩ := by
    rw [Toml.readDocument, noMark]
    simp only [written.readLines_eq (Nat.lt_succ_self _), Option.bind_some]
    exact Toml.ofLines_sections s.nodup_sections.1 s.nodup_sections.2
  rw [ofText, document]
  change List.foldlM (Field.takeEntry Settings.fields) {}
    [("blanket", .table s.blanket.table.table), ("targeted", .table s.targeted.table.table)]
      = Except.ok s
  simp [Field.takeEntry, fields, s.blanket.decode_table, s.targeted.decode_table, bind, Except.bind,
    pure, Except.pure]

/-- **Settings can be written exactly when their numbers fit.** -/
theorem exists_toText_iff {s : Settings} : (∃ text, s.toText = .ok text) ↔ s.IsWritable := by
  constructor
  · rintro ⟨text, written⟩
    obtain ⟨blanket, wroteBlanket, written⟩ := exists_of_bind_eq_ok written
    obtain ⟨targeted, wroteTargeted, -⟩ := exists_of_bind_eq_ok written
    obtain ⟨most, wroteMost, -⟩ := exists_of_bind_eq_ok wroteBlanket
    obtain ⟨lines, wroteLines, -⟩ := exists_of_bind_eq_ok wroteTargeted
    exact ⟨le_of_writeNatural wroteMost, le_of_mapM_writeNatural wroteLines⟩
  · intro writable
    obtain ⟨text, written, -, -⟩ := exists_toText writable
    exact ⟨text, written⟩

/-- **What was written is read as the same settings.** -/
theorem ofText_of_toText {s : Settings} {text : String} (written : s.toText = .ok text) :
    ofText text = .ok s := by
  obtain ⟨again, rewritten, bracket, lines⟩ := exists_toText (exists_toText_iff.1 ⟨text, written⟩)
  cases written.symm.trans rewritten
  exact ofText_of_writesLines bracket lines

end Settings

end MediaSweep
