import MediaSweep.Proofs.Settings.RoundTrip
import MediaSweep.Proofs.Toml.Integers

/-!
# Settings that were read can be written

The numbers of settings that were read come from whole numbers of the document, or they are the ones
that nobody set; both fit, so these settings can be written (`Settings.isWritable_of_ofText`).

A group is made by taking up one value after the other, whether they come with their names or in
their order.  What every field keeps, the whole group keeps, and each group only has one field that
takes up numbers.
-/

namespace MediaSweep

set_option autoImplicit false

open Toml (Value)

variable {α : Type} {v : Value}

/-! ## Single values -/

theorem Decoder.natural_le {n : Nat} (fits : v.Fits) (read : Decoder.natural v = .ok n) :
    n ≤ greatestWritten := by
  rw [Decoder.natural.eq_def] at read
  split at read
  · cases read
    cases fits with
    | integer low high =>
      have small : n < Toml.signedBound := Int.ofNat_lt.1 high
      exact Nat.le_sub_one_of_lt small
  · cases read
  · cases read

theorem Decoder.forall_of_list {P : α → Prop} {item : Decoder α}
    (each : ∀ {v a}, v.Fits → item v = .ok a → P a) (fits : v.Fits) {items : List α}
    (read : Decoder.list item v = .ok items) : ∀ a ∈ items, P a := by
  intro a mem
  rw [Decoder.list.eq_def] at read
  split at read
  · obtain ⟨one, held, done⟩ := (each_of_mapM_eq_ok read).2 a mem
    cases fits with
    | array all => exact each (all one held) done
  · obtain ⟨t, held, done⟩ := (each_of_mapM_eq_ok read).2 a mem
    cases fits with
    | tables all => exact each (.table (all t (List.mem_reverse.1 held))) done
  · cases read

/-! ## Groups -/

namespace Field

/-- Whether a property of a group is kept by all of its fields, as long as their numbers fit. -/
def Keep (fields : List (Field α)) (P : α → Prop) : Prop :=
  ∀ field ∈ fields, ∀ {group after : α} {v : Value}, v.Fits → P group →
    field.set group v = .ok after → P after

variable {fields : List (Field α)} {P : α → Prop} {group after : α}

theorem Keep.takeEntry (keep : Keep fields P) {entry : String × Value} (fits : entry.2.Fits)
    (holds : P group) (taken : takeEntry fields group entry = .ok after) : P after := by
  rw [Field.takeEntry] at taken
  split at taken
  · rename_i field found
    exact keep field (List.mem_of_find?_eq_some found) fits holds taken
  · cases taken
    exact holds

theorem Keep.takeEntries (keep : Keep fields P) {entries : List (String × Value)}
    (fit : ∀ e ∈ entries, e.2.Fits) (holds : P group)
    (taken : entries.foldlM (Field.takeEntry fields) group = .ok after) : P after := by
  induction entries generalizing group with
  | nil =>
    cases taken
    exact holds
  | cons e entries ih =>
    obtain ⟨here, fit⟩ := List.forall_mem_cons.1 fit
    obtain ⟨next, first, taken⟩ := exists_of_bind_eq_ok taken
    exact ih fit (keep.takeEntry here holds first) taken

theorem Keep.takeInOrder (keep : Keep fields P) {values : List Value} (fit : ∀ v ∈ values, v.Fits)
    (holds : P group) (taken : takeInOrder group fields values = .ok after) : P after := by
  induction fields generalizing group values with
  | nil =>
    cases taken
    exact holds
  | cons field fields ih =>
    cases values with
    | nil =>
      cases taken
      exact holds
    | cons v values =>
      obtain ⟨here, fit⟩ := List.forall_mem_cons.1 fit
      obtain ⟨next, first, taken⟩ := exists_of_bind_eq_ok taken
      obtain ⟨keepFirst, keep⟩ := List.forall_mem_cons.1 keep
      exact ih keep fit (keepFirst here holds first) taken

theorem Keep.decodeGroup (keep : Keep fields P) {name : String} (usual : P group) (fits : v.Fits)
    (read : decodeGroup fields name group v = .ok after) : P after := by
  rw [Field.decodeGroup.eq_def] at read
  split at read
  · cases fits with
    | table all => exact keep.takeEntries all usual read
  · cases read
    exact usual
  · cases fits with
    | array all => exact keep.takeInOrder all usual read
  · cases fits with
    | tables all =>
      refine keep.takeInOrder (fun v mem => ?_) usual read
      obtain ⟨t, held, rfl⟩ := List.mem_map.1 mem
      exact .table (all t (List.mem_reverse.1 held))
  · cases read

end Field

/-! ## Settings -/

theorem BlanketSettings.keep_maxBlankLines :
    Field.Keep fields fun s => s.maxBlankLines ≤ greatestWritten := by
  intro field mem group after v fits holds set
  simp only [fields, List.mem_cons, List.not_mem_nil, or_false] at mem
  rcases mem with rfl | rfl | rfl | rfl | rfl
  all_goals
    obtain ⟨value, read, done⟩ := exists_of_bind_eq_ok set
    cases done
  · exact holds
  · exact holds
  · exact holds
  · exact holds
  · exact Decoder.natural_le fits read

theorem TargetedSettings.keep_lines :
    Field.Keep fields fun s => ∀ n ∈ s.lines, n ≤ greatestWritten := by
  intro field mem group after v fits holds set
  simp only [fields, List.mem_cons, List.not_mem_nil, or_false] at mem
  rcases mem with rfl | rfl
  all_goals
    obtain ⟨value, read, done⟩ := exists_of_bind_eq_ok set
    cases done
  · exact holds
  · exact Decoder.forall_of_list Decoder.natural_le fits read

namespace Settings

theorem isWritable_default : IsWritable {} := by
  constructor <;> decide

theorem keep_isWritable : Field.Keep fields IsWritable := by
  intro field mem group after v fits holds set
  simp only [fields, List.mem_cons, List.not_mem_nil, or_false] at mem
  rcases mem with rfl | rfl
  all_goals
    obtain ⟨value, read, done⟩ := exists_of_bind_eq_ok set
    cases done
  · exact ⟨BlanketSettings.keep_maxBlankLines.decodeGroup isWritable_default.1 fits read, holds.2⟩
  · exact ⟨holds.1, TargetedSettings.keep_lines.decodeGroup isWritable_default.2 fits read⟩

/-- **Settings that were read can be written.** -/
theorem isWritable_of_ofText {s : Settings} {text : String} (read : ofText text = .ok s) :
    s.IsWritable := by
  rw [ofText] at read
  split at read
  · cases read
  · rename_i document found
    exact keep_isWritable.takeEntries (Toml.fits_of_readDocument found) isWritable_default read

end Settings

end MediaSweep
