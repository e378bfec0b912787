import MediaSweep.Number.Shortest
import MediaSweep.Settings.Basic
import MediaSweep.Text.Quoted
import MediaSweep.Toml.Document

/-!
# Reading settings

Settings are read from a document with a table for each group.  What the document does not mention
keeps its value, and what nobody knows is passed over.  Entries are taken up in the order of the
document, and the first one that does not fit is what is told.

A group may also be written as an array of its values in their fixed order; what the array is too
short for keeps its value, and what it has too much is passed over.
-/

namespace MediaSweep

set_option autoImplicit false

/-! ## What does not fit -/

/-- What is wrong with a document of settings. -/
inductive SettingsFault where
  | malformed
  | wrongType (found : Toml.Value) (expected : String)
  | outOfRange (number : Int) (expected : String)

namespace SettingsFault

/-- How a value is named. -/
def describe : Toml.Value → String
  | .string text => "string " ++ Text.quoted text
  | .integer number => s!"integer `{number}`"
  | .float number => s!"floating point `{number.text}`"
  | .boolean flag => s!"boolean `{flag}`"
  | .moment => "map"
  | .table _ => "map"
  | .array _ => "sequence"
  | .tables _ _ => "sequence"

/-- The text of a fault; a malformed document has none of its own. -/
def message? : SettingsFault → Option String
  | malformed => none
  | wrongType found expected => some s!"invalid type: {describe found}, expected {expected}"
  | outOfRange number expected =>
    some s!"invalid value: integer `{number}`, expected {expected}"

end SettingsFault

/-! ## Single values -/

/-- A reader of one value. -/
abbrev Decoder (α : Type) := Toml.Value → Except SettingsFault α

namespace Decoder

/-- Read a value that is true or false. -/
def bool : Decoder Bool
  | .boolean flag => .ok flag
  | value => .error (.wrongType value "a boolean")

/-- Read a text. -/
def text : Decoder String
  | .string text => .ok text
  | value => .error (.wrongType value "a string")

/-- Read a path.  Every text is one; what does not fit is told in other words than for a text. -/
def path : Decoder Path
  | .string text => .ok ⟨text⟩
  | value => .error (.wrongType value "path string")

/-- How numbers that are counts or line numbers are called. -/
def naturalName : String := "usize"

/-- Read a number that is not negative. -/
def natural : Decoder Nat
  | .integer (.ofNat n) => .ok n
  | .integer number => .error (.outOfRange number naturalName)
  | value => .error (.wrongType value naturalName)

/-- A list of values of one kind. -/
def list {α : Type} (item : Decoder α) : Decoder (List α)
  | .array items => items.mapM item
  | .tables last earlier => (last :: earlier).reverse.mapM fun t => item (.table t)
  | value => .error (.wrongType value "a sequence")

end Decoder

/-! ## Groups of values -/

/-- A named part of a group, and how its value is put into the group. -/
structure Field (α : Type) where
  name : String
  set : α → Decoder α

/-- Take up an entry of a table. -/
def Field.takeEntry {α : Type} (fields : List (Field α)) (group : α)
    (entry : String × Toml.Value) : Except SettingsFault α :=
  match fields.find? (·.name = entry.1) with
  | some field => field.set group entry.2
  | none => .ok group

/-- Take up the values of an array one after the other. -/
def Field.takeInOrder {α : Type} (group : α) : List (Field α) → List Toml.Value →
    Except SettingsFault α
  | field :: fields, value :: values => do
    takeInOrder (← field.set group value) fields values
  | _, _ => .ok group

/-- Read a group that starts out with its usual values. -/
def Field.decodeGroup {α : Type} (fields : List (Field α)) (name : String) (usual : α) : Decoder α
  | .table content => content.entries.foldlM (takeEntry fields) usual
  | .moment => .ok usual
  | .array items => takeInOrder usual fields items
  | .tables last earlier => takeInOrder usual fields ((last :: earlier).reverse.map .table)
  | value => .error (.wrongType value ("struct " ++ name))

/-- The settings for all stylesheets under a root. -/
def BlanketSettings.fields : List (Field BlanketSettings) :=
  [⟨"root", fun s v => do return { s with root := ← Decoder.path v }⟩,
    ⟨"subdirs", fun s v => do return { s with subdirs := ← Decoder.list Decoder.text v }⟩,
    ⟨"extension", fun s v => do return { s with extension := ← Decoder.text v }⟩,
    ⟨"backup", fun s v => do return { s with backup := ← Decoder.bool v }⟩,
    ⟨"max_blank_lines", fun s v => do return { s with maxBlankLines := ← Decoder.natural v }⟩]

/-- The settings for one stylesheet. -/
def TargetedSettings.fields : List (Field TargetedSettings) :=
  [⟨"file", fun s v => do return { s with file := some (← Decoder.path v) }⟩,
    ⟨"lines", fun s v => do return { s with lines := ← Decoder.list Decoder.natural v }⟩]

/-- The groups of settings. -/
def Settings.fields : List (Field Settings) :=
  [⟨"blanket", fun s v => do
      return { s with blanket := ← Field.decodeGroup BlanketSettings.fields "BlanketConfig" {} v }⟩,
    ⟨"targeted", fun s v => do
      return { s with
        targeted := ← Field.decodeGroup TargetedSettings.fields "TargetedConfig" {} v }⟩]

/-- Read settings from the text of a document.  What is missing keeps its usual value, so the empty
text gives the usual settings. -/
def Settings.ofText (text : String) : Except SettingsFault Settings :=
  match Toml.readDocument text with
  | none => .error .malformed
  | some document => document.entries.foldlM (Field.takeEntry Settings.fields) {}

end MediaSweep
