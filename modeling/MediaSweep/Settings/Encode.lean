import MediaSweep.Settings.Basic
import MediaSweep.Toml.QuoteStyle

/-!
# Writing settings

Settings are written as a document with one table for each group, every value on a line of its own
in the fixed order, and no line for a stylesheet that is not set.  A list of at least two items is
spread over lines.  Numbers have to fit into 64 bits with a sign; if one does not, nothing is
written.
-/

namespace MediaSweep

set_option autoImplicit false

/-- The greatest number that can be written. -/
def greatestWritten : Nat := Nat.pow 2 63 - 1

/-- What is told of a number that cannot be written. -/
def unwritableNumber : String := "out-of-range value for u64 type"

/-- A number in decimal digits, if it can be written. -/
def writeNatural (n : Nat) : Except String String :=
  if n ≤ greatestWritten then .ok (toString n) else .error unwritableNumber

/-- A list of written items. -/
def writeList : List String → String
  | [] => "[]"
  | [item] => "[" ++ item ++ "]"
  | items => "[\n" ++ String.join (items.map fun item => "    " ++ item ++ ",\n") ++ "]"

/-- A line that sets a value. -/
def settingLine (name value : String) : String :=
  name ++ " = " ++ value ++ "\n"

namespace BlanketSettings

/-- The table of the settings for all stylesheets under a root. -/
def toText (s : BlanketSettings) : Except String String := do
  let most ← writeNatural s.maxBlankLines
  return "[blanket]\n" ++ settingLine "root" (Toml.quote s.root.text)
    ++ settingLine "subdirs" (writeList (s.subdirs.map Toml.quote))
    ++ settingLine "extension" (Toml.quote s.extension)
    ++ settingLine "backup" (toString s.backup)
    ++ settingLine "max_blank_lines" most

end BlanketSettings

namespace TargetedSettings

/-- The table of the settings for one stylesheet. -/
def toText (s : TargetedSettings) : Except String String := do
  let lines ← s.lines.mapM writeNatural
  let file :=
    match s.file with
    | some path => settingLine "file" (Toml.quote path.text)
    | none => ""
  return "[targeted]\n" ++ file ++ settingLine "lines" (writeList lines)

end TargetedSettings

namespace Settings

/-- The document of some settings. -/
def toText (s : Settings) : Except String String := do
  let blanket ← s.blanket.toText
  let targeted ← s.targeted.toText
  return blanket ++ "\n" ++ targeted

end Settings

end MediaSweep
