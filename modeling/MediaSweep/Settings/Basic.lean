import MediaSweep.Sheet.BlankRun
import MediaSweep.Storage.Path

/-!
# Settings

What a run needs to know and is not told: where the stylesheets are, which of them to clean and how,
and which blocks of which stylesheet to take out.  Each setting has a value that it takes when
nobody sets it.
-/

namespace MediaSweep

set_option autoImplicit false

/-- Settings for cleaning all stylesheets under a root. -/
structure BlanketSettings where
  /-- The directory of the stylesheets. -/
  root : Path := ⟨"public/css"⟩
  /-- The subdirectories of the root whose stylesheets are cleaned as well. -/
  subdirs : List String := ["modules", "tokens"]
  /-- The extension of stylesheets. -/
  extension : String := "css"
  /-- Whether the root is copied before anything is changed. -/
  backup : Bool := true
  /-- How many blank lines in a row are kept. -/
  maxBlankLines : Nat := defaultBlankLines
  deriving DecidableEq, Repr, Inhabited

/-- Settings for taking blocks out of one stylesheet. -/
structure TargetedSettings where
  /-- The stylesheet. -/
  file : Option Path := none
  /-- The numbers of the lines where the blocks start. -/
  lines : List Nat := []
  deriving DecidableEq, Repr, Inhabited

/-- All settings, in their two groups. -/
structure Settings where
  blanket : BlanketSettings := {}
  targeted : TargetedSettings := {}
  deriving DecidableEq, Repr, Inhabited

end MediaSweep
