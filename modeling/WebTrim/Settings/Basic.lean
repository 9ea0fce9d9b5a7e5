import WebTrim.Text.Basic

/-!
# Settings

What a pass does: which files it takes, which names it shortens, and which other steps it runs.
-/

set_option autoImplicit false

namespace WebTrim

/-- The settings of a pass. -/
structure Settings where
  /-- File name endings to look for. -/
  extensions : List Text := [".html".toList, ".css".toList, ".js".toList]
  renameProperties : Bool := true
  renameClasses : Bool := true
  renameIds : Bool := true
  renameScopeIds : Bool := true
  /-- What stands before a scope id. -/
  scopeLead : Text := "astro-cid-".toList
  /-- Custom properties shorter than this many bytes keep their names. -/
  propertyMinLength : Nat := 6
  foldCalc : Bool := true
  foldColors : Bool := true
  minifyStylesheets : Bool := true
  minifyShaders : Bool := true
  /-- How many files are worked on at the same time; by default the machine decides. -/
  workers : Option Nat := none
  /-- Whether the files are left as they are. -/
  dryRun : Bool := false
  deriving DecidableEq, Repr

end WebTrim
