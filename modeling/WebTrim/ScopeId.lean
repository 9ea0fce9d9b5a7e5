import WebTrim.Naming.Rename
import WebTrim.Text.Letter
import WebTrim.Text.Scan

/-!
# Component scope ids

A scope id is a fixed beginning followed by letters and digits, such as `astro-cid-j7pv25f6`. The
beginning makes it unambiguous, so it is found in every kind of file alike.
-/

set_option autoImplicit false

namespace WebTrim.ScopeId

open Text

/-- Finds scope ids that begin with `lead`; the find is what follows it. -/
def matcher (lead : Text) : Matcher Text := Matcher.ofPattern fun _ c rest =>
  if lead.isEmpty then none
  else
    match lead.isPrefixOf? (c :: rest) with
    | none => none
    | some after =>
      let run := after.takeWhile isAsciiAlnum
      if run.isEmpty then none else some (lead.length + run.length - 1, run)

/-- What follows the beginning in each scope id of a text. -/
def all (lead t : Text) : List Text :=
  (matcher lead).findAll t

/-- The text with its scope ids renamed. -/
def rename (lead : Text) (scopes : RenameMap) (t : Text) : Text :=
  (matcher lead).replaceAll (fun run => (scopes.find? run).map (lead ++ ·)) t

end WebTrim.ScopeId
