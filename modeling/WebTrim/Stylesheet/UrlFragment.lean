import WebTrim.Naming.Rename
import WebTrim.Text.Case
import WebTrim.Text.Scan

/-!
# References to ids by `url(#id)`
-/

set_option autoImplicit false

namespace WebTrim.Stylesheet

open Text

/-- A reference to an id of the same document, with the quote around it, if any. -/
structure UrlFragment where
  quote : Text
  name : Text
  deriving DecidableEq, Repr

namespace UrlFragment

/-- The opening quote of a reference, if any, and the text after it. -/
def readQuote : Text → Text × Text
  | c :: rest => if c = '\'' ∨ c = '"' then ([c], rest) else ([], c :: rest)
  | [] => ([], [])

/-- The reference after `url(`, and the text after its closing bracket. -/
def read? (t : Text) : Option (UrlFragment × Text) :=
  let (quote, t) := readQuote (t.dropWhile isBlank)
  match t with
  | '#' :: t =>
    let (name, t) := splitWhile (fun c => !(c == '\'' || c == '"' || c == ')' || isBlank c)) t
    if name.isEmpty then none
    else
      match quote.isPrefixOf? t with
      | none => none
      | some t =>
        match t.dropWhile isBlank with
        | ')' :: after => some (⟨quote, name⟩, after)
        | _ => none
  | _ => none

/-- Finds references to ids; `url` is read in any case. -/
def matcher : Matcher UrlFragment := Matcher.ofPattern fun _ c rest =>
  match dropWord? "url(".toList (c :: rest) with
  | none => none
  | some t => (read? t).map fun (fragment, after) => (rest.length - after.length, fragment)

/-- The reference as it is written out. -/
def text (f : UrlFragment) : Text :=
  "url(".toList ++ f.quote ++ '#' :: f.name ++ f.quote ++ [')']

/-- The ids referred to in a text. -/
def names (t : Text) : List Text :=
  (matcher.findAll t).map UrlFragment.name

/-- The text with the ids in its references renamed. -/
def renameAll (ids : RenameMap) (t : Text) : Text :=
  matcher.replaceAll (fun f => (ids.find? f.name).map fun short => { f with name := short }.text) t

end UrlFragment

end WebTrim.Stylesheet
