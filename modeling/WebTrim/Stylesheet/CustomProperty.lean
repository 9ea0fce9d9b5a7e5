import WebTrim.Naming.Rename
import WebTrim.Stylesheet.Token

/-!
# Custom properties

A custom property is written `--name`. The two hyphens belong to its name.
-/

set_option autoImplicit false

namespace WebTrim.Stylesheet

open Text

/-- A character of a custom property name after the two hyphens. -/
def isPropertyChar (c : Char) : Bool :=
  isAsciiAlnum c || c == '_' || c == '-'

/-- Finds custom properties. One does not begin right after a word character or a hyphen. -/
def propertyMatcher : Matcher Text := Matcher.ofPattern fun before c rest =>
  if c = '-' ∧ rest.head? = some '-' ∧ !(before.any fun b => isWordChar b || b == '-') then
    let run := (rest.drop 1).takeWhile isPropertyChar
    if run.isEmpty then none else some (1 + run.length, '-' :: '-' :: run)
  else none

/-- The custom properties written in a text. -/
def propertiesIn (t : Text) : List Text :=
  propertyMatcher.findAll t

/-- The text with its custom properties renamed. -/
def renameProperties (renames : RenameMap) (t : Text) : Text :=
  propertyMatcher.replaceAll renames.find? t

/-- The custom properties in the code of a stylesheet. -/
def customProperties (css : Text) : List Text :=
  (codeTexts css).flatMap propertiesIn

end WebTrim.Stylesheet
