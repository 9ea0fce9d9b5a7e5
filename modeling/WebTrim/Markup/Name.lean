import WebTrim.Markup.Tag
import WebTrim.Text.Search
import WebTrim.Text.Words

/-!
# Names in the markup of literals

* `markupNames` — the classes and ids that the tags of a text use.
* `splitClassTokens` — the tokens of a class attribute that a template hole cuts in two.
* `tagProperties` — the custom properties in the attribute values of a text.
-/

set_option autoImplicit false

namespace WebTrim.Markup

open Text

/-- A name used by a tag. -/
inductive UsedName where
  | className (name : Text)
  | id (name : Text)
  deriving DecidableEq, Repr

/-- The names that an attribute uses. -/
def Attribute.usedNames (decode : Text → Text) (a : Attribute) : List UsedName :=
  let value := a.value.getD []
  if value.isEmpty then []
  else if a.name = "class".toList then (words value).map fun w => .className (decode w)
  else if idAttributes.contains a.name then (words value).map fun w => .id (decode w)
  else if fragmentAttributes.contains a.name then
    match value with
    | '#' :: fragment => [.id (decode fragment)]
    | _ => []
  else (Stylesheet.UrlFragment.names value).map .id

/-- The classes and ids that the tags of a text use. -/
def markupNames (decode : Text → Text) (t : Text) : List UsedName :=
  (tags t).flatMap fun tag => (attributes tag).flatMap (Attribute.usedNames decode)

/-- The custom properties in the attribute values of a text. -/
def tagProperties (t : Text) : List Text :=
  (tags t).flatMap fun tag =>
    (attributes tag).flatMap fun a => Stylesheet.propertiesIn (a.value.getD [])

/-- The value of a class attribute that is still open at the end of the text, if one begins here. -/
def openClassValue? (before : Option Char) (t : Text) : Option Text := do
  if before.any fun b => isWordChar b || b == ':' || b == '-' then none
  else
    let t ← dropWord? "class".toList t
    match t.dropWhile isBlank with
    | '=' :: t =>
      match t.dropWhile isBlank with
      | c :: value =>
        let closed := value.any fun d => d == '"' || d == '\''
        if (c = '"' ∨ c = '\'') ∧ !closed then return value else none
      | [] => none
    | _ => none

/-- Finds class attributes that are still open at the end of the text. -/
def openClassMatcher : Matcher Text := Matcher.ofPattern fun before c rest =>
  (openClassValue? before (c :: rest)).map fun value => (rest.length, value)

/-- The tokens before the first quote of a text, unless a bracket comes earlier. -/
def tokensBeforeQuote (t : Text) : List Text :=
  match splitWhile (fun c => !(c == '"' || c == '\'' || c == '<' || c == '>')) t with
  | (value, c :: _) => if c = '"' ∨ c = '\'' then words value else []
  | (_, []) => []

/-- The tokens of a class attribute that is cut by a template hole, in the segment before the hole
and in the one after it. -/
def splitClassTokens (segment : Text) (afterHole beforeHole : Bool) : List Text :=
  (if beforeHole then ((openClassMatcher.findAll segment).head?.map words).getD [] else []) ++
    (if afterHole then tokensBeforeQuote segment else [])

end WebTrim.Markup
