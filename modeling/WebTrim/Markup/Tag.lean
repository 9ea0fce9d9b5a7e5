import WebTrim.Literal.ClassList
import WebTrim.Naming.Rename
import WebTrim.Stylesheet.CustomProperty
import WebTrim.Stylesheet.UrlFragment

/-!
# Start tags and their attributes

* `tagMatcher` — finds start tags; quoted values may hold a closing bracket.
* `attributes` — the attributes of a tag.
* `renameTag` — a tag with classes, ids and custom properties renamed in its attribute values.

How character references are decoded is a parameter.
-/

set_option autoImplicit false

namespace WebTrim.Markup

open Text

/-- A character of a tag name after the first. -/
def isTagNameChar (c : Char) : Bool :=
  isWordChar c || c == ':' || c == '-'

/-- How many characters reach through the bracket that closes a tag, given the quote that is open.
-/
def tagLength? (quote : Option Char) : Text → Option Nat
  | [] => none
  | c :: rest =>
    match quote with
    | some q => (tagLength? (if c = q then none else some q) rest).map (· + 1)
    | none =>
      if c = '>' then some 1
      else if c = '"' ∨ c = '\'' then (tagLength? (some c) rest).map (· + 1)
      else (tagLength? none rest).map (· + 1)

/-- Finds start tags. The find is the tag as it is written. -/
def tagMatcher : Matcher Text := Matcher.ofPattern fun _ c rest =>
  if c = '<' ∧ rest.head?.any isAsciiLetter then
    (tagLength? none rest).map fun n => (n, c :: rest.take n)
  else none

/-- The start tags of a text. -/
def tags (t : Text) : List Text :=
  tagMatcher.findAll t

/-- Does the text hold a start tag? -/
def hasTag (t : Text) : Bool :=
  !(tags t).isEmpty

/-! ## Attributes -/

/-- An attribute of a tag: its name in lower case, its value unless it has none, and the text before
and after the value. -/
structure Attribute where
  name : Text
  before : Text
  value : Option Text
  after : Text
  deriving DecidableEq, Repr

/-- The attribute as it is written. -/
def Attribute.text (a : Attribute) : Text :=
  a.before ++ a.value.getD [] ++ a.after

/-- A character of an attribute name. -/
def isAttributeNameChar (c : Char) : Bool :=
  !(isBlank c || c == '"' || c == '\'' || c == '>' || c == '/' || c == '=')

/-- A character of a value without quotes. -/
def isBareValueChar (c : Char) : Bool :=
  !(isBlank c || "\"'=<>`".toList.contains c)

/-- The value after an attribute name: the text before it, the value, and its closing quote. -/
def readValue? (t : Text) : Option (Text × Text × Text) :=
  let (blanks, t) := splitWhile isBlank t
  match t with
  | '=' :: t =>
    let (more, t) := splitWhile isBlank t
    let lead := blanks ++ '=' :: more
    match t with
    | c :: rest =>
      if c = '"' ∨ c = '\'' then
        (cut? [c] rest).map fun (value, _) => (lead ++ [c], value, [c])
      else
        let value := t.takeWhile isBareValueChar
        if value.isEmpty then none else some (lead, value, [])
    | [] => none
  | _ => none

/-- The attribute at the beginning of a text. -/
def readAttribute? (t : Text) : Option Attribute :=
  let (name, rest) := splitWhile isAttributeNameChar t
  if name.isEmpty then none
  else
    match readValue? rest with
    | some (lead, value, closing) =>
      some { name := lower name, before := name ++ lead, value := some value, after := closing }
    | none => some { name := lower name, before := name, value := none, after := [] }

/-- Finds attributes. -/
def attributeMatcher : Matcher Attribute := Matcher.ofPattern fun _ c rest =>
  (readAttribute? (c :: rest)).map fun a => (a.text.length - 1, a)

/-- The opening bracket and the name of a tag, and the rest; a text that begins otherwise has none.
-/
def splitTagName (tag : Text) : Text × Text :=
  match tag with
  | '<' :: c :: rest =>
    if isAsciiLetter c then
      let (more, after) := splitWhile isTagNameChar rest
      ('<' :: c :: more, after)
    else ([], tag)
  | _ => ([], tag)

/-- The attributes of a tag. -/
def attributes (tag : Text) : List Attribute :=
  attributeMatcher.findAll (splitTagName tag).2

/-- The attributes of a tag with the offsets at which their values begin and end. -/
def attributeSpans (tag : Text) : List (Attribute × Nat × Nat) :=
  let (head, rest) := splitTagName tag
  let spans := (attributeMatcher.pieces rest).foldl (fun (start, found) p =>
    let next := start + p.text.length
    match p.note with
    | some a =>
      let first := start + a.before.length
      (next, (a, first, first + (a.value.getD []).length) :: found)
    | none => (next, found)) (head.length, [])
  spans.2.reverse

/-! ## Renaming -/

/-- Attributes that refer to elements by id. -/
def idReferenceAttributes : List Text :=
  ["for", "form", "list", "headers", "aria-labelledby", "aria-describedby", "aria-controls",
    "aria-owns", "aria-activedescendant", "aria-flowto", "aria-details",
    "aria-errormessage"].map String.toList

/-- Attributes whose value is a list of ids. -/
def idAttributes : List Text :=
  "id".toList :: idReferenceAttributes

/-- Attributes whose value may be a fragment of the same document. -/
def fragmentAttributes : List Text :=
  ["href", "xlink:href"].map String.toList

/-- A fragment such as `#main` with its id renamed. -/
def renameFragment (decode : Text → Text) (ids : RenameMap) (value : Text) : Text :=
  match value with
  | '#' :: fragment =>
    match ids.find? (decode fragment) with
    | some short => '#' :: short
    | none => value
  | _ => value

/-- The value of an attribute with classes, ids and custom properties renamed. -/
def renameAttribute (decode : Text → Text) (renames : Renames) (name value : Text) : Text :=
  Stylesheet.renameProperties renames.properties <|
    if name = "class".toList then Literal.renameTokenList decode renames.classes value
    else if idAttributes.contains name then Literal.renameTokenList decode renames.ids value
    else if fragmentAttributes.contains name then renameFragment decode renames.ids value
    else Stylesheet.UrlFragment.renameAll renames.ids value

/-- An attribute with its value renamed; an empty value stays empty. -/
def Attribute.renamed (decode : Text → Text) (renames : Renames) (a : Attribute) : Attribute :=
  { a with
    value := a.value.map fun v =>
      if v.isEmpty then v else renameAttribute decode renames a.name v }

/-- A tag with its attribute values renamed. -/
def renameTag (decode : Text → Text) (renames : Renames) (tag : Text) : Text :=
  (splitTagName tag).1 ++
    attributeMatcher.replaceAll (fun a => some (a.renamed decode renames).text) (splitTagName tag).2

/-- The markup with its tags renamed. -/
def renameTags (decode : Text → Text) (renames : Renames) (markup : Text) : Text :=
  tagMatcher.replaceAll (fun tag => some (renameTag decode renames tag)) markup

end WebTrim.Markup
