import WebTrim.Failure
import WebTrim.Markup.Tag
import WebTrim.Text.Words

/-!
# Names that are written with character references

Before a name in an attribute value is looked up, its character references are decoded, and a text
may be one that cannot be decoded.

* `encodedNames` — the parts of a text that are decoded when its names are listed.
* `namesToDecode` — the parts that are decoded when its tags are renamed.
* `requireDecodable` — stops at the first part that cannot be decoded.
-/

set_option autoImplicit false

namespace WebTrim.Markup

open Text

/-- The parts of an attribute value that are decoded; class names and ids only if they are asked
for. -/
def Attribute.encodedNames (classes ids : Bool) (a : Attribute) : List Text :=
  let value := a.value.getD []
  if a.name = "class".toList then if classes then words value else []
  else if idAttributes.contains a.name then if ids then words value else []
  else if fragmentAttributes.contains a.name then
    match value with
    | '#' :: fragment => [fragment]
    | _ => []
  else []

/-- The parts of the tags of a text that are decoded. -/
def encodedNames (classes ids : Bool) (t : Text) : List Text :=
  (tags t).flatMap fun tag => (attributes tag).flatMap (Attribute.encodedNames classes ids)

/-- The parts that are decoded when the tags of a text are renamed. No name is looked up in an empty
map. -/
def namesToDecode (renames : Renames) (t : Text) : List Text :=
  if renames.isEmpty then []
  else encodedNames (!renames.classes.isEmpty) (!renames.ids.isEmpty) t

/-- Stops if one of the texts cannot be decoded. -/
def requireDecodable (refusal? : Text → Option Crash) (texts : List Text) : Except Crash Unit :=
  match texts.findSome? refusal? with
  | some crash => .error crash
  | none => .ok ()

end WebTrim.Markup
