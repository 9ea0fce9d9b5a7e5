import WebTrim.Text.Case
import WebTrim.Text.Scan
import WebTrim.Text.Search

/-!
# Blocks of a document

A document is split into script and style elements and the markup between them.

* `blocks` — the blocks of a document, in order.
-/

set_option autoImplicit false

namespace WebTrim.Markup

open Text

/-- A script or style element: its name in lower case, its start tag, its body and its end tag. -/
structure RawElement where
  name : Text
  opening : Text
  body : Text
  closing : Text
  deriving DecidableEq, Repr

/-- The element as it is written. -/
def RawElement.text (e : RawElement) : Text :=
  e.opening ++ e.body ++ e.closing

/-- A piece of a document. -/
inductive Block where
  | markup (text : Text)
  | raw (element : RawElement)
  deriving DecidableEq, Repr

/-- The text of a block. -/
def Block.text : Block → Text
  | markup text => text
  | raw element => element.text

/-- Do two texts begin alike, case ignored, over the length of the first? Gives the rest. -/
def dropAlike? : Text → Text → Option Text
  | [], t => some t
  | _ :: _, [] => none
  | a :: s, b :: t => if lowerChar a = lowerChar b then dropAlike? s t else none

/-- The end tag of the element `name` at the beginning of a text. -/
def readClosing? (name t : Text) : Option Text := do
  let rest ← dropAlike? name (← ['<', '/'].isPrefixOf? t)
  match rest.dropWhile isBlank with
  | '>' :: after => return t.take (t.length - after.length)
  | _ => none

/-- The text before the first end tag of the element `name`, and that tag. -/
def splitAtClosing? (name : Text) : Text → Option (Text × Text)
  | [] => none
  | c :: rest =>
    match readClosing? name (c :: rest) with
    | some closing => some ([], closing)
    | none => (splitAtClosing? name rest).map fun (body, closing) => (c :: body, closing)

/-- The name of a script or style element, as it is written, after its opening bracket. -/
def readRawName? (t : Text) : Option (Text × Text) := do
  let rest ← dropWord? "script".toList t <|> dropWord? "style".toList t
  if atWordEnd rest then return (t.take (t.length - rest.length), rest) else none

/-- The script or style element whose opening bracket has been read. -/
def readRawElement? (t : Text) : Option RawElement := do
  let (name, rest) ← readRawName? t
  let (inside, rest) ← cut? ['>'] rest
  let (body, closing) ← splitAtClosing? name rest
  return { name := lower name, opening := '<' :: name ++ inside ++ ['>'], body, closing }

/-- Finds script and style elements. -/
def rawElementMatcher : Matcher RawElement := Matcher.ofPattern fun _ c rest =>
  if c = '<' then (readRawElement? rest).map fun e => (e.text.length - 1, e) else none

/-- The pieces of a document as blocks; markup between elements is one block. -/
def mergeMarkup : List (Piece (Option RawElement)) → List Block
  | [] => []
  | p :: rest =>
    match p.note with
    | some element => .raw element :: mergeMarkup rest
    | none =>
      match mergeMarkup rest with
      | .markup text :: more => .markup (p.text ++ text) :: more
      | more => .markup p.text :: more

/-- The blocks of a document. -/
def blocks (document : Text) : List Block :=
  mergeMarkup (rawElementMatcher.pieces document)

end WebTrim.Markup
