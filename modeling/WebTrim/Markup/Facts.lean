import WebTrim.Markup.Reader
import WebTrim.Markup.Tag
import WebTrim.Text.Words

/-!
# What a document says about names

* `Outline` — the elements that are open at a place of a document.
* `Facts` — class and id tokens, references, handlers, other values, scripts and styles.
* `factsOf` — the facts of a document, unless it is refused as a whole.
-/

set_option autoImplicit false

namespace WebTrim.Markup

open Text

/-! ## Open elements -/

/-- Elements that never have content. -/
def voidElements : List Text :=
  ["area", "base", "br", "col", "embed", "hr", "img", "input", "keygen", "link", "menuitem", "meta",
    "param", "source", "track", "wbr", "basefont", "bgsound", "command", "frame", "image", "isindex",
    "nextid", "spacer"].map String.toList

/-- The open elements, innermost first, and the void elements whose end tag may still come. -/
structure Outline where
  elements : List Text := []
  expected : List Text := []
  deriving DecidableEq, Repr

/-- Closes the innermost open element of this name with all inside it, if there is one. -/
def Outline.popTo (o : Outline) (name : Text) : Outline :=
  if o.elements.contains name then
    { o with elements := (o.elements.dropWhile (· != name)).drop 1 }
  else o

/-- The outline after an end tag. One that an earlier void element made superfluous has no effect.
-/
def Outline.close (o : Outline) (name : Text) : Outline :=
  if o.expected.contains name then { o with expected := o.expected.erase name } else o.popTo name

/-- The outline inside an element that has just been opened. -/
def Outline.push (o : Outline) (name : Text) : Outline :=
  { o with elements := name :: o.elements }

/-- The outline after a start tag. -/
def Outline.open (o : Outline) (name : Text) (selfClosing : Bool) : Outline :=
  let o := o.push name
  if selfClosing then o.close name
  else if voidElements.contains name then
    let o := o.popTo name
    { o with expected := o.expected ++ [name] }
  else o

/-- Is white space kept as it is here? -/
def Outline.keepsSpace (o : Outline) : Bool :=
  o.elements.any fun name => name == "pre".toList || name == "textarea".toList

/-! ## Facts -/

/-- What a document says about names. -/
structure Facts where
  classTokens : List Text := []
  idTokens : List Text := []
  referenceTokens : List Text := []
  remoteFragments : List Text := []
  handlerValues : List Text := []
  otherValues : List Text := []
  scripts : List Text := []
  styles : List Text := []
  deriving DecidableEq, Repr

/-- The facts of two parts of a document together. -/
def Facts.append (a b : Facts) : Facts where
  classTokens := a.classTokens ++ b.classTokens
  idTokens := a.idTokens ++ b.idTokens
  referenceTokens := a.referenceTokens ++ b.referenceTokens
  remoteFragments := a.remoteFragments ++ b.remoteFragments
  handlerValues := a.handlerValues ++ b.handlerValues
  otherValues := a.otherValues ++ b.otherValues
  scripts := a.scripts ++ b.scripts
  styles := a.styles ++ b.styles

/-- The facts of several parts together. -/
def Facts.concat (parts : List Facts) : Facts :=
  parts.foldr Facts.append {}

/-- Attributes that hold a list of words, for a given element. -/
def isWordList (element name : Text) : Bool :=
  let a := String.ofList name
  ["class", "accesskey", "dropzone"].contains a ||
    match String.ofList element with
    | "a" | "link" => a == "rel" || a == "rev"
    | "area" => a == "rel"
    | "td" | "th" => a == "headers"
    | "form" => a == "accept-charset"
    | "object" => a == "archive"
    | "icon" => a == "sizes"
    | "iframe" => a == "sandbox"
    | "output" => a == "for"
    | _ => false

/-- What one attribute says. -/
def attributeFacts (element name value : Text) : Facts :=
  let value := if isWordList element name then join [' '] (words value) else value
  if name = "class".toList then { classTokens := words value }
  else if name = "id".toList then { idTokens := words value }
  else if idReferenceAttributes.contains name then { referenceTokens := words value }
  else if fragmentAttributes.contains name then
    match value with
    | '#' :: fragment => { referenceTokens := [fragment] }
    | _ =>
      match cut? ['#'] value with
      | some (_, fragment) => { remoteFragments := [fragment] }
      | none => {}
  else if ['o', 'n'].isPrefixOf name then { handlerValues := [value] }
  else { referenceTokens := Stylesheet.UrlFragment.names value, otherValues := [value] }

/-- The content of an element as it is kept: one that is only white space shrinks to one character,
unless white space counts there. -/
def keptContent (o : Outline) (content : Text) : Text :=
  if content.isEmpty then []
  else if content.all (fun c => [' ', '\n', '\t', '\x0c', '\r'].contains c) && !o.keepsSpace then
    if content.contains '\n' then ['\n'] else [' ']
  else content

/-- What the content of a script or style element says. -/
def contentFacts (name content : Text) : Facts :=
  if content.isEmpty then {}
  else if name = "script".toList then { scripts := [content] }
  else if name = "style".toList then { styles := [content] }
  else {}

/-- What a list of events says, from a given outline on. A repeated attribute keeps its first place
and its last value. -/
def factsFrom (o : Outline) : List Event → Facts
  | [] => {}
  | .closing name :: rest => factsFrom (o.close name) rest
  | .opening name attrs selfClosing content :: rest =>
    let own := (Table.ofPairs attrs).map fun (attr, value) => attributeFacts name attr value
    ((Facts.concat own).append (contentFacts name (keptContent (o.push name) content))).append
      (factsFrom (o.open name selfClosing) rest)

/-- The facts of a document, unless it is refused as a whole. -/
def factsOf (decode : Text → Except Crash Text) (document : Text) : Except Crash Facts :=
  match readEvents decode document with
  | .ok events => .ok (factsFrom {} events)
  | .error e => .error e

end WebTrim.Markup
