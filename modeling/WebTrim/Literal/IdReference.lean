import WebTrim.Naming.Rename
import WebTrim.Stylesheet.Selector

/-!
# References to ids in literals

A literal refers to an id when it is the id itself, or contains `#id` or `[id="id"]`. A literal that
is a hex colour refers to nothing.

* `idReferences` — the known ids a literal refers to.
* `renameIds` — the literal with those ids renamed.
-/

set_option autoImplicit false

namespace WebTrim.Literal

open Text

/-- An attribute selector on an id, as it stands in a literal. -/
structure IdSelector where
  quote : Text
  name : Text
  deriving DecidableEq, Repr

namespace IdSelector

/-- A character that may stand in the value of such a selector. -/
def isIdValueChar (c : Char) : Bool :=
  !(c == '\'' || c == '"' || c == ']')

/-- The name and the closing of a selector after its equals sign and the blanks `blanks`. Without
quotes, blanks right before the closing bracket leave the last of them as the name. -/
def readName? (blanks t : Text) : Option (IdSelector × Text) :=
  match t with
  | [] => none
  | c :: rest =>
    if c = '\'' ∨ c = '"' then
      match splitWhile isIdValueChar rest with
      | (name, d :: ']' :: after) =>
        if d = c ∧ !name.isEmpty then some (⟨[c], name⟩, after) else none
      | _ => none
    else
      match splitWhile isIdValueChar (c :: rest) with
      | (name, ']' :: after) =>
        if !name.isEmpty then some (⟨[], name⟩, after)
        else blanks.getLast?.map fun b => (⟨[], [b]⟩, after)
      | _ => none

/-- The selector whose opening bracket has been read. -/
def read? (t : Text) : Option (IdSelector × Text) :=
  match dropWord? "id".toList t with
  | none => none
  | some t =>
    match t.dropWhile isBlank with
    | '=' :: t =>
      let (blanks, t) := splitWhile isBlank t
      readName? blanks t
    | _ => none

/-- Finds attribute selectors on ids; `id` is read in any case. -/
def matcher : Matcher IdSelector := Matcher.ofPattern fun _ c rest =>
  if c = '[' then (read? rest).map fun (s, after) => (rest.length - after.length, s) else none

/-- The selector as it is written out. -/
def text (s : IdSelector) : Text :=
  "[id=".toList ++ s.quote ++ s.name ++ s.quote ++ [']']

end IdSelector

/-- Is the whole literal a hex colour? -/
def isHexColorLiteral : Text → Bool
  | '#' :: digits => Stylesheet.isHexColor digits
  | _ => false

/-- The known ids that a literal refers to. -/
def idReferences (known : Text → Bool) (literal : Text) : List Text :=
  if literal.isEmpty then []
  else if known literal then [literal]
  else if isHexColorLiteral literal then []
  else
    (((Stylesheet.markedNames '#' literal).map Stylesheet.MarkedName.name).filter known) ++
      (((IdSelector.matcher.findAll literal).map IdSelector.name).filter known)

/-- The literal with the ids it refers to renamed. -/
def renameIds (ids : RenameMap) (literal : Text) : Text :=
  if literal.isEmpty || isHexColorLiteral literal then literal
  else
    match ids.find? literal with
    | some short => short
    | none =>
      Stylesheet.renameMarked '#' ids
        (IdSelector.matcher.replaceAll
          (fun s => (ids.find? s.name).map fun short => { s with name := short }.text) literal)

end WebTrim.Literal
