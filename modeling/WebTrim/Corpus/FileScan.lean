import WebTrim.Corpus.FileKind
import WebTrim.Literal.ClassList
import WebTrim.Markup.Facts
import WebTrim.Markup.Name
import WebTrim.ScopeId
import WebTrim.Script.Literal
import WebTrim.Stylesheet.AttributeSelector
import WebTrim.Stylesheet.CustomProperty
import WebTrim.Stylesheet.UrlFragment

/-!
# What one file says about names

A scan looks at one file on its own. It lists every place where a class, an id, a custom property or
a scope id is declared, used or pinned, once per occurrence, so that the findings of several files
add up by concatenation.

* `Findings.ofStylesheet`, `Findings.ofScript`, `Findings.ofDocument` — the findings by kind of
  text.
* `FileScan.ofFile` — the scan of a file.
-/

set_option autoImplicit false

namespace WebTrim

open Text

/-- Places where names of one category occur. -/
structure NameFindings where
  /-- Names that stylesheets declare. -/
  declared : List Text := []
  /-- Declared names with the way they are spelled. -/
  spellings : List (Text × Text) := []
  /-- Names in attributes of documents. -/
  uses : List Text := []
  /-- Names seen where a new name could not follow. -/
  pinned : List Text := []
  /-- Values of attribute selectors that match a part of a name. -/
  patterns : List Text := []
  deriving DecidableEq, Repr

/-- The findings of two texts together. -/
def NameFindings.append (a b : NameFindings) : NameFindings where
  declared := a.declared ++ b.declared
  spellings := a.spellings ++ b.spellings
  uses := a.uses ++ b.uses
  pinned := a.pinned ++ b.pinned
  patterns := a.patterns ++ b.patterns

/-- Everything found in a text, once per occurrence. -/
structure Findings where
  classes : NameFindings := {}
  ids : NameFindings := {}
  /-- The bodies of string literals and template segments. -/
  literals : List Text := []
  /-- Custom properties in places that are renamed. -/
  properties : List Text := []
  /-- Custom properties anywhere. -/
  allProperties : List Text := []
  scopeIds : List Text := []
  deriving DecidableEq, Repr

namespace Findings

/-- The findings of two texts together. -/
def append (a b : Findings) : Findings where
  classes := a.classes.append b.classes
  ids := a.ids.append b.ids
  literals := a.literals ++ b.literals
  properties := a.properties ++ b.properties
  allProperties := a.allProperties ++ b.allProperties
  scopeIds := a.scopeIds ++ b.scopeIds

/-- The findings of many texts together. -/
def concat (parts : List Findings) : Findings :=
  parts.foldr append {}

/-- What a stylesheet declares: class and id selectors, fragments of local addresses, and attribute
selectors that match whole names. Other attribute selectors are patterns. -/
def ofStylesheet (css : Text) : Findings :=
  let classes := Stylesheet.selectorNames '.' css
  let ids := Stylesheet.selectorNames '#' css
  let (onClass, onId) := (Stylesheet.AttributeSelector.all css).partition (·.onClass)
  let (wholeClass, partClass) := onClass.partition (·.isExact)
  let (wholeId, partId) := onId.partition (·.isExact)
  { classes :=
      { declared := classes.map (·.name) ++ wholeClass.flatMap fun s => words s.value
        spellings := classes.map fun m => (m.name, m.raw)
        patterns := partClass.map (·.value) }
    ids :=
      { declared :=
          ids.map (·.name) ++ Stylesheet.UrlFragment.names css ++ wholeId.map (·.value)
        spellings := ids.map fun m => (m.name, m.raw)
        patterns := partId.map (·.value) }
    properties := Stylesheet.customProperties css }

/-- Whether a token is the given operator. -/
def isOperator (text : Text) (token : Option (Token Script.Kind)) : Bool :=
  token == some ⟨.operator, text⟩

/-- The class tokens that holes of templates cut in two. `before` is the token before the list. -/
def cutTokens (before : Option (Token Script.Kind)) : List (Token Script.Kind) → List Text
  | [] => []
  | token :: rest =>
    let cut :=
      if token.kind = .segment then
        Markup.splitClassTokens token.text (isOperator ['}'] before)
          (isOperator ['$', '{'] rest.head?)
      else []
    cut ++ cutTokens (some token) rest

/-- What a script says: its literals, the properties in them, and the class tokens cut by holes. -/
def ofScript (script : Text) : Findings :=
  let literals := Script.literals script
  { classes := { pinned := cutTokens none (Script.tokens script) }
    literals
    properties := literals.flatMap Stylesheet.propertiesIn }

/-- The names after a number sign. -/
def markedIds (t : Text) : List Text :=
  (Stylesheet.markedNames '#' t).map (·.name)

/-- The pins of an attribute value that is neither a name list nor code. -/
def ofOtherValue (value : Text) : Findings where
  classes := { pinned := Literal.dottedNames value }
  ids := { pinned := markedIds value }

/-- The pins of an inline handler, whose code is never renamed: every token and every selector name
of its literals. -/
def ofHandler (handler : Text) : Findings :=
  concat ((Script.literals handler).map fun literal =>
    let tokens := Literal.classShapedTokens literal
    { classes := { pinned := tokens ++ Literal.dottedNames literal }
      ids := { pinned := tokens ++ markedIds literal } })

/-- What the facts of a document say. -/
def ofFacts (facts : Markup.Facts) : Findings :=
  concat
    ({ classes := { uses := facts.classTokens }
       ids :=
         { uses := facts.idTokens ++ facts.referenceTokens
           pinned := facts.remoteFragments } } ::
      facts.otherValues.map ofOtherValue ++ facts.handlerValues.map ofHandler ++
      facts.styles.map ofStylesheet ++ facts.scripts.map ofScript)

/-- What a document says, given how its facts are read. -/
def ofDocument (readFacts : Text → Except Crash Markup.Facts) (document : Text) :
    Except Crash Findings := do
  let facts ← readFacts document
  return (ofFacts facts).append { properties := Markup.tagProperties document }

end Findings

/-- What one file says. -/
structure FileScan where
  path : Text
  findings : Findings
  deriving DecidableEq, Repr

/-- The scan of a file, given how document facts are read and the lead of scope ids. The end of the
path tells the kind; in any file, custom properties and scope ids are listed. -/
def FileScan.ofFile (readFacts : Text → Except Crash Markup.Facts) (lead path text : Text) :
    Except Crash FileScan := do
  let findings ←
    match FileKind.ofPath? path with
    | some .stylesheet => pure (Findings.ofStylesheet text)
    | some .script => pure (Findings.ofScript text)
    | some .document => Findings.ofDocument readFacts text
    | none => pure {}
  let anywhere : Findings :=
    { allProperties := Stylesheet.propertiesIn text, scopeIds := ScopeId.all lead text }
  return ⟨path, findings.append anywhere⟩

end WebTrim
