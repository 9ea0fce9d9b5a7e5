import WebTrim.Calc.Fold
import WebTrim.Color.Fold
import WebTrim.Corpus.FileKind
import WebTrim.Gate
import WebTrim.Literal.Rename
import WebTrim.Markup.Rename
import WebTrim.ScopeId
import WebTrim.Settings.Basic
import WebTrim.Shader.Minify
import WebTrim.Stylesheet.Rename
import WebTrim.Toolkit

/-!
# Optimizing a text

Every step stands behind the size gate, so each of these functions returns its text or a smaller
one.

* `tags`, `literals` — renaming in markup and in scripts, which a text that cannot be decoded stops.
* `stylesheet`, `script`, `document` — the steps for one kind of text.
* `file` — the steps for a file, by its path.
-/

set_option autoImplicit false

namespace WebTrim.Optimize

/-- A step that may crash, behind the gate. -/
def attempt (step : Text → Except Crash Text) (current : Text) : Except Crash Text :=
  Gate.run (fun t => (step t).mapError Stop.crash) current

/-- Renames in the tags of markup. -/
def tags (tools : Toolkit) (renames : Renames) (markup : Text) : Except Crash Text := do
  Markup.requireDecodable tools.refusal? (Markup.namesToDecode renames markup)
  return Markup.renameTags tools.decode renames markup

/-- Renames in the literals of a script. -/
def literals (tools : Toolkit) (renames : Renames) (code : Text) : Except Crash Text := do
  Markup.requireDecodable tools.refusal?
    ((Script.literals code).flatMap (Literal.namesToDecode renames))
  return Script.mapLiterals (Literal.rename tools.decode renames) code

/-- Renames, folds and minifies a stylesheet. -/
def stylesheet (tools : Toolkit) (renames : Renames) (settings : Settings) (css : Text) :
    Except Crash Text := do
  let renamed :=
    Gate.pass (Stylesheet.rename renames.classes renames.ids renames.properties) css
  let folded ← if settings.foldCalc then attempt Calc.foldStylesheet renamed else pure renamed
  let colored ← if settings.foldColors then attempt Color.foldStylesheet folded else pure folded
  if settings.minifyStylesheets then Gate.run tools.minify colored else pure colored

/-- Renames in the literals of a script and minifies its shaders. -/
def script (tools : Toolkit) (renames : Renames) (settings : Settings) (code : Text) :
    Except Crash Text := do
  let renamed ← if renames.isEmpty then pure code else attempt (literals tools renames) code
  return if settings.minifyShaders then Gate.pass Shader.minifyScript renamed else renamed

/-- Renames in the tags of a document and optimizes the scripts and stylesheets in it. -/
def document (tools : Toolkit) (renames : Renames) (settings : Settings) (markup : Text) :
    Except Crash Text :=
  attempt
    (Markup.mapDocument (tags tools renames) (script tools renames settings)
      (stylesheet tools renames settings))
    markup

/-- Optimizes a file by its kind, and renames scope ids in a file of any kind. -/
def file (tools : Toolkit) (renames : Renames) (settings : Settings) (path text : Text) :
    Except Crash Text := do
  let optimized ←
    match FileKind.ofPath? path with
    | some .stylesheet => stylesheet tools renames settings text
    | some .script => script tools renames settings text
    | some .document => document tools renames settings text
    | none => pure text
  return if renames.scopes.isEmpty then optimized
    else Gate.pass (ScopeId.rename renames.scopeLead renames.scopes) optimized

end WebTrim.Optimize
