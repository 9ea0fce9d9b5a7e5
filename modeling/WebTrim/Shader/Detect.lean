import WebTrim.Shader.Vocabulary
import WebTrim.Text.Search

/-!
# Recognising shaders

* `looksLikeShader` — does a text show one of the marks of a shader?
* `mayRename` — is it a complete shader, so that its names can be changed?
* `macroNames`, `structNames` — names given by `#define` and by `struct`.
-/

set_option autoImplicit false

namespace WebTrim.Shader

open Text

/-- A name, `[A-Za-z_]` and word characters of any script after it, and the rest. -/
def readName? (t : Text) : Option (Text × Text) :=
  match t with
  | c :: rest =>
    if isAsciiLetter c || c == '_' then
      let (more, after) := splitWhile isWordChar rest
      some (c :: more, after)
    else none
  | [] => none

/-- `void main (` begins here. -/
def opensMain (before : Option Char) (t : Text) : Bool :=
  atWordStart before &&
    ((do
      let t ← "void".toList.isPrefixOf? t
      let t ← "main".toList.isPrefixOf? (← dropBlanks? t)
      return (t.dropWhile isBlank).head? == some '(') : Option Bool).getD false

/-- The text declares `main`. -/
def hasMain (source : Text) : Bool :=
  search opensMain none source

/-- A built-in output or input begins here. -/
def opensBuiltin (before : Option Char) (t : Text) : Bool :=
  atWordStart before &&
    ["gl_Position", "gl_FragColor", "gl_FragCoord", "gl_PointSize", "gl_FragData"].any fun name =>
      (dropWholeWord? name.toList t).isSome

/-- The text after one of the words. -/
def dropOneOf? (words : List Text) (t : Text) : Option Text :=
  words.findSome? fun word => word.isPrefixOf? t

/-- A precision statement begins here. -/
def opensPrecision (before : Option Char) (t : Text) : Bool :=
  atWordStart before &&
    ((do
      let t ← "precision".toList.isPrefixOf? t
      let t ← dropOneOf? precisionQualifiers (← dropBlanks? t)
      let t ← dropBlanks? t
      let (type, t) := splitWhile isWordChar t
      return !type.isEmpty && (t.dropWhile isBlank).head? == some ';') : Option Bool).getD false

/-- The text begins with a directive that a shader may begin with. -/
def startsWithDirective (source : Text) : Bool :=
  match source.dropWhile isBlank with
  | '#' :: t =>
    let word := String.ofList ((t.dropWhile isBlank).takeWhile isWordChar)
    ["version", "define", "extension", "pragma", "include", "ifdef", "ifndef", "if"].contains word
  | _ => false

/-- A type and a name, followed by a semicolon or an opening bracket. -/
def opensDeclarator (t : Text) : Bool :=
  ((do
    let (_, t) ← readName? t
    let (_, t) ← readName? (← dropBlanks? t)
    let next := (t.dropWhile isBlank).head?
    return next == some ';' || next == some '[') : Option Bool).getD false

/-- The text after a layout qualifier, if one stands there. -/
def dropLayout (t : Text) : Text :=
  ((do
    let t ← "layout".toList.isPrefixOf? t
    match t.dropWhile isBlank with
    | '(' :: t =>
      let (_, t) ← cut? [')'] t
      return t.dropWhile isBlank
    | _ => none) : Option Text).getD t

/-- An interface declaration begins on this line. -/
def opensInterface (before : Option Char) (t : Text) : Bool :=
  (before == none || before == some '\n') &&
    ((do
      let t ← dropOneOf? (["uniform", "varying", "attribute", "in", "out"].map String.toList)
        (dropLayout (t.dropWhile isBlank))
      let t ← dropBlanks? t
      let plain := opensDeclarator t
      let precise := ((do
        let t ← dropOneOf? precisionQualifiers t
        return opensDeclarator (← dropBlanks? t)) : Option Bool).getD false
      return plain || precise) : Option Bool).getD false

/-- Does a text show one of the marks of a shader? -/
def looksLikeShader (source : Text) : Bool :=
  hasMain source || search opensBuiltin none source || search opensPrecision none source ||
    startsWithDirective source || search opensInterface none source

/-- A space or a tab. -/
def isInlineBlank (c : Char) : Bool :=
  c == ' ' || c == '\t'

/-- The text of a line after the number sign of a directive and its name. -/
def dropDirective? (name line : Text) : Option Text :=
  match line.dropWhile isInlineBlank with
  | '#' :: t => name.isPrefixOf? (t.dropWhile isInlineBlank)
  | _ => none

/-- The line includes another file. -/
def isInclude (line : Text) : Bool :=
  (dropDirective? "include".toList line).any atWordEnd

/-- Is the text a complete shader? An included part may use any name. -/
def mayRename (source : Text) : Bool :=
  hasMain source && !(lines source).any isInclude

/-- The name that a line defines as a macro. -/
def macroName? (line : Text) : Option Text := do
  let t ← dropDirective? "define".toList line
  if t.head?.any isInlineBlank then
    let (name, _) ← readName? (t.dropWhile isInlineBlank)
    return name
  else none

/-- The names that a shader defines as macros. -/
def macroNames (source : Text) : List Text :=
  (lines source).filterMap macroName?

/-- Finds the names of structures. -/
def structMatcher : Matcher Text := Matcher.ofPattern fun before c rest =>
  if atWordStart before then do
    let t ← "struct".toList.isPrefixOf? (c :: rest)
    let (name, after) ← readName? (← dropBlanks? t)
    return (rest.length - after.length, name)
  else none

/-- The names of a shader's structures. -/
def structNames (source : Text) : List Text :=
  structMatcher.findAll source

end WebTrim.Shader
