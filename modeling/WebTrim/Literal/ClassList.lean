import WebTrim.Naming.Rename
import WebTrim.Stylesheet.Selector
import WebTrim.Text.Words

/-!
# Class lists

An attribute value is a list of tokens by definition. The content of a script literal is taken for
a list of classes when all its tokens have the shape of a class and at least one is a known class.
In a literal the escapes `\n`, `\r` and `\t` separate tokens as blanks do.

* `literalTokens` — the tokens of a literal.
* `isClassList` — the test above.
* `renameClassLiteral`, `renameTokenList` — renaming, with separators kept as written.
-/

set_option autoImplicit false

namespace WebTrim.Literal

open Text

/-- A character that may stand in a class token. -/
def isClassTokenChar (c : Char) : Bool :=
  isAsciiAlnum c || "!_:-./%#[](),=+*&@?<>|~^$".toList.contains c

/-- A token with the shape of a class. One newline may follow it. -/
def isClassToken (t : Text) : Bool :=
  let body := dropFinalNewline t
  !body.isEmpty && body.all isClassTokenChar

/-- Does an escaped separator begin here? -/
def opensSeparatorEscape (c : Char) (rest : Text) : Bool :=
  c == '\\' && rest.head?.any fun d => d == 'n' || d == 'r' || d == 't'

/-- How many characters precede the next separator of a literal. -/
def tokenLength : Text → Nat
  | [] => 0
  | c :: rest => if isBlank c || opensSeparatorEscape c rest then 0 else 1 + tokenLength rest

/-- One separator or one token of a literal. -/
def literalStep (_ : Unit) (c : Char) (rest : Text) : Step Unit Bool :=
  if isBlank c then ⟨(rest.takeWhile isBlank).length, false, ()⟩
  else if opensSeparatorEscape c rest then ⟨1, false, ()⟩
  else ⟨tokenLength rest, true, ()⟩

/-- The separators and tokens of a literal; the note says which are tokens. -/
def literalPieces (literal : Text) : List (Piece Bool) :=
  scan literalStep () literal

/-- The tokens of a literal. -/
def literalTokens (literal : Text) : List Text :=
  ((literalPieces literal).filter Piece.note).map Piece.text

/-- The tokens of a literal that have the shape of a class. -/
def classShapedTokens (literal : Text) : List Text :=
  (literalTokens literal).filter isClassToken

/-- Is the literal a list of classes, given the known ones? -/
def isClassList (known : Text → Bool) (literal : Text) : Bool :=
  let tokens := literalTokens literal
  tokens.all isClassToken && tokens.any known

/-- The known classes that a class list names. -/
def classesOf (known : Text → Bool) (literal : Text) : List Text :=
  if isClassList known literal then (literalTokens literal).filter known else []

/-- A literal with its classes renamed, if it is a class list over the renamed classes. -/
def renameClassLiteral (classes : RenameMap) (literal : Text) : Text :=
  if isClassList (fun t => (classes.find? t).isSome) literal then
    (literalPieces literal).flatMap fun p => if p.note then classes.rename p.text else p.text
  else literal

/-- An attribute value with its tokens renamed. A token is looked up as `decode` reads it. -/
def renameTokenList (decode : Text → Text) (renames : RenameMap) (value : Text) : Text :=
  mapWords (fun word => (renames.find? (decode word)).getD word) value

/-- The names written `.name` anywhere in a text. -/
def dottedNames (t : Text) : List Text :=
  (Stylesheet.markedNames '.' t).map Stylesheet.MarkedName.name

end WebTrim.Literal
