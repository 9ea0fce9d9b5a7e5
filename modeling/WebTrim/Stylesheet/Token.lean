import WebTrim.Token
import WebTrim.Stylesheet.Ident

/-!
# Tokens of a stylesheet

A stylesheet is split into comments, strings and the code between them. Names are looked for in code
only.

* `placedTokens` — the tokens of a stylesheet and where they begin.
* `tokens` — the tokens alone; `join_tokens`: nothing is lost.
-/

set_option autoImplicit false

namespace WebTrim.Stylesheet

open Text

/-- The kinds of tokens in a stylesheet. -/
inductive Kind where
  | code
  | comment
  | string
  deriving DecidableEq, Repr

/-- How many characters after an opening quote belong to the string. It ends after the closing quote
or before a newline. -/
def stringLength (quote : Char) : Text → Nat
  | [] => 0
  | [c] => if c = '\n' then 0 else 1
  | c :: d :: rest =>
    if c = '\\' then 2 + stringLength quote rest
    else if c = quote then 1
    else if c = '\n' then 0
    else 1 + stringLength quote (d :: rest)

/-- One step of the scanner: an escaped character, a comment, a string, or one character. -/
def tokenStep (_ : Unit) (c : Char) (rest : Text) : Step Unit Kind :=
  if c = '\\' then ⟨1, .code, ()⟩
  else if c = '/' ∧ rest.head? = some '*' then
    ⟨1 + lengthThrough ['*', '/'] (rest.drop 1), .comment, ()⟩
  else if c = '"' ∨ c = '\'' then ⟨stringLength c rest, .string, ()⟩
  else ⟨0, .code, ()⟩

/-- The tokens of a stylesheet, with their places. -/
def placedTokens (css : Text) : List (Placed Kind) :=
  Placed.mergeRuns .code (Placed.scan tokenStep () 0 css)

/-- The tokens of a stylesheet. -/
def tokens (css : Text) : List (Token Kind) :=
  (placedTokens css).map Placed.toToken

theorem tokens_eq (css : Text) :
    tokens css = Token.mergeRuns .code ((scan tokenStep () css).map Token.ofPiece) := by
  rw [tokens, placedTokens, Placed.map_toToken_mergeRuns, Placed.map_toToken_scan]

theorem join_tokens (css : Text) : Token.join (tokens css) = css := by
  rw [tokens_eq, Token.join_mergeRuns, Token.join_map_ofPiece, scan_text]

/-- The texts of the code tokens. -/
def codeTexts (css : Text) : List Text :=
  ((tokens css).filter fun t => t.kind = .code).map Token.text

/-- The stylesheet with `f` applied to its code. -/
def mapCode (f : Text → Text) (css : Text) : Text :=
  (tokens css).flatMap fun t => if t.kind = .code then f t.text else t.text

/-- The stylesheet with `f`, which may fail, applied to its code. -/
def mapCodeM {ε : Type} (f : Text → Except ε Text) (css : Text) : Except ε Text :=
  ((tokens css).mapM fun t => if t.kind = .code then f t.text else .ok t.text).map List.flatten

end WebTrim.Stylesheet
