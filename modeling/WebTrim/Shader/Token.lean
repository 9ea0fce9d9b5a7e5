import WebTrim.Text.Letter
import WebTrim.Token

/-!
# Tokens of a shader

* `placedTokens` — identifiers, numbers, operators, white space and comments, and where they begin.
* `tokens` — the tokens alone; `join_tokens`: nothing is lost.
* `significant` — the tokens without white space and comments.
-/

set_option autoImplicit false

namespace WebTrim.Shader

open Text

/-- The kinds of tokens in a shader. -/
inductive Kind where
  | identifier
  | number
  | operator
  | whitespace
  | comment
  deriving DecidableEq, Repr

/-- A character that may begin an identifier. -/
def isIdentStart (c : Char) : Bool :=
  isAsciiLetter c || c == '_'

/-- A character that may stand in an identifier. -/
def isIdentChar (c : Char) : Bool :=
  isAsciiAlnum c || c == '_'

/-- Length of the exponent at the beginning of a text; zero if there is none. -/
def exponentLength : Text → Nat
  | c :: rest =>
    if c = 'e' ∨ c = 'E' then
      let sign := if rest.head? = some '+' ∨ rest.head? = some '-' then 1 else 0
      let digits := ((rest.drop sign).takeWhile isDecimalDigit).length
      if digits = 0 then 0 else 1 + sign + digits
    else 0
  | [] => 0

/-- Length of a type suffix of a number, among the given ones. -/
def suffixLength (suffixes : List String) (t : Text) : Nat :=
  ((suffixes.find? fun s => s.toList.isPrefixOf t).map String.length).getD 0

/-- Length of the digits and the point at the beginning of a decimal number. -/
def mantissaLength (t : Text) : Nat :=
  let whole := (t.takeWhile isDecimalDigit).length
  let after := t.drop whole
  if after.head? = some '.' then whole + 1 + ((after.drop 1).takeWhile isDecimalDigit).length
  else whole

/-- Length of a hexadecimal number at the beginning of a text; zero if there is none. -/
def hexLength : Text → Nat
  | '0' :: x :: rest =>
    let digits := (rest.takeWhile isHexDigit).length
    if (x = 'x' ∨ x = 'X') ∧ digits ≠ 0 then
      2 + digits + suffixLength ["u", "U"] (rest.drop digits)
    else 0
  | _ => 0

/-- Length of the number at the beginning of a text. -/
def numberLength (t : Text) : Nat :=
  let hex := hexLength t
  if hex ≠ 0 then hex
  else
    let mantissa := mantissaLength t
    let exponent := exponentLength (t.drop mantissa)
    mantissa + exponent + suffixLength ["lf", "LF", "f", "F", "u", "U"] (t.drop (mantissa + exponent))

/-- Does a number begin here? -/
def opensNumber (c : Char) (rest : Text) : Bool :=
  isAsciiDigit c || (c == '.' && rest.head?.any isAsciiDigit)

/-- One token. -/
def tokenStep (_ : Unit) (c : Char) (rest : Text) : Step Unit Kind :=
  if isBlank c then ⟨(rest.takeWhile isBlank).length, .whitespace, ()⟩
  else if c = '/' ∧ rest.head? = some '/' then
    ⟨(rest.takeWhile (· ≠ '\n')).length, .comment, ()⟩
  else if c = '/' ∧ rest.head? = some '*' then
    ⟨1 + lengthThrough ['*', '/'] (rest.drop 1), .comment, ()⟩
  else if isIdentStart c then ⟨(rest.takeWhile isIdentChar).length, .identifier, ()⟩
  else if opensNumber c rest then ⟨numberLength (c :: rest) - 1, .number, ()⟩
  else ⟨0, .operator, ()⟩

/-- The tokens of a shader, with their places. -/
def placedTokens (source : Text) : List (Placed Kind) :=
  Placed.scan tokenStep () 0 source

/-- The tokens of a shader. -/
def tokens (source : Text) : List (Token Kind) :=
  (placedTokens source).map Placed.toToken

theorem tokens_eq (source : Text) : tokens source = (scan tokenStep () source).map Token.ofPiece := by
  rw [tokens, placedTokens, Placed.map_toToken_scan]

theorem join_tokens (source : Text) : Token.join (tokens source) = source := by
  rw [tokens_eq, Token.join_map_ofPiece, scan_text]

/-- White space and comments carry no meaning. -/
def isSignificant (t : Token Kind) : Bool :=
  t.kind != .whitespace && t.kind != .comment

/-- The tokens that carry meaning. -/
def significant (ts : List (Token Kind)) : List (Token Kind) :=
  ts.filter isSignificant

/-- The shader without comments. A block comment leaves a space, since it may be all that separates
two tokens. -/
def stripComments (source : Text) : Text :=
  (tokens source).flatMap fun t =>
    if t.kind = .comment then (if ['/', '*'].isPrefixOf t.text then [' '] else []) else t.text

end WebTrim.Shader
