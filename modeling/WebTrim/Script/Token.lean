import WebTrim.Text.Letter
import WebTrim.Token

/-!
# Tokens of a script

A script is split into comments, strings, template literals and the code between them. A template is
written as a backtick, a segment, then for each hole `${`, the tokens of the hole, `}` and another
segment, and a closing backtick. Regular expressions stay part of the code.

The scanner is either in code or in a template. It keeps, for each open hole, the number of braces
open in it, and the text it has passed, last character first, from which it tells a regular
expression from a division. The open holes are a list, so holes nest to any depth. A scanner that calls
itself for each hole has a limit there, which is not modelled.

* `placedTokens` — the tokens of a script and where they begin; `tokens`: the tokens alone.
* `placedAtoms`, `atoms` — one token for each step of the scanner, before runs of code are merged.
-/

set_option autoImplicit false

namespace WebTrim.Script

open Text

/-- The kinds of tokens in a script. -/
inductive Kind where
  | code
  | comment
  | string
  | segment
  | operator
  deriving DecidableEq, Repr

/-- How many characters after an opening quote belong to the string. -/
def stringLength (quote : Char) : Text → Nat
  | [] => 0
  | [_] => 1
  | c :: d :: rest =>
    if c = '\\' then 2 + stringLength quote rest
    else if c = quote then 1
    else 1 + stringLength quote (d :: rest)

/-- A character of a word in a script. -/
def isScriptWordChar (c : Char) : Bool :=
  isAlnum c || c == '_' || c == '$'

/-- Words after which a slash begins a regular expression. -/
def regexKeywords : List String :=
  ["return", "typeof", "case", "do", "else", "in", "of", "new", "delete", "void", "throw",
    "instanceof", "yield", "await"]

/-- Characters after which a slash begins a regular expression. -/
def regexPreceders : Text :=
  "(,=:[!&|?{};+-*%<>~^".toList

/-- May a slash begin a regular expression, given the text before it, last character first? -/
def regexAllowed (behind : Text) : Bool :=
  match behind.dropWhile isBlank with
  | [] => true
  | c :: before =>
    if (c == '+' || c == '-') && before.head? == some c then false
    else if regexPreceders.contains c then true
    else
      let word := ((c :: before).takeWhile isScriptWordChar).reverse
      regexKeywords.any fun k => k.toList == word

/-- How many characters after a slash belong to the regular expression it begins, flags included; it
must be closed on its line. -/
def regexLength? (inClass : Bool) : Text → Option Nat
  | [] => none
  | [c] => if c = '/' ∧ !inClass then some 1 else none
  | c :: d :: rest =>
    if c = '\\' then (regexLength? inClass rest).map (2 + ·)
    else if c = '\n' then none
    else if c = '/' ∧ !inClass then some (1 + ((d :: rest).takeWhile isLetter).length)
    else
      let inClass := if inClass then c ≠ ']' else c = '['
      (regexLength? inClass (d :: rest)).map (1 + ·)

/-- How many characters of a template belong to the segment at its beginning. -/
def segmentLength : Text → Nat
  | [] => 0
  | [c] => if c = '`' then 0 else 1
  | c :: d :: rest =>
    if c = '\\' then 2 + segmentLength rest
    else if c = '`' then 0
    else if c = '$' ∧ d = '{' then 0
    else 1 + segmentLength (d :: rest)

/-- What the scanner reads in code at a character: the kind of the token, how many characters to
take after the first, and whether a template begins or a hole ends there. -/
inductive CodeStep where
  | take (kind : Kind) (extra : Nat)
  | openTemplate
  | openBrace
  | closeBrace
  deriving DecidableEq, Repr

/-- The next thing in code. -/
def codeStep (behind : Text) (c : Char) (rest : Text) : CodeStep :=
  if c = '/' ∧ rest.head? = some '/' then
    .take .comment (1 + ((rest.drop 1).takeWhile (· ≠ '\n')).length)
  else if c = '/' ∧ rest.head? = some '*' then
    .take .comment (1 + lengthThrough ['*', '/'] (rest.drop 1))
  else if c = '"' ∨ c = '\'' then .take .string (stringLength c rest)
  else if c = '`' then .openTemplate
  else if c = '{' then .openBrace
  else if c = '}' then .closeBrace
  else if c = '/' ∧ regexAllowed behind then .take .code ((regexLength? false rest).getD 0)
  else .take .code 0

/-- The tokens of code, or of a template when `inTemplate` holds, one token for each step. The first
begins at `start`. -/
def placedAtoms (inTemplate : Bool) (holes : List Nat) (behind : Text) (start : Nat) (t : Text) :
    List (Placed Kind) :=
  if inTemplate then
    let n := segmentLength t
    let segment : Token Kind := ⟨.segment, t.take n⟩
    match _h : t.drop n with
    | '`' :: rest =>
      ⟨segment, start⟩ :: ⟨⟨.operator, ['`']⟩, start + n⟩ ::
        placedAtoms false holes ('`' :: (t.take n).reverse ++ behind) (start + n + 1) rest
    | '$' :: '{' :: rest =>
      ⟨segment, start⟩ :: ⟨⟨.operator, ['$', '{']⟩, start + n⟩ ::
        placedAtoms false (0 :: holes) ('{' :: '$' :: (t.take n).reverse ++ behind) (start + n + 2) rest
    | _ => [⟨⟨.segment, t⟩, start⟩]
  else
    match t with
    | [] => []
    | c :: rest =>
      match codeStep behind c rest with
      | .take kind extra =>
        let text := c :: rest.take extra
        ⟨⟨kind, text⟩, start⟩ ::
          placedAtoms false holes (text.reverse ++ behind) (start + (extra + 1)) (rest.drop extra)
      | .openTemplate =>
        ⟨⟨.operator, [c]⟩, start⟩ :: placedAtoms true holes (c :: behind) (start + 1) rest
      | .openBrace =>
        let holes := match holes with
          | depth :: outer => (depth + 1) :: outer
          | [] => []
        ⟨⟨.code, [c]⟩, start⟩ :: placedAtoms false holes (c :: behind) (start + 1) rest
      | .closeBrace =>
        match holes with
        | 0 :: outer =>
          ⟨⟨.operator, [c]⟩, start⟩ :: placedAtoms true outer (c :: behind) (start + 1) rest
        | (depth + 1) :: outer =>
          ⟨⟨.code, [c]⟩, start⟩ ::
            placedAtoms false (depth :: outer) (c :: behind) (start + 1) rest
        | [] => ⟨⟨.code, [c]⟩, start⟩ :: placedAtoms false [] (c :: behind) (start + 1) rest
termination_by t.length
decreasing_by
  · have := congrArg List.length _h
    simp only [List.length_drop, List.length_cons] at this
    omega
  · have := congrArg List.length _h
    simp only [List.length_drop, List.length_cons] at this
    omega
  all_goals (simp only [List.length_drop, List.length_cons]; omega)

/-- The tokens of code or of a template, one token for each step. -/
def atoms (inTemplate : Bool) (holes : List Nat) (behind : Text) (t : Text) : List (Token Kind) :=
  (placedAtoms inTemplate holes behind 0 t).map Placed.toToken

/-- The tokens of a script, with their places. -/
def placedTokens (script : Text) : List (Placed Kind) :=
  Placed.mergeRuns .code (placedAtoms false [] [] 0 script)

/-- The tokens of a script. -/
def tokens (script : Text) : List (Token Kind) :=
  (placedTokens script).map Placed.toToken

theorem tokens_eq (script : Text) :
    tokens script = Token.mergeRuns .code (atoms false [] [] script) := by
  rw [tokens, placedTokens, Placed.map_toToken_mergeRuns, atoms]

end WebTrim.Script
