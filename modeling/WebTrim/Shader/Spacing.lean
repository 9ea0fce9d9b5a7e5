import WebTrim.Shader.Token
import WebTrim.Text.Search

/-!
# Collapsing the white space of a shader

Code is written without white space except where two tokens would run together. Each directive keeps
a line of its own.
-/

set_option autoImplicit false

namespace WebTrim.Shader

open Text

/-- Operators that could join with a neighbour to form another operator. -/
def isJoiningOperator (t : Text) : Bool :=
  match t with
  | [c] => "+-*/%<>=!&|^".toList.contains c
  | _ => false

/-- An identifier or a number. -/
def isWord (t : Token Kind) : Bool :=
  t.kind == .identifier || t.kind == .number

/-- Must a space stand between two tokens, given whether anything separated them? -/
def needsSpace (before after : Token Kind) (separated : Bool) : Bool :=
  (isWord before && isWord after) ||
    (separated && isJoiningOperator before.text && isJoiningOperator after.text)

/-- The tokens after `before`, written with as little space as possible. -/
def compactFrom (before : Option (Token Kind)) (separated : Bool) : List (Token Kind) → Text
  | [] => []
  | t :: rest =>
    if isSignificant t then
      (if before.any fun b => needsSpace b t separated then [' '] else []) ++ t.text ++
        compactFrom (some t) false rest
    else compactFrom before true rest

/-- The significant tokens, written with as little space as possible. -/
def compact (ts : List (Token Kind)) : Text :=
  compactFrom none false ts

/-- A piece of code, written with as little space as possible. -/
def compactCode (source : Text) : Text :=
  compact (tokens source)

/-- A directive taken apart into its name and its argument. The argument may not span lines. -/
def readDirective? (line : Text) : Option (Text × Text) :=
  match line with
  | '#' :: t =>
    match t.dropWhile isBlank with
    | c :: rest =>
      if isIdentStart c then
        let (more, after) := splitWhile isWordChar rest
        let argument := after.dropWhile isBlank
        if (dropFinalNewline argument).contains '\n' then none else some (c :: more, trim argument)
      else none
    | [] => none
  | _ => none

/-- The argument of a macro definition. A parameter list directly after the name stays there. -/
def compactDefinition (argument : Text) : Text :=
  let (name, body) := splitWhile isIdentChar argument
  let (parameters, body) := match body with
    | '(' :: rest =>
      match cut? [')'] rest with
      | some (inside, after) => ('(' :: inside ++ [')'], after)
      | none => ([], body)
    | _ => ([], body)
  let body := compactCode body
  name ++ compactCode parameters ++ (if body.isEmpty then [] else ' ' :: body)

/-- A directive in short form; the argument of an `#include` stays as it is. -/
def compactDirective (line : Text) : Text :=
  match readDirective? line with
  | none => '#' :: trim (line.drop 1)
  | some (name, argument) =>
    if argument.isEmpty then '#' :: name
    else if name = "include".toList then "#include ".toList ++ argument
    else if name = "define".toList ∧ argument.head?.any isIdentStart then
      "#define ".toList ++ compactDefinition argument
    else '#' :: name ++ ' ' :: compactCode argument

/-- The text with every line end written as a newline. -/
def normalizeNewlines : Text → Text
  | [] => []
  | '\r' :: '\n' :: rest => '\n' :: normalizeNewlines rest
  | c :: rest => (if c = '\r' then '\n' else c) :: normalizeNewlines rest

/-- The code gathered so far as a line, if there is any. -/
def flushCode (pending : List Text) : List Text :=
  let code := compactCode (join ['\n'] pending)
  if code.isEmpty then [] else [code]

/-- The lines of a compact shader. Code lines are gathered until a directive ends their run. -/
def compactLines (pending : List Text) : List Text → List Text
  | [] => flushCode pending
  | line :: rest =>
    let line := trim line
    if line.isEmpty then compactLines pending rest
    else if line.head? = some '#' then
      flushCode pending ++ compactDirective line :: compactLines [] rest
    else compactLines (pending ++ [line]) rest

/-- The shader with its white space collapsed. A newline at either end stays. -/
def compactSpacing (source : Text) : Text :=
  let source := normalizeNewlines source
  (if source.head? = some '\n' then ['\n'] else []) ++ join ['\n'] (compactLines [] (lines source)) ++
    (if source.getLast? = some '\n' then ['\n'] else [])

end WebTrim.Shader
