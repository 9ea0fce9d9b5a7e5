import WebTrim.Stylesheet.Gap
import WebTrim.Stylesheet.Ident
import WebTrim.Text.Case

/-!
# Addresses

The inside of `url(…)` is a quoted or a bare address. White space and escaped line ends in it carry
no meaning and are dropped, except in a quoted data address that is written in plain text.

* `quotedExtra?` — how far a quoted text goes.
* `readAddress?` — the shortest form of what follows `url(`, and how much of the text it stands for.
-/

set_option autoImplicit false

namespace WebTrim.Stylesheet

open Text

/-- The characters that end a line. -/
def isNewline (c : Char) : Bool :=
  c == '\n' || c == '\r' || c == '\x0c'

/-- How many characters a line end at the start of a text takes: a carriage return takes the newline
after it along. -/
def newlineLength : Text → Nat
  | '\r' :: '\n' :: _ => 2
  | c :: _ => if isNewline c then 1 else 0
  | [] => 0

/-- How many characters after a backslash belong to an escape: up to six hexadecimal digits, or one
other character that does not end a line. -/
def plainEscapeLength (rest : Text) : Nat :=
  match escapeDigits rest, rest with
  | [], c :: _ => if isNewline c then 0 else 1
  | [], [] => 0
  | digits, _ => digits.length

/-- The same with one white space character, or a whole line end, after hexadecimal digits. -/
def fullEscapeLength (rest : Text) : Nat :=
  let n := plainEscapeLength rest
  let after := rest.drop n
  if (escapeDigits rest).isEmpty then n
  else if after.head?.any isSpace then n + max 1 (newlineLength after)
  else n

/-- Where line ends may stand in a quoted text. -/
inductive LineEnds where
  /-- Nowhere. -/
  | none
  /-- After a backslash. -/
  | escaped
  /-- Anywhere. -/
  | free
  deriving DecidableEq, Repr

/-- How many characters after an opening quote belong to the quoted text, the closing quote
included, if it is closed. -/
def quotedExtra? (ends : LineEnds) (quote : Char) (t : Text) : Option Nat :=
  match t with
  | [] => none
  | c :: rest =>
    if c = quote then some 1
    else if c = '\\' then
      let n := max 1 (newlineLength rest)
      if rest.isEmpty || (0 < newlineLength rest && ends = .none) then none
      else (quotedExtra? ends quote (rest.drop n)).map (1 + n + ·)
    else if isNewline c && ends ≠ .free then none
    else (quotedExtra? ends quote rest).map (1 + ·)
termination_by t.length
decreasing_by all_goals (simp only [List.length_drop, List.length_cons]; omega)

/-- A text without its escaped line ends. -/
def joinLines : Text → Text
  | '\\' :: '\r' :: '\n' :: rest => joinLines rest
  | '\\' :: c :: rest => if isNewline c then joinLines rest else '\\' :: joinLines (c :: rest)
  | c :: rest => c :: joinLines rest
  | [] => []

/-- A text without white space and escaped line ends; other escapes stay whole. -/
def dropSpace (t : Text) : Text :=
  match t with
  | [] => []
  | c :: rest =>
    if c = '\\' then
      let n := fullEscapeLength rest
      if 0 < n then c :: rest.take n ++ dropSpace (rest.drop n)
      else if 0 < newlineLength rest then dropSpace (rest.drop (newlineLength rest))
      else c :: dropSpace rest
    else if isSpace c then dropSpace rest
    else c :: dropSpace rest
termination_by t.length
decreasing_by all_goals (simp only [List.length_drop, List.length_cons]; omega)

/-- Whether a quoted address holds its data in plain text: it names a data address, and what comes
before the comma does not end by naming the base 64 form. -/
def isPlainData (quoted : Text) : Bool :=
  match "data:".toList.isPrefixOf? (lowerAscii (quoted.drop 1)) with
  | none => false
  | some t =>
    match cut? [','] t with
    | none => false
    | some (header, _) => !";base64".toList.isSuffixOf header

/-- Where the reader of a bare address is. -/
inductive BareState where
  /-- In the first part. -/
  | start
  /-- After white space. -/
  | space
  /-- After an escaped line end that follows the first part. -/
  | lineEnd
  /-- In a later part. -/
  | part
  deriving DecidableEq, Repr

/-- A character that stands for itself in a bare address. -/
def isBareChar (c : Char) : Bool :=
  0x20 < c.toNat && c.toNat ≠ 0x7F && !(['"', '\'', '(', ')', '\\'].contains c)

/-- How many characters stand before the closing parenthesis of a bare address. Between its parts
there may be white space or escaped line ends, but a single escaped line end after the first part
needs another part right after it. -/
def bareLength? (state : BareState) (t : Text) : Option Nat :=
  match t with
  | [] => none
  | c :: rest =>
    let inPart := if state = .start then .start else BareState.part
    if c = ')' then if state = .lineEnd then none else some 0
    else if isSpace c then
      if state = .lineEnd then none else (bareLength? .space rest).map (1 + ·)
    else if c = '\\' then
      let line := newlineLength rest
      let n := plainEscapeLength rest
      if 0 < line then
        let next := if state = .start then .lineEnd else BareState.part
        (bareLength? next (rest.drop line)).map (1 + line + ·)
      else if 0 < n then (bareLength? inPart (rest.drop n)).map (1 + n + ·)
      else none
    else if isBareChar c then (bareLength? inPart rest).map (1 + ·)
    else none
termination_by t.length
decreasing_by all_goals (simp only [List.length_drop, List.length_cons]; omega)

/-- The address at the start of a text that follows `url(`: its shortest form, and how many
characters it takes with the closing parenthesis. -/
def readAddress? (t : Text) : Option (Text × Nat) :=
  let (before, core) := splitWhile isSpace t
  match core with
  | [] => none
  | c :: rest =>
    if c = '"' ∨ c = '\'' then do
      let n ← quotedExtra? .free c rest
      let quoted := c :: rest.take n
      let (blanks, after) := splitWhile isSpace (rest.drop n)
      let short := if isPlainData quoted then quoted else dropSpace quoted
      if after.head? = some ')' then some (short, before.length + 1 + n + blanks.length + 1)
      else none
    else do
      let n ← bareLength? (if before.isEmpty then .start else .space) core
      return (dropSpace (core.take n), before.length + n + 1)

end WebTrim.Stylesheet
