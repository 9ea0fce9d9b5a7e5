import WebTrim.Yaml.Quoted

/-!
# Tokens of a settings file

Block structure comes from indentation. A scalar or a flow collection may turn out to be a key when
a colon follows it on the same line, so the scanner remembers, per nesting level, where such a key
would start, and marks it when the colon comes. Anchors, tags, directives and block scalars are not
part of the format that is read here.

* `tokens?` — the tokens of a document, if it can be split into tokens.
-/

set_option autoImplicit false

namespace WebTrim.Yaml

open Text

/-- The tokens of a document. -/
inductive Token where
  | blockSequence
  | blockMapping
  | blockEnd
  | flowSequence
  | flowSequenceEnd
  | flowMapping
  | flowMappingEnd
  | entry
  | comma
  | key
  | value
  | scalar (text : Text) (plain : Bool)
  | documentStart
  | documentEnd
  deriving DecidableEq, Repr

/-- A place where a key may have started: its place in the text and among the tokens, and whether a
key must stand there. -/
structure PossibleKey where
  index : Nat
  line : Nat
  column : Nat
  tokenNumber : Nat
  required : Bool
  deriving DecidableEq, Repr

/-- The state of the scanner. -/
structure Scanner where
  rest : Text
  index : Nat := 0
  line : Nat := 0
  column : Nat := 0
  /-- The columns of the open block collections, innermost first. -/
  indents : List Nat := []
  flowLevel : Nat := 0
  keyAllowed : Bool := true
  /-- Possible keys by nesting level. -/
  keys : List (Nat × PossibleKey) := []
  tokens : List Token := []
  deriving Repr

namespace Scanner

/-- Moves past `n` characters. -/
def advance (s : Scanner) (n : Nat) : Scanner :=
  let (line, column) := (s.rest.take n).foldl (fun (line, column) c =>
    if isBreak c then (line + 1, 0)
    else if c.toNat = 0xFEFF then (line, column)
    else (line, column + 1)) (s.line, s.column)
  { s with rest := s.rest.drop n, index := s.index + n, line, column }

/-- Adds a token. -/
def emit (s : Scanner) (token : Token) : Scanner :=
  { s with tokens := s.tokens ++ [token] }

/-- The length of the spaces, comments and line ends at the start of a text. -/
def gapLength (inComment : Bool) : Text → Nat
  | [] => 0
  | c :: rest =>
    if isBreak c then 1 + gapLength false rest
    else if inComment || c == ' ' then 1 + gapLength inComment rest
    else if c == '#' then 1 + gapLength true rest
    else 0

/-- Moves to the next token. A new line in block context may start with a key. -/
def skipGap (s : Scanner) : Scanner :=
  let n := gapLength false s.rest
  let newLine := (s.rest.take n).any isBreak && s.flowLevel == 0
  { s.advance n with keyAllowed := s.keyAllowed || newLine }

/-- Closes the block collections that are indented deeper than `keep` allows. -/
def unwind (s : Scanner) (keep : Nat → Bool) : Scanner :=
  if s.flowLevel > 0 then s
  else
    let closed := s.indents.takeWhile (!keep ·)
    { s with
      indents := s.indents.drop closed.length
      tokens := s.tokens ++ closed.map fun _ => .blockEnd }

/-- Whether a column is deeper than the innermost block collection. -/
def isDeeper (s : Scanner) (column : Nat) : Bool :=
  match s.indents with
  | [] => true
  | top :: _ => top < column

/-- Forgets the possible key of this level. A required key cannot be forgotten. -/
def dropKey? (s : Scanner) : Option Scanner :=
  match s.keys.lookup s.flowLevel with
  | some key =>
    if key.required then none
    else some { s with keys := s.keys.filter (·.1 ≠ s.flowLevel) }
  | none => some s

/-- A possible key is too far away if it is on another line or more than 1024 characters back. -/
def isStale (s : Scanner) (key : PossibleKey) : Bool :=
  key.line != s.line || s.index - key.index > 1024

/-- Forgets possible keys that are too far away. -/
def dropStaleKeys? (s : Scanner) : Option Scanner :=
  if s.keys.any fun (_, key) => isStale s key && key.required then none
  else some { s with keys := s.keys.filter fun (_, key) => !isStale s key }

/-- Remembers that a key may start here. -/
def saveKey? (s : Scanner) : Option Scanner :=
  if !s.keyAllowed then some s
  else do
    let required := s.flowLevel == 0 && s.indents.head? == some s.column
    let s ← s.dropKey?
    let key := ⟨s.index, s.line, s.column, s.tokens.length, required⟩
    return { s with keys := (s.flowLevel, key) :: s.keys }

/-- The opening bracket of a flow collection. -/
def openFlow? (s : Scanner) (token : Token) : Option Scanner := do
  let s ← s.saveKey?
  return ({ s with flowLevel := s.flowLevel + 1, keyAllowed := true }.emit token).advance 1

/-- The closing bracket of a flow collection. -/
def closeFlow? (s : Scanner) (token : Token) : Option Scanner := do
  let s ← s.dropKey?
  return ({ s with flowLevel := s.flowLevel - 1, keyAllowed := false }.emit token).advance 1

/-- A comma. -/
def comma? (s : Scanner) : Option Scanner := do
  let s ← { s with keyAllowed := true }.dropKey?
  return (s.emit .comma).advance 1

/-- Opens a block collection here if none is open at this column. -/
def openBlock? (s : Scanner) (token : Token) : Option Scanner :=
  if s.flowLevel > 0 then some s
  else if !s.keyAllowed then none
  else if s.isDeeper s.column then
    some ({ s with indents := s.column :: s.indents }.emit token)
  else some s

/-- The dash of an entry. -/
def entry? (s : Scanner) : Option Scanner := do
  let s ← s.openBlock? .blockSequence
  let s ← { s with keyAllowed := true }.dropKey?
  return (s.emit .entry).advance 1

/-- The question mark of a key. -/
def key? (s : Scanner) : Option Scanner := do
  let s ← s.openBlock? .blockMapping
  let s ← { s with keyAllowed := s.flowLevel == 0 }.dropKey?
  return (s.emit .key).advance 1

/-- The colon after a key. If a possible key is known it is marked as a key. -/
def value? (s : Scanner) : Option Scanner :=
  match s.keys.lookup s.flowLevel with
  | some key =>
    let opens := s.flowLevel == 0 && s.isDeeper key.column
    let added := (if opens then [.blockMapping] else []) ++ [.key]
    some (({ s with
      keys := s.keys.filter (·.1 ≠ s.flowLevel)
      indents := if opens then key.column :: s.indents else s.indents
      tokens := s.tokens.take key.tokenNumber ++ added ++ s.tokens.drop key.tokenNumber
      keyAllowed := false }.emit .value).advance 1)
  | none => do
    let s ← s.openBlock? .blockMapping
    return ({ s with keyAllowed := s.flowLevel == 0 }.emit .value).advance 1

/-- A mark between documents. -/
def marker? (s : Scanner) (token : Token) : Option Scanner := do
  let s ← (s.unwind fun _ => false).dropKey?
  return ({ s with keyAllowed := false }.emit token).advance 3

/-- A quoted scalar. -/
def quoted? (s : Scanner) (quote : Char) : Option Scanner := do
  let s ← s.saveKey?
  let (text, n) ← readQuoted? quote (s.rest.drop 1)
  return ({ s with keyAllowed := false }.emit (.scalar text false)).advance (1 + n)

/-- The characters that separate flow entries. -/
def isFlowMark (c : Char) : Bool :=
  [',', '?', '[', ']', '{', '}'].contains c

/-- The length of the word of a plain scalar at the start of a text. -/
def wordLength (inFlow : Bool) : Text → Nat
  | [] => 0
  | c :: rest =>
    let flowEnds := inFlow && rest.head?.any [',', '[', ']', '{', '}'].contains
    let colonEnds := startsBlank rest || flowEnds
    if startsBlank [c] || (c == ':' && colonEnds) || (inFlow && isFlowMark c) then 0
    else 1 + wordLength inFlow rest

/-- The spaces and line ends after a word of a plain scalar. It stops before a mark between
documents; the flag tells that it did. -/
def plainGap (afterBreak : Bool) : Text → Text × Bool
  | [] => ([], false)
  | c :: rest =>
    if afterBreak && atMarker (c :: rest) then ([], true)
    else if isBreak c then
      let (gap, stopped) := plainGap true rest
      (c :: gap, stopped)
    else if c == ' ' then
      let (gap, stopped) := plainGap false rest
      (c :: gap, stopped)
    else ([], false)

/-- The rest of a plain scalar: further words, in block context as long as they are indented deeper
than the collection around. `gap` is what was read between the last word and here. -/
def plainWords (s : Scanner) (gap : Text) : Text × Scanner :=
  let n := wordLength (s.flowLevel > 0) s.rest
  if s.rest.head? = some '#' ∨ n = 0 then ([], s)
  else
    let word := s.rest.take n
    let after := { s.advance n with keyAllowed := false }
    let (next, stopped) := plainGap false after.rest
    let spaced := after.advance next.length
    let moved := { spaced with keyAllowed := next.any isBreak }
    let ends := next.isEmpty || stopped ||
      (s.flowLevel == 0 && !moved.isDeeper (moved.column) && !s.indents.isEmpty)
    if ends then (foldGap gap ++ word, moved)
    else if _h : moved.rest.length < s.rest.length then
      let (more, last) := plainWords moved next
      (foldGap gap ++ word ++ more, last)
    else (foldGap gap ++ word, moved)
termination_by s.rest.length

/-- A plain scalar. -/
def plain? (s : Scanner) : Option Scanner := do
  let s ← s.saveKey?
  let (text, s) := { s with keyAllowed := false }.plainWords []
  return s.emit (.scalar text true)

/-- Characters that cannot start a plain scalar on their own. -/
def indicators : List Char :=
  ['-', '?', ':', ',', '[', ']', '{', '}', '#', '&', '*', '!', '|', '>', '\'', '"', '%', '@', '`']

/-- Whether a plain scalar starts with this character. -/
def startsPlain (inFlow : Bool) (c : Char) (rest : Text) : Bool :=
  (!indicators.contains c && c != '\t') ||
    (!startsBlank rest && (c == '-' || (!inFlow && (c == '?' || c == ':'))))

/-- The next token, which starts with `c`. -/
def step? (s : Scanner) (c : Char) (rest : Text) : Option Scanner :=
  let inFlow := s.flowLevel > 0
  if s.column = 0 && atMarker (c :: rest) then
    s.marker? (if c = '-' then .documentStart else .documentEnd)
  else if c = '%' && s.column = 0 then none
  else if c = '[' then s.openFlow? .flowSequence
  else if c = '{' then s.openFlow? .flowMapping
  else if c = ']' then s.closeFlow? .flowSequenceEnd
  else if c = '}' then s.closeFlow? .flowMappingEnd
  else if c = ',' then s.comma?
  else if c = '-' && startsBlank rest then s.entry?
  else if c = '?' && (inFlow || startsBlank rest) then s.key?
  else if c = ':' && (inFlow || startsBlank rest) then s.value?
  else if c = '\'' || c = '"' then s.quoted? c
  else if startsPlain inFlow c rest then s.plain?
  else none

/-- All tokens from here on. -/
def run? (s : Scanner) : Option (List Token) :=
  let s' := s.skipGap
  match s'.dropStaleKeys? with
  | none => none
  | some s'' =>
    let here := s''.unwind (· ≤ s''.column)
    match here.rest with
    | [] => ((here.unwind fun _ => false).dropKey?).map (·.tokens)
    | c :: rest =>
      match here.step? c rest with
      | none => none
      | some next => if _h : next.rest.length < s.rest.length then run? next else none
termination_by s.rest.length

end Scanner

/-- Characters that a document may hold. -/
def isAllowed (c : Char) : Bool :=
  let n := c.toNat
  n = 0x09 || n = 0x0A || n = 0x0D || (0x20 ≤ n && n ≤ 0x7E) || n = 0x85 ||
    (0xA0 ≤ n && n ≤ 0xFFFD) || 0x10000 ≤ n

/-- The text with every line end written as a newline. -/
def newlines : Text → Text
  | '\r' :: '\n' :: rest => '\n' :: newlines rest
  | '\r' :: rest => '\n' :: newlines rest
  | c :: rest => c :: newlines rest
  | [] => []

/-- The tokens of a document. -/
def tokens? (document : Text) : Option (List Token) :=
  if !document.all isAllowed then none
  else
    let t := newlines document
    Scanner.run? { rest := if t.head?.any (·.toNat = 0xFEFF) then t.drop 1 else t }

end WebTrim.Yaml
