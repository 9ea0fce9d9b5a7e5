import WebTrim.Stylesheet.Address

/-!
# Minifying a stylesheet

A stylesheet is minified in one walk from left to right. White space and comments vanish where they
separate nothing, and shrink to one space elsewhere; superfluous semicolons and escaped line ends
vanish too. What a space before a colon means depends on the place: outside of rules it separates a
selector from a pseudo-class.

* `minify` — the minified stylesheet.
-/

set_option autoImplicit false

namespace WebTrim.Stylesheet

open Text

/-- What the walk has seen so far. -/
structure Context where
  /-- The character before the current place. -/
  before : Option Char := none
  /-- Whether a part is hidden from an old browser. -/
  hidden : Bool := false
  /-- How many rules are open. -/
  rules : Nat := 0
  /-- How many group rules wait for their block. -/
  groups : Nat := 0
  deriving DecidableEq, Repr

namespace Context

/-- Neither in a rule nor before the block of a group rule. -/
def isOutside (k : Context) : Bool :=
  k.rules == 0 && k.groups == 0

/-- An opening brace: the block of a group rule, or a rule. -/
def openBlock (k : Context) : Context :=
  if 0 < k.groups then { k with groups := k.groups - 1 } else { k with rules := k.rules + 1 }

/-- A closing brace. -/
def closeBlock (k : Context) : Context :=
  { k with rules := k.rules - 1 }

end Context

/-- A decision of the walk: how many characters to take after the current one, what to write for all
of them, and the context afterwards. -/
structure Move where
  extra : Nat
  written : Text
  context : Context

/-- Writes `lead` and what is left of a gap. -/
def Move.strip (extra : Nat) (lead gap : Text) (k : Context) : Move :=
  let (kept, hidden) := Stylesheet.strip k.hidden gap
  ⟨extra, lead ++ kept, { k with hidden }⟩

/-- Takes the characters as they are. -/
def Move.copy (c : Char) (rest : Text) (extra : Nat) (k : Context) : Move :=
  ⟨extra, c :: rest.take extra, k⟩

/-- Characters that the walk looks at. -/
def isActive (c : Char) : Bool :=
  isSpace c || ['\\', '"', '\'', 'u', '>', '@', '/', ';', ':', '{', '}', '+'].contains c

/-- Characters after which a gap vanishes. -/
def swallowsGapAfter (c : Char) : Bool :=
  ['{', '}', '(', '=', ':', '>', '[', ',', '!'].contains c

/-- Characters before which a gap vanishes. -/
def swallowsGapBefore (c : Char) : Bool :=
  [':', '{', '}', ')', ';', '=', '>', ']', ',', '!'].contains c

/-- A gap. It vanishes at the start, at the end and next to a swallowing character; a colon outside
of rules keeps a space. After an ampersand the gap is not looked at here. -/
def gapMove? (k : Context) (c : Char) (rest : Text) : Option Move :=
  let n := gapLength (c :: rest)
  let gap := (c :: rest).take n
  let after := ((c :: rest).drop n).head?
  if n = 0 then none
  else
    match k.before with
    | none => some (.strip (n - 1) [] gap k)
    | some b =>
      if swallowsGapAfter b then some (.strip (n - 1) [] gap k)
      else if b = '&' then none
      else if after.all swallowsGapBefore && !(after == some ':' && k.isOutside) then
        some (.strip (n - 1) [] gap k)
      else some (.strip (n - 1) [' '] gap k)

/-- A semicolon takes the gaps and semicolons after it along. Before the end of a rule it vanishes.
-/
def semicolonMove (k : Context) (rest : Text) : Move :=
  let n := gapLengthWith (· == ';') rest
  let gap := rest.take n
  if (rest.drop n).head? = some '}' ∧ 0 < k.rules then .strip n [] gap k
  else .strip n [';'] gap k

/-- A quoted text is copied. If it goes over several lines, these are joined. -/
def quotedMove? (k : Context) (quote : Char) (rest : Text) : Option Move :=
  match quotedExtra? .none quote rest with
  | some n => some (.copy quote rest n k)
  | none => (quotedExtra? .escaped quote rest).map fun n =>
      ⟨n, quote :: joinLines (rest.take n), k⟩

/-- An address. -/
def addressMove? (k : Context) (rest : Text) : Option Move :=
  if k.before.any isIdentChar then none
  else do
    let (short, n) ← readAddress? (← "rl(".toList.isPrefixOf? rest)
    return ⟨3 + n, "url(".toList ++ short ++ [')'], k⟩

/-- The group rules, which hold other rules. -/
def groupRules : List Text :=
  ["media", "supports", "document", "keyframes", "-webkit-keyframes", "-moz-keyframes",
   "-o-keyframes", "-ms-keyframes"].map String.toList

/-- The name of a group rule. -/
def groupMove? (k : Context) (rest : Text) : Option Move :=
  (groupRules.find? fun word =>
    lowerAscii (rest.take word.length) == word &&
      !(rest.drop word.length).head?.any isIdentChar).map fun word =>
    .copy '@' rest word.length { k with groups := k.groups + 1 }

/-- An ampersand with a gap: one space stays if the gap has white space and something follows. -/
def nestingMove? (k : Context) (rest : Text) : Option Move :=
  let n := gapLength rest
  let gap := rest.take n
  let spaced := (gapPieces gap).any (!·.note) && !(rest.drop n).isEmpty
  if n = 0 then none
  else some (.strip n (if spaced then ['&', ' '] else ['&']) gap k)

/-- A child selector with an empty comment, which one old browser reads differently. It is kept
outside of rules only. -/
def childMove? (k : Context) (rest : Text) : Option Move := do
  let after ← "/**/".toList.isPrefixOf? rest
  let n := gapLength after
  let gap := after.take n
  return if k.isOutside then .strip (4 + n) ">/**/".toList gap { k with hidden := false }
    else .strip (4 + n) ['>'] gap k

/-- A pseudo-element for the first line or letter needs a space before the next mark. -/
def pseudoMove? (k : Context) (rest : Text) : Option Move := do
  let word ← ["first-line".toList, "first-letter".toList].find? fun word =>
    lowerAscii (rest.take word.length) == word
  let after := rest.drop word.length
  let n := gapLength after
  let marked := (after.drop n).head?.any fun c => c == '{' || c == ','
  if marked then
    some (.strip (word.length + n) (':' :: rest.take word.length ++ [' ']) (after.take n) k)
  else none

/-- A text in which every run of line ends and tabs is one space. -/
def spaceRuns : Bool → Text → Text
  | _, [] => []
  | inRun, c :: rest =>
    if isNewline c || c == '\t' then
      if inRun then spaceRuns true rest else ' ' :: spaceRuns true rest
    else c :: spaceRuns false rest

/-- An escape and the plain characters after it. -/
def escapeMove? (k : Context) (rest : Text) : Option Move :=
  let n := fullEscapeLength rest
  if n = 0 then none
  else
    let extra := n + ((rest.drop n).takeWhile (!isActive ·)).length
    some ⟨extra, '\\' :: spaceRuns false (rest.take extra), k⟩

/-- The move at a character that is looked at, other than a gap. -/
def markMove? (k : Context) (c : Char) (rest : Text) : Option Move :=
  match c with
  | ';' => some (semicolonMove k rest)
  | '{' => some (.copy c rest 0 k.openBlock)
  | '}' => some (.copy c rest 0 k.closeBlock)
  | '"' => quotedMove? k c rest
  | '\'' => quotedMove? k c rest
  | 'u' => addressMove? k rest
  | '@' => groupMove? k rest
  | '&' => nestingMove? k rest
  | '>' => childMove? k rest
  | ':' => pseudoMove? k rest
  | '\\' => escapeMove? k rest
  | _ => none

/-- The move at a place: plain characters up to the next one that is looked at, a gap, or what
starts with the current character. A character that starts nothing is copied. -/
def move (k : Context) (c : Char) (rest : Text) : Move :=
  let isPlain := fun c => !isActive c && c != '&'
  if isPlain c then .copy c rest (rest.takeWhile isPlain).length k
  else (gapMove? k c rest <|> markMove? k c rest).getD (.copy c rest 0 k)

/-- One step of the walk. -/
def minifyStep (k : Context) (c : Char) (rest : Text) : Step Context Text :=
  let m := move k c rest
  ⟨m.extra, m.written, { m.context with before := (rest.take m.extra).getLastD c }⟩

/-- The minified stylesheet. -/
def minify (css : Text) : Text :=
  (scan minifyStep {} css).flatMap Piece.note

end WebTrim.Stylesheet
