import WebTrim.Text.Letter

/-!
# Quoted scalars

Inside quotes a line break is folded: a single one reads as a space, and of several in a row the
first is dropped. In double quotes a backslash escapes a character or a line break.

* `readQuoted?` — the text between quotes and the number of characters up to the closing quote.
-/

set_option autoImplicit false

namespace WebTrim.Yaml

open Text

/-- The characters that end a line. -/
def isBreak (c : Char) : Bool :=
  c == '\n' || c.toNat == 0x85 || c.toNat == 0x2028 || c.toNat == 0x2029

/-- A line end in a scalar: the next-line character counts as a newline. -/
def breakText (c : Char) : Char :=
  if c.toNat == 0x85 then '\n' else c

/-- Whether a text ends or goes on with a space, a tab or a line end. -/
def startsBlank : Text → Bool
  | [] => true
  | c :: _ => c == ' ' || c == '\t' || isBreak c

/-- Whether a line starts with a mark between documents. -/
def atMarker (t : Text) : Bool :=
  ((['-', '-', '-'].isPrefixOf t) || (['.', '.', '.'].isPrefixOf t)) && startsBlank (t.drop 3)

/-- What the line ends of a gap read as. -/
def foldBreaks (breaks : Text) : Text :=
  match breaks.map breakText with
  | [] => []
  | first :: more =>
    if first ≠ '\n' then first :: more
    else if more.isEmpty then [' ']
    else more

/-- What a gap of blanks and line ends between words reads as. -/
def foldGap (gap : Text) : Text :=
  let breaks := gap.filter isBreak
  if breaks.isEmpty then gap else foldBreaks breaks

/-- The characters that a single letter after a backslash stands for. -/
def escapes : List (Char × Nat) :=
  [('0', 0), ('a', 7), ('b', 8), ('t', 9), ('\t', 9), ('n', 10), ('v', 11), ('f', 12), ('r', 13),
   ('e', 0x1B), (' ', 0x20), ('"', 0x22), ('\\', 0x5C), ('/', 0x2F), ('N', 0x85), ('_', 0xA0),
   ('L', 0x2028), ('P', 0x2029)]

/-- How many digits follow the letter of a numeric escape. -/
def escapeDigits (c : Char) : Option Nat :=
  if c = 'x' then some 2 else if c = 'u' then some 4 else if c = 'U' then some 8 else none

/-- The blanks and line ends at the start of a text. -/
def gapOf (t : Text) : Text :=
  t.takeWhile fun c => c == ' ' || c == '\t' || isBreak c

/-- Whether a gap ends a line and a mark between documents follows. -/
def gapMeetsMarker (gap after : Text) : Bool :=
  gap.getLast?.any isBreak && atMarker after

/-- The escape after a backslash: what it reads as and how many characters it takes. -/
def readEscape? : Text → Option (Text × Nat)
  | [] => none
  | c :: rest =>
    match escapes.lookup c, escapeDigits c with
    | some code, _ => some ([Char.ofNat code], 1)
    | none, some n =>
      let digits := rest.take n
      let code := hexNumber digits
      if digits.length = n && digits.all isHexDigit && Nat.isValidChar code then
        some ([Char.ofNat code], 1 + n)
      else none
    | none, none =>
      if isBreak c then
        let gap := gapOf rest
        if gapMeetsMarker (c :: gap) (rest.drop gap.length) then none
        else some ((gap.filter isBreak).map breakText, 1 + gap.length)
      else none

/-- The text up to the closing quote, and the number of characters through that quote. -/
def readQuoted? (quote : Char) (t : Text) : Option (Text × Nat) :=
  match t with
  | [] => none
  | c :: rest =>
    let go (text : Text) (extra : Nat) : Option (Text × Nat) :=
      (readQuoted? quote (rest.drop extra)).map fun (more, n) => (text ++ more, 1 + extra + n)
    if c = quote then
      if quote = '\'' && rest.head? = some '\'' then go ['\''] 1 else some ([], 1)
    else if quote = '"' && c = '\\' then
      match readEscape? rest with
      | some (text, n) => go text n
      | none => none
    else if startsBlank [c] then
      let gap := gapOf rest
      if gapMeetsMarker (c :: gap) (rest.drop gap.length) then none
      else go (foldGap (c :: gap)) gap.length
    else go [c] 0
termination_by t.length
decreasing_by
  simp only [List.length_drop, List.length_cons]
  omega

end WebTrim.Yaml
