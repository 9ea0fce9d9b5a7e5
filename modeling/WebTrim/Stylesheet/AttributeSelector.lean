import WebTrim.Naming.Rename
import WebTrim.Text.Words

/-!
# Attribute selectors on classes and ids

Selectors such as `[class~="card"]` and `[id=main]`. One is exact when it compares whole tokens and
minds case; only those can be renamed.
-/

set_option autoImplicit false

namespace WebTrim.Stylesheet

open Text

/-- An attribute selector: its value with the text before and after it, and what they say. -/
structure AttributeSelector where
  head : Text
  value : Text
  tail : Text
  onClass : Bool
  operator : Option Char
  ignoresCase : Bool
  deriving DecidableEq, Repr

namespace AttributeSelector

/-- Whole tokens are compared, and case counts. -/
def isExact (s : AttributeSelector) : Bool :=
  (s.operator == none || s.operator == some '~') && !s.ignoresCase

/-- The selector as it is written. -/
def text (s : AttributeSelector) : Text :=
  s.head ++ s.value ++ s.tail

/-- A run of blanks at the beginning, and the rest. -/
def spanBlanks (t : Text) : Text × Text :=
  splitWhile isBlank t

/-- The value at the beginning of a text, with its quotes, if any, split off: the opening quote, the
value, the closing quote, and the rest. -/
def readValue? : Text → Option (Text × Text × Text × Text)
  | [] => none
  | c :: rest =>
    if c = '"' ∨ c = '\'' then
      match splitWhile (· ≠ c) rest with
      | (value, _ :: after) => some ([c], value, [c], after)
      | (_, []) => none
    else
      match splitWhile (fun d => !(isBlank d || d == ']' || d == '"' || d == '\'')) (c :: rest) with
      | ([], _) => none
      | (value, after) => some ([], value, [], after)

/-- The end of a selector: blanks, perhaps a case flag, and the closing bracket. Gives the text
taken and whether the flag asks to ignore case. -/
def readEnd? (t : Text) : Option (Text × Bool) :=
  let (blanks, after) := spanBlanks t
  match after with
  | ']' :: _ => some (blanks ++ [']'], false)
  | flag :: after =>
    if !blanks.isEmpty && ['i', 'I', 's', 'S'].contains flag then
      let (more, after) := spanBlanks after
      match after with
      | ']' :: _ => some (blanks ++ flag :: more ++ [']'], flag == 'i' || flag == 'I')
      | _ => none
    else none
  | [] => none

/-- The attribute name of a selector. -/
def readAttribute? (t : Text) : Option (Bool × Text × Text) :=
  match "class".toList.isPrefixOf? t with
  | some after => some (true, "class".toList, after)
  | none => ("id".toList.isPrefixOf? t).map fun after => (false, "id".toList, after)

/-- The operator before the equals sign, if there is one. -/
def readOperator : Text → Option Char × Text
  | c :: rest => if ['~', '|', '^', '$', '*'].contains c then (some c, rest) else (none, c :: rest)
  | [] => (none, [])

/-- The selector whose opening bracket has been read. -/
def read? (t : Text) : Option AttributeSelector :=
  let (blanks₁, t) := spanBlanks t
  match readAttribute? t with
  | none => none
  | some (onClass, word, t) =>
    let (blanks₂, t) := spanBlanks t
    let (operator, t) := readOperator t
    match t with
    | '=' :: t =>
      let (blanks₃, t) := spanBlanks t
      match readValue? t with
      | none => none
      | some (opening, value, closing, t) =>
        (readEnd? t).map fun (ending, ignoresCase) =>
          { head :=
              '[' :: blanks₁ ++ word ++ blanks₂ ++ operator.toList ++ '=' :: blanks₃ ++ opening
            value, tail := closing ++ ending, onClass, operator, ignoresCase }
    | _ => none

/-- Finds attribute selectors on classes and ids. -/
def matcher : Matcher AttributeSelector := Matcher.ofPattern fun _ c rest =>
  if c = '[' then (read? rest).map fun s => (s.text.length - 1, s) else none

/-- The attribute selectors on classes and ids in a text, comments and strings included. -/
def all (css : Text) : List AttributeSelector :=
  matcher.findAll css

/-- An exact selector with its value renamed: each token of a class value, an id value as a whole.
-/
def renamed (classes ids : RenameMap) (s : AttributeSelector) : AttributeSelector :=
  if s.onClass then { s with value := mapWords classes.rename s.value }
  else { s with value := ids.rename s.value }

/-- The text with its exact attribute selectors renamed. -/
def renameAll (classes ids : RenameMap) (css : Text) : Text :=
  matcher.replaceAll
    (fun s => if s.isExact then some (s.renamed classes ids).text else none) css

end AttributeSelector

end WebTrim.Stylesheet
