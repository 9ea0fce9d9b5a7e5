import WebTrim.Text.Decimal
import WebTrim.Yaml.Value

/-!
# Plain scalars

An unquoted scalar is a null, a truth value, a number, a date or else a text, by its form alone.

* `ofPlain?` — the value of an unquoted scalar.
-/

set_option autoImplicit false

namespace WebTrim.Yaml

open Text

/-- The text without underscores. -/
def dropGroups (t : Text) : Text :=
  t.filter (· ≠ '_')

/-- A digit or an underscore. -/
def isGroupedDigit (c : Char) : Bool :=
  isAsciiDigit c || c == '_'

/-- A text that is not empty and made of such characters only. -/
def allOf (p : Char → Bool) (t : Text) : Bool :=
  !t.isEmpty && t.all p

/-- The number with these digits in a base. -/
def number (base : Nat) (digits : Text) : Nat :=
  digits.foldl (fun n c => base * n + hexValue c) 0

/-- A decimal digit, perhaps after a digit from zero to five: a part of a number to base sixty. -/
def isSixtieth : Text → Bool
  | [d] => isAsciiDigit d
  | [t, d] => '0' ≤ t && t ≤ '5' && isAsciiDigit d
  | _ => false

/-- The number of a list of parts to base sixty. -/
def sixties (parts : List Text) : Nat :=
  parts.foldl (fun n part => 60 * n + number 10 part) 0

/-- An unsigned whole number: binary, octal, decimal, hexadecimal or to base sixty. -/
def natural? (t : Text) : Option Nat :=
  match t with
  | ['0'] => some 0
  | '0' :: 'b' :: digits =>
    if allOf (fun c => c == '0' || c == '1' || c == '_') digits then
      some (number 2 (dropGroups digits))
    else none
  | '0' :: 'x' :: digits =>
    if allOf (fun c => isHexDigit c || c == '_') digits then some (number 16 (dropGroups digits))
    else none
  | '0' :: digits =>
    if allOf (fun c => ('0' ≤ c && c ≤ '7') || c == '_') digits then
      some (number 8 (dropGroups digits))
    else none
  | _ =>
    match fields ':' t with
    | [] => none
    | head :: tail =>
      if allOf isGroupedDigit head && head.head? != some '_' && tail.all isSixtieth then
        some (sixties (dropGroups head :: tail))
      else none

/-- The exponent part of a number: a letter, a sign and digits, or nothing. -/
def isExponent : Text → Bool
  | [] => true
  | [_] => false
  | e :: sign :: digits =>
    (e == 'e' || e == 'E') && (sign == '+' || sign == '-') && allOf isAsciiDigit digits

/-- An unsigned number with a point, and whether it may have a sign. -/
def pointed? (t : Text) : Option (Float × Bool) :=
  let (whole, rest) := splitWhile (· ≠ '.') t
  let fraction := rest.drop 1
  let (digits, exponent) := splitWhile isGroupedDigit fraction
  match rest, fields ':' whole with
  | [], _ => none
  | _ :: _, [head] =>
    let readable := isExponent exponent &&
      if head.isEmpty then digits.head?.any isAsciiDigit
      else isAsciiDigit (head.headD '_') && head.all isGroupedDigit
    if readable then (readUnsigned? (dropGroups t)).map fun x => (x, !head.isEmpty) else none
  | _ :: _, head :: tail =>
    if isAsciiDigit (head.headD '_') && head.all isGroupedDigit && tail.all isSixtieth &&
        exponent.isEmpty then
      let whole := sixties (dropGroups head :: tail)
      (readUnsigned? (Text.ofNat whole ++ '.' :: dropGroups digits)).map fun x => (x, true)
    else none
  | _ :: _, [] => none

/-- The number with a point that a text stands for. -/
def float? (t : Text) : Option Float :=
  let (negative, core) := readSign t
  let signed := core.length < t.length
  let word := String.ofList core
  let found :=
    if word = ".inf" ∨ word = ".Inf" ∨ word = ".INF" then some (1.0 / 0.0, true)
    else if word = ".nan" ∨ word = ".NaN" ∨ word = ".NAN" then some (0.0 / 0.0, false)
    else pointed? core
  match found with
  | some (x, mayHaveSign) =>
    if signed && !mayHaveSign then none else some (if negative then -x else x)
  | none => none

/-- A day: year, month and day with their full number of digits. -/
def isDay (t : Text) : Bool :=
  match fields '-' t with
  | [year, month, day] =>
    [year, month, day].all (·.all isAsciiDigit) && year.length == 4 && month.length == 2 &&
      day.length == 2
  | _ => false

/-- The value of an unquoted scalar. There is none for the two marks that stand for other values. -/
def ofPlain? (t : Text) : Option Value :=
  let word := String.ofList t
  let (negative, core) := readSign t
  if ["", "~", "null", "Null", "NULL"].contains word then some .null
  else if ["yes", "Yes", "YES", "true", "True", "TRUE", "on", "On", "ON"].contains word then
    some (.bool true)
  else if ["no", "No", "NO", "false", "False", "FALSE", "off", "Off", "OFF"].contains word then
    some (.bool false)
  else if word = "=" ∨ word = "<<" then none
  else
    match natural? core, float? t with
    | some n, _ => some (.int (if negative then -(n : Int) else n))
    | none, some x => some (.float x t)
    | none, none => some (if isDay t then .moment t else .text t)

end WebTrim.Yaml
