import WebTrim.Text.Decimal
import WebTrim.Color.Oklch

/-!
# The notation of `oklch()` colours

* `readCall?` — the parts of the inside of a call.
* `convert` — its hexadecimal form, if it is a colour that can be shown.
-/

set_option autoImplicit false

namespace WebTrim.Color

open Text

/-- A number or percentage that must lie between zero and one. With `strict`, a bare number above
one and up to a hundred is refused too, since it was most likely meant as a percentage. -/
def unitInterval (strict : Bool) (word : Text) : Except Crash (Option Float) :=
  let isPercent := word.getLast? = some '%'
  let body := if isPercent then word.dropLast else word
  match readDouble? body with
  | none => .error (.notANumber body)
  | some v =>
    let v := if isPercent then v / 100.0 else v
    if !isPercent && strict && 1.0 < v && v ≤ 100.0 then .ok none
    else if v < 0.0 || v > 1.0 then .ok none
    else .ok (some v)

/-- The number at the beginning of a text: a sign, digits, and a point with digits after it. -/
def readNumber? (t : Text) : Option (Text × Text) :=
  let (sign, t) := match t with
    | c :: rest => if c = '+' ∨ c = '-' then ([c], rest) else ([], c :: rest)
    | [] => ([], [])
  let (whole, t) := splitWhile isDecimalDigit t
  let fraction := match t with
    | '.' :: rest => rest.takeWhile isDecimalDigit
    | _ => []
  if !fraction.isEmpty then
    some (sign ++ whole ++ '.' :: fraction, t.drop (1 + fraction.length))
  else if !whole.isEmpty then some (sign ++ whole, t)
  else none

/-- A number at the beginning of a text, with a percent sign if there is one. -/
def readPercent? (t : Text) : Option (Text × Text) :=
  (readNumber? t).map fun (n, t) =>
    match t with
    | '%' :: t => (n ++ ['%'], t)
    | t => (n, t)

/-- At least one blank, and the text after all of them. -/
def skipBlanks? (t : Text) : Option Text :=
  if t.head?.any isBlank then some (t.dropWhile isBlank) else none

/-- The units of an angle. -/
inductive AngleUnit where
  | degree
  | radian
  | turn
  | gradian
  deriving DecidableEq, Repr

/-- The unit at the beginning of a text, degrees when there is none. -/
def readUnit (t : Text) : AngleUnit × Text :=
  let units := [("deg", AngleUnit.degree), ("rad", .radian), ("turn", .turn), ("grad", .gradian)]
  (units.findSome? fun (word, unit) => (word.toList.isPrefixOf? t).map fun rest => (unit, rest)).getD
    (.degree, t)

/-- An angle in degrees. -/
def AngleUnit.toDegrees : AngleUnit → Float → Float
  | degree, v => v
  | turn, v => v * 360.0
  | gradian, v => v * 0.9
  | radian, v => v * 180.0 / pi

/-- The parts of a call: lightness, chroma, hue with its unit, and opacity. -/
structure Call where
  lightness : Text
  chroma : Text
  hue : Text
  unit : AngleUnit
  alpha : Option Text
  deriving DecidableEq, Repr

/-- The opacity after a slash; nothing else may follow. -/
def readAlpha? (t : Text) : Option (Option Text) :=
  if t.isEmpty then some none
  else
    match t.dropWhile isBlank with
    | '/' :: t =>
      match readPercent? (t.dropWhile isBlank) with
      | some (alpha, []) => some (some alpha)
      | _ => none
    | _ => none

/-- The parts of the inside of a call, without blanks at its ends. -/
def readCall? (t : Text) : Option Call := do
  let (lightness, t) ← readPercent? t
  let (chroma, t) ← readNumber? (← skipBlanks? t)
  let (hue, t) ← readNumber? (← skipBlanks? t)
  let (unit, t) := readUnit t
  let alpha ← readAlpha? t
  return { lightness, chroma, hue, unit, alpha }

/-- The double of a number that has been read as part of a call. -/
def doubleOf (word : Text) : Except Crash Float :=
  match readDouble? word with
  | some v => .ok v
  | none => .error (.notANumber word)

/-- The hexadecimal form of the inside of a call, if it is a colour that can be shown. -/
def convert (t : Text) : Except Crash (Option Text) :=
  match readCall? (trim t) with
  | none => .ok none
  | some call => do
    let lightness ← unitInterval true call.lightness
    let chroma ← doubleOf call.chroma
    let hue ← doubleOf call.hue
    let alpha ← match call.alpha with
      | some alpha => unitInterval false alpha
      | none => .ok (some 1.0)
    match lightness, alpha with
    | some lightness, some alpha =>
      if chroma < 0.0 then return none
      let channels ← srgb? lightness chroma (call.unit.toDegrees hue)
      return channels.map fun channels => toHex channels alpha
    | _, _ => return none

end WebTrim.Color
