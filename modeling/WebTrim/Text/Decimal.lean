import WebTrim.Text.Case
import WebTrim.Text.Letter

/-!
# Decimal numbers as doubles

Reads the text of a decimal number into the nearest double. Digits of any script count, blanks at
the ends and single underscores between digits are passed over, and `inf`, `infinity` and `nan` are
read in any case.

* `readDouble?` — the double that a text stands for.
* `wholeNumber?` — the whole number that a double is.
-/

set_option autoImplicit false

namespace WebTrim.Text

/-- A blank that may surround a number: any white space but the information separators. -/
def isOuterBlank (c : Char) : Bool :=
  isBlank c && !(0x1C ≤ c.toNat && c.toNat ≤ 0x1F)

/-- The text with digits of any script written in ASCII. -/
def asciiDigits (t : Text) : Text :=
  t.map fun c =>
    match decimalDigit? c with
    | some d => Char.ofNat (0x30 + d)
    | none => c

/-- Removes underscores, each of which must stand between two digits. -/
def dropUnderscores? : Text → Option Text
  | [] => some []
  | [c] => if c = '_' then none else some [c]
  | c :: d :: rest =>
    if c = '_' then none
    else if d = '_' then
      if isAsciiDigit c && rest.head?.any isAsciiDigit then
        (dropUnderscores? rest).map (c :: ·)
      else none
    else (dropUnderscores? (d :: rest)).map (c :: ·)

/-- The number written by ASCII digits. -/
def digitsNat (digits : Text) : Nat :=
  digits.foldl (fun n c => 10 * n + (c.toNat - 0x30)) 0

/-- The sign of a number and the text after it. -/
def readSign : Text → Bool × Text
  | '-' :: t => (true, t)
  | '+' :: t => (false, t)
  | t => (false, t)

/-- The exponent at the end of a number; nothing else may follow. -/
def readExponent? : Text → Option Int
  | [] => some 0
  | c :: t =>
    if c = 'e' ∨ c = 'E' then
      let (negative, t) := readSign t
      if !t.isEmpty && t.all isAsciiDigit then
        some (if negative then -(digitsNat t : Int) else digitsNat t)
      else none
    else none

/-- The double nearest to `digits · 10 ^ exponent`. Exponents far out of range are cut off first. -/
def scaled (digits : Nat) (exponent : Int) : Float :=
  let magnitude := (ofNat digits).length + exponent
  if digits = 0 ∨ magnitude < -400 then 0.0
  else if magnitude > 400 then 1.0 / 0.0
  else if exponent < 0 then Float.ofScientific digits true exponent.natAbs
  else Float.ofScientific digits false exponent.natAbs

/-- The double of an unsigned decimal number. -/
def readUnsigned? (t : Text) : Option Float :=
  let (whole, t) := splitWhile isAsciiDigit t
  let (fraction, t) := match t with
    | '.' :: t => splitWhile isAsciiDigit t
    | t => ([], t)
  if whole.isEmpty && fraction.isEmpty then none
  else
    (readExponent? t).map fun exponent =>
      scaled (digitsNat (whole ++ fraction)) (exponent - fraction.length)

/-- The double that a text stands for. -/
def readDouble? (t : Text) : Option Float :=
  let core := ((t.dropWhile isOuterBlank).reverse.dropWhile isOuterBlank).reverse
  match dropUnderscores? (asciiDigits core) with
  | none => none
  | some core =>
    let (negative, core) := readSign core
    let word := String.ofList (lowerAscii core)
    let magnitude :=
      if word = "inf" ∨ word = "infinity" then some (1.0 / 0.0)
      else if word = "nan" then some (0.0 / 0.0)
      else readUnsigned? core
    magnitude.map fun m => if negative then -m else m

/-- The whole number that a double is, if it is one: the double is split into `m · 2 ^ e`. -/
def wholeNumber? (x : Float) : Option Int :=
  let bits := x.toBits.toNat
  let exponent : Nat := bits / Nat.pow 2 52 % 2048
  let fraction : Nat := bits % Nat.pow 2 52
  let m : Nat := if exponent = 0 then fraction else fraction + Nat.pow 2 52
  let e : Int := if exponent = 0 then -1074 else (exponent : Int) - 1075
  let magnitude : Option Nat :=
    if exponent = 2047 then none
    else if 0 ≤ e then some (m * Nat.pow 2 e.toNat)
    else if m % Nat.pow 2 e.natAbs = 0 then some (m / Nat.pow 2 e.natAbs)
    else none
  magnitude.map fun n => if bits / Nat.pow 2 63 = 1 then -(n : Int) else n

end WebTrim.Text
