import WebTrim.Failure
import WebTrim.Text.Quoted

/-!
# Dimensions

A dimension is an exact rational number with a unit; the empty unit makes it a plain number.

* `readNumber` — the dimension written by a decimal number with a unit.
* `Operator.apply` — arithmetic with its unit rules.
* `Dimension.text?` — the shortest decimal form, if the value has a finite decimal expansion.

Numbers with more digits than `digitLimit` are neither read nor written.
-/

set_option autoImplicit false

namespace WebTrim.Calc

open Text

/-- Why an expression has no value. -/
inductive Error where
  | notANumber (text : Text)
  | unexpectedChar (c : Char) (offset : Nat)
  | unlikeUnits (left right : Text)
  | twoUnits
  | unitInDivisor
  | divisionByZero
  | unexpectedEnd
  | trailing (offset : Nat)
  | unclosed (offset : Nat)
  | unexpected (text : Text) (offset : Nat)
  | tooManyDigits (count : Nat)
  deriving DecidableEq, Repr

/-- A fault of the expression grammar. -/
def fault (detail : Text) (offset : Option Int := none) : Stop :=
  .fault ⟨"calc".toList, detail, offset⟩

/-- What an error means for the step it stops: all are faults of the expression grammar but a number
that is too long to be read, which ends the work on the file. -/
def Error.stop : Error → Stop
  | notANumber text => fault ("not a number: ".toList ++ quoted text)
  | unexpectedChar c offset => fault ("unexpected ".toList ++ quoted [c]) (some offset)
  | unlikeUnits left right =>
    fault ("cannot add ".toList ++ quoted left ++ " and ".toList ++ quoted right)
  | twoUnits => fault "both factors carry a unit".toList
  | unitInDivisor => fault "divisor carries a unit".toList
  | divisionByZero => fault "division by zero".toList
  | unexpectedEnd => fault "unexpected end of expression".toList
  | trailing offset => fault "trailing tokens".toList (some offset)
  | unclosed offset => fault "expected ')'".toList (some offset)
  | unexpected text offset => fault ("unexpected ".toList ++ quoted text) (some offset)
  | tooManyDigits count => .crash (.tooManyDigits count)

/-- An exact number with a unit. -/
structure Dimension where
  value : Rat
  unit : Text
  deriving DecidableEq, Repr

/-! ## Reading numbers -/

/-- A character of a unit. -/
def isUnitChar (c : Char) : Bool :=
  isAsciiLetter c || c == '%'

/-- The number written by decimal digits of any script. -/
def digitsValue (digits : Text) : Nat :=
  digits.foldl (fun n c => 10 * n + (decimalDigit? c).getD 0) 0

/-- A number as it is written: digits before and after the point, and the unit. -/
structure Numeral where
  whole : Text
  fraction : Text
  hasPoint : Bool
  unit : Text
  deriving DecidableEq, Repr

/-- The text of a numeral. -/
def Numeral.text (n : Numeral) : Text :=
  n.whole ++ (if n.hasPoint then ['.'] else []) ++ n.fraction ++ n.unit

/-- How many digits are read. A zero is read before a leading point. -/
def Numeral.digitCount (n : Numeral) : Nat :=
  max 1 n.whole.length + n.fraction.length

/-- The dimension a numeral stands for. -/
def Numeral.dimension (n : Numeral) : Dimension :=
  ⟨mkRat (digitsValue (n.whole ++ n.fraction)) (Nat.pow 10 n.fraction.length), n.unit⟩

/-- The numeral at the beginning of a text, as long as possible. Digits may stand before the point,
after it, or on both sides. -/
def numeralAt? (t : Text) : Option Numeral :=
  let (whole, t) := splitWhile isDecimalDigit t
  let hasPoint := t.head? = some '.'
  let (fraction, t) := if hasPoint then splitWhile isDecimalDigit (t.drop 1) else ([], t)
  if whole.isEmpty && fraction.isEmpty then none
  else some ⟨whole, fraction, hasPoint, t.takeWhile isUnitChar⟩

/-- The dimension that a text stands for as a whole. -/
def readNumber (t : Text) : Except Error Dimension :=
  match numeralAt? t with
  | some n =>
    if n.text ≠ t then .error (.notANumber t)
    else if digitLimit < n.digitCount then .error (.tooManyDigits n.digitCount)
    else .ok n.dimension
  | none => .error (.notANumber t)

/-! ## Arithmetic -/

/-- The four operations. -/
inductive Operator where
  | add
  | sub
  | mul
  | div
  deriving DecidableEq, Repr

/-- Addition and subtraction need equal units, a product has at most one unit among its factors, and
a divisor is a plain number other than zero. -/
def Operator.apply : Operator → Dimension → Dimension → Except Error Dimension
  | add, a, b =>
    if a.unit = b.unit then .ok ⟨a.value + b.value, a.unit⟩ else .error (.unlikeUnits a.unit b.unit)
  | sub, a, b =>
    if a.unit = b.unit then .ok ⟨a.value - b.value, a.unit⟩ else .error (.unlikeUnits a.unit b.unit)
  | mul, a, b =>
    if a.unit = [] ∨ b.unit = [] then .ok ⟨a.value * b.value, a.unit ++ b.unit⟩ else .error .twoUnits
  | div, a, b =>
    if b.unit ≠ [] then .error .unitInDivisor
    else if b.value = 0 then .error .divisionByZero
    else .ok ⟨a.value / b.value, a.unit⟩

/-- The dimension with its sign changed. -/
def Dimension.neg (d : Dimension) : Dimension :=
  ⟨-d.value, d.unit⟩

/-! ## Writing numbers -/

/-- How often `p` divides `n`, and what is left. The fuel bounds the number of divisions. -/
def factorOut (p : Nat) : Nat → Nat → Nat × Nat
  | 0, n => (0, n)
  | fuel + 1, n =>
    if n % p = 0 then
      let (count, left) := factorOut p fuel (n / p)
      (count + 1, left)
    else (0, n)

/-- The least number of decimal places in which a fraction with denominator `den` can be written, if
there is one: the denominator may have no prime factor but 2 and 5. -/
def decimalPlaces? (den : Nat) : Option Nat :=
  let (twos, left) := factorOut 2 den den
  let (fives, left) := factorOut 5 left left
  if left = 1 then some (max twos fives) else none

/-- Decimal digits, padded with zeros to `width`. -/
def paddedDigits (width n : Nat) : Text :=
  let digits := ofNat n
  List.replicate (width - digits.length) '0' ++ digits

/-- The decimal form of `n / 10 ^ places`, without a zero before the point. -/
def decimalText (places n : Nat) : Text :=
  let whole := n / Nat.pow 10 places
  let fraction := n % Nat.pow 10 places
  if places = 0 then ofNat whole
  else (if whole = 0 then [] else ofNat whole) ++ '.' :: paddedDigits places fraction

/-- Does a natural number have few enough digits to be written? -/
def isWritable (n : Nat) : Bool :=
  (ofNat n).length ≤ digitLimit

/-- The shortest decimal form of a rational number, if it has a finite one. The parts before and
after the point are written on their own. -/
def numberText? (v : Rat) : Except Crash (Option Text) :=
  match decimalPlaces? v.den with
  | none => .ok none
  | some places =>
    let n := v.num.natAbs * Nat.pow 10 places / v.den
    if isWritable (n / Nat.pow 10 places) && isWritable (n % Nat.pow 10 places) then
      .ok (some ((if v < 0 then ['-'] else []) ++ decimalText places n))
    else .error .unwritable

/-- The shortest form of a dimension, if it has a finite one. Zero is written without a unit. -/
def Dimension.text? (d : Dimension) : Except Crash (Option Text) :=
  if d.value = 0 then .ok (some ['0'])
  else (numberText? d.value).map fun number => number.map (· ++ d.unit)

end WebTrim.Calc
