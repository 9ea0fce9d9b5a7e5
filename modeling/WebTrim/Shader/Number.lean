import WebTrim.Shader.Token

/-!
# Short forms of floating point numbers

`0.50` becomes `.5` and `1.0` becomes `1.`. Exponent and suffix stay as they are.
-/

set_option autoImplicit false

namespace WebTrim.Shader

open Text

/-- A floating point number taken apart: the digits before and after the point, and what follows. -/
structure FloatLiteral where
  whole : Text
  fraction : Text
  ending : Text
  deriving DecidableEq, Repr

/-- The text of a floating point number. -/
def FloatLiteral.text (f : FloatLiteral) : Text :=
  f.whole ++ '.' :: f.fraction ++ f.ending

/-- Takes a number with a point apart. After the digits only an exponent and a suffix may follow. -/
def FloatLiteral.ofText? (t : Text) : Option FloatLiteral :=
  let (whole, after) := splitWhile isDecimalDigit t
  match after with
  | '.' :: after =>
    let (fraction, ending) := splitWhile isDecimalDigit after
    let exponent := exponentLength ending
    let suffix := suffixLength ["lf", "LF", "f", "F"] (ending.drop exponent)
    if exponent + suffix = ending.length then some ⟨whole, fraction, ending⟩ else none
  | _ => none

/-- The number without zeros at its outer ends; zero keeps one digit. -/
def FloatLiteral.trimmed (f : FloatLiteral) : FloatLiteral :=
  let whole := f.whole.dropWhile (· == '0')
  let fraction := (f.fraction.reverse.dropWhile (· == '0')).reverse
  if whole.isEmpty && fraction.isEmpty then { f with whole := [], fraction := ['0'] }
  else { f with whole, fraction }

/-- The shortest form of a floating point number; other texts stay as they are. -/
def shortenFloat (t : Text) : Text :=
  match FloatLiteral.ofText? (dropFinalNewline t) with
  | none => t
  | some f => if f.trimmed.text.length < t.length then f.trimmed.text else t

/-- The shader with its floating point numbers shortened. -/
def shortenNumbers (source : Text) : Text :=
  (tokens source).flatMap fun t => if t.kind = .number then shortenFloat t.text else t.text

end WebTrim.Shader
