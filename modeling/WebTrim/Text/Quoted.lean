import WebTrim.Text.Letter
import WebTrim.Text.PrintableTable

/-!
# Quoted text

The form in which messages show a piece of source: in single quotes, or in double quotes when the
text has a single quote and no double quote, with escapes for everything that has no visible form.
-/

set_option autoImplicit false

namespace WebTrim.Text

/-- A character with a visible form, or the plain space. -/
def isPrintable (c : Char) : Bool :=
  !inRanges unprintableRanges c.toNat

/-- Hexadecimal digits, padded with zeros to `width`. -/
def paddedHex (width n : Nat) : Text :=
  let digits := hexOfNat n
  List.replicate (width - digits.length) '0' ++ digits

/-- One character as it stands between quotes of the kind `quote`. -/
def quotedChar (quote c : Char) : Text :=
  if c = quote || c = '\\' then ['\\', c]
  else if c = '\n' then ['\\', 'n']
  else if c = '\r' then ['\\', 'r']
  else if c = '\t' then ['\\', 't']
  else if isPrintable c then [c]
  else if c.toNat < 0x100 then '\\' :: 'x' :: paddedHex 2 c.toNat
  else if c.toNat < 0x10000 then '\\' :: 'u' :: paddedHex 4 c.toNat
  else '\\' :: 'U' :: paddedHex 8 c.toNat

/-- The text in quotes. -/
def quoted (t : Text) : Text :=
  let quote := if t.contains '\'' && !t.contains '"' then '"' else '\''
  quote :: t.flatMap (quotedChar quote) ++ [quote]

end WebTrim.Text
