import WebTrim.Text.LetterTable

/-!
# Letters, digits and blanks

Character classes of Unicode 14. ASCII is decided directly, the rest by the range tables.

* `isBlank` — white space.
* `isLetter`, `isAlnum`, `isWordChar` — letters, letters and numerals, and those with the
  underscore.
* `decimalDigit?` — the value of a decimal digit of any script.
-/

set_option autoImplicit false

namespace WebTrim.Text

/-- Does a code point lie in one of the ranges? -/
def inRanges (ranges : List (Nat × Nat)) (n : Nat) : Bool :=
  ranges.any fun (low, high) => low ≤ n && n ≤ high

/-- White space: the ASCII blanks and the four information separators, and the Unicode spaces. -/
def isBlank (c : Char) : Bool :=
  let n := c.toNat
  (0x09 ≤ n && n ≤ 0x0D) || (0x1C ≤ n && n ≤ 0x20) || n == 0x85 || n == 0xA0 || n == 0x1680 ||
    (0x2000 ≤ n && n ≤ 0x200A) || n == 0x2028 || n == 0x2029 || n == 0x202F || n == 0x205F ||
    n == 0x3000

/-- An ASCII letter. -/
def isAsciiLetter (c : Char) : Bool :=
  ('a' ≤ c && c ≤ 'z') || ('A' ≤ c && c ≤ 'Z')

/-- An ASCII decimal digit. -/
def isAsciiDigit (c : Char) : Bool :=
  '0' ≤ c && c ≤ '9'

/-- An ASCII letter or digit. -/
def isAsciiAlnum (c : Char) : Bool :=
  isAsciiLetter c || isAsciiDigit c

/-- A hexadecimal digit of either case. -/
def isHexDigit (c : Char) : Bool :=
  isAsciiDigit c || ('a' ≤ c && c ≤ 'f') || ('A' ≤ c && c ≤ 'F')

/-- The value of a hexadecimal digit; other characters count as zero. -/
def hexValue (c : Char) : Nat :=
  if isAsciiDigit c then c.toNat - 0x30
  else if 'a' ≤ c && c ≤ 'f' then c.toNat - 0x57
  else if 'A' ≤ c && c ≤ 'F' then c.toNat - 0x37
  else 0

/-- The number written by hexadecimal digits. -/
def hexNumber (digits : Text) : Nat :=
  digits.foldl (fun n c => 16 * n + hexValue c) 0

/-- A letter of any script. -/
def isLetter (c : Char) : Bool :=
  if c.toNat < 0x80 then isAsciiLetter c else inRanges letterRanges c.toNat

/-- A letter, or a character with a numeric value. -/
def isAlnum (c : Char) : Bool :=
  if c.toNat < 0x80 then isAsciiAlnum c
  else inRanges letterRanges c.toNat || inRanges numeralRanges c.toNat

/-- A character of a word: a letter, a numeral or the underscore. -/
def isWordChar (c : Char) : Bool :=
  c == '_' || isAlnum c

/-- The value of a decimal digit of any script. -/
def decimalDigit? (c : Char) : Option Nat :=
  let n := c.toNat
  if n < 0x80 then
    if isAsciiDigit c then some (n - 0x30) else none
  else
    (decimalRanges.find? fun (low, high) => low ≤ n && n ≤ high).map fun (low, _) => (n - low) % 10

/-- A decimal digit of any script. -/
def isDecimalDigit (c : Char) : Bool :=
  (decimalDigit? c).isSome

/-- The text without blanks at its ends. -/
def trim (t : Text) : Text :=
  ((t.dropWhile isBlank).reverse.dropWhile isBlank).reverse

end WebTrim.Text
