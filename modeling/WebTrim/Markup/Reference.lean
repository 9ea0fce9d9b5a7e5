import WebTrim.Failure
import WebTrim.Markup.ReferenceTable
import WebTrim.Text.Letter
import WebTrim.Text.Scan

/-!
# Character references

`&amp;`, `&#38;` and `&#x26;` in attribute values and text.

* `decodeReferences` — a text with its character references replaced by what they stand for.
* `overlongReference?` — why a text cannot be decoded: a number in it has too many digits.
* `decodeOrRefuse` — the decoded text, unless it cannot be decoded.
-/

set_option autoImplicit false

namespace WebTrim.Markup

open Text

/-- The characters that the numbers 0x80 to 0x9F stand for. -/
def windowsChars : List Nat :=
  [0x20AC, 0x81, 0x201A, 0x192, 0x201E, 0x2026, 0x2020, 0x2021, 0x2C6, 0x2030, 0x160, 0x2039, 0x152,
    0x8D, 0x17D, 0x8F, 0x90, 0x2018, 0x2019, 0x201C, 0x201D, 0x2022, 0x2013, 0x2014, 0x2DC, 0x2122,
    0x161, 0x203A, 0x153, 0x9D, 0x17E, 0x178]

/-- What a numeric reference stands for. Controls and noncharacters stand for nothing. -/
def numberedText (n : Nat) : Text :=
  if n = 0 ∨ (0xD800 ≤ n ∧ n ≤ 0xDFFF) ∨ 0x10FFFF < n then [Char.ofNat 0xFFFD]
  else if n = 0x0D then ['\r']
  else if 0x80 ≤ n ∧ n ≤ 0x9F then [Char.ofNat (windowsChars.getD (n - 0x80) n)]
  else if n ≤ 0x08 ∨ n = 0x0B ∨ (0x0E ≤ n ∧ n ≤ 0x1F) ∨ n = 0x7F ∨ (0xFDD0 ≤ n ∧ n ≤ 0xFDEF) ∨
      0xFFFE ≤ n % 0x10000 then []
  else [Char.ofNat n]

/-- What a name stands for, if it is one. -/
def named? (name : Text) : Option Text :=
  let word := String.ofList name
  (namedReferences.findSome? fun group => group.lookup word).map String.toList

/-- The longest beginning of `name`, of at most `length` and at least two characters, that is a
name, with the rest after it. -/
def longestNamed? (name : Text) : Nat → Option Text
  | 0 => none
  | 1 => none
  | length + 2 =>
    match named? (name.take (length + 2)) with
    | some text => some (text ++ name.drop (length + 2))
    | none => longestNamed? name (length + 1)

/-- What a name with or without its semicolon stands for; an unknown one stands for itself. -/
def namedText (name : Text) : Text :=
  match named? name with
  | some text => text
  | none => (longestNamed? name (name.length - 1)).getD ('&' :: name)

/-- A character that may stand in the name of a reference. -/
def isReferenceChar (c : Char) : Bool :=
  !(['\t', '\n', '\x0c', ' ', '<', '&', '#', ';'].contains c)

/-- One if the text begins with a semicolon, else zero. -/
def semicolonLength (t : Text) : Nat :=
  if t.head? = some ';' then 1 else 0

/-- The reference after an ampersand: its length and what it stands for. -/
def readReference? (t : Text) : Option (Nat × Text) :=
  match t with
  | '#' :: t =>
    let digits := t.takeWhile isAsciiDigit
    if !digits.isEmpty then
      some (1 + digits.length + semicolonLength (t.drop digits.length),
        numberedText (digits.foldl (fun n c => 10 * n + (c.toNat - 0x30)) 0))
    else if t.head? = some 'x' ∨ t.head? = some 'X' then
      let digits := (t.drop 1).takeWhile isHexDigit
      if digits.isEmpty then none
      else some (2 + digits.length + semicolonLength (t.drop (1 + digits.length)),
        numberedText (hexNumber digits))
    else none
  | _ =>
    let word := (t.take 32).takeWhile isReferenceChar
    if word.isEmpty then none
    else
      let length := word.length + semicolonLength (t.drop word.length)
      some (length, namedText (t.take length))

/-- Finds character references. -/
def referenceMatcher : Matcher Text := Matcher.ofPattern fun _ c rest =>
  if c = '&' then readReference? rest else none

/-- A text with its character references replaced by what they stand for. -/
def decodeReferences (t : Text) : Text :=
  referenceMatcher.replaceAll some t

/-! ## Numbers that are too long -/

/-- Finds decimal references that are too long, with the number of their digits. -/
def overlongMatcher : Matcher Nat := Matcher.ofPattern fun _ c rest =>
  match rest with
  | '#' :: t =>
    let digits := (t.takeWhile isAsciiDigit).length
    if c = '&' ∧ digitLimit < digits then some (1 + digits, digits) else none
  | _ => none

/-- Why the references of a text cannot be decoded, if they cannot. -/
def overlongReference? (t : Text) : Option Crash :=
  (overlongMatcher.findAll t).head?.map Crash.tooManyDigits

/-- A text with its character references decoded, unless one of them is too long. -/
def decodeOrRefuse (t : Text) : Except Crash Text :=
  match overlongReference? t with
  | some crash => .error crash
  | none => .ok (decodeReferences t)

end WebTrim.Markup
