import WebTrim.Text.Letter

/-!
# Identifiers of a stylesheet

An identifier is written with letters, digits, `_`, `-`, characters from U+0080 on and escapes. The
spelling with escapes is its raw form, the name it stands for its canonical form.

* `identLength` — how much of a text is an identifier in raw form.
* `unescape` — the canonical form of a raw form.
* `escape` — a raw form of a name.
-/

set_option autoImplicit false

namespace WebTrim.Stylesheet

open Text

/-- A character that stands for itself in an identifier. -/
def isIdentChar (c : Char) : Bool :=
  isAsciiAlnum c || c == '_' || c == '-' || 0x80 ≤ c.toNat

/-- The replacement character U+FFFD. -/
def replacementChar : Char :=
  Char.ofNat 0xFFFD

/-- The hexadecimal digits of an escape, at most six, at the beginning of a text. -/
def escapeDigits (t : Text) : Text :=
  (t.take 6).takeWhile isHexDigit

/-- How many characters after a backslash belong to the escape: hexadecimal digits and one space
after them, or a single character. -/
def escapeLength (rest : Text) : Nat :=
  let n := (escapeDigits rest).length
  if n = 0 then min 1 rest.length
  else if (rest.drop n).head? = some ' ' then n + 1
  else n

/-- How many characters at the beginning of a text form an identifier in raw form. -/
def identLength : Text → Nat
  | [] => 0
  | c :: rest =>
    if c = '\\' then 1 + escapeLength rest + identLength (rest.drop (escapeLength rest))
    else if isIdentChar c then 1 + identLength rest
    else 0
termination_by t => t.length
decreasing_by all_goals (simp only [List.length_drop, List.length_cons]; omega)

/-- The raw identifier at the beginning of a text and the text after it. -/
def readIdent? (t : Text) : Option (Text × Text) :=
  match identLength t with
  | 0 => none
  | n => some (t.take n, t.drop n)

/-- The character that an escaped number stands for: zero, surrogates and numbers beyond Unicode
become U+FFFD. -/
def escapedChar (n : Nat) : Char :=
  if n = 0 then replacementChar
  else if h : n.isValidChar then Char.ofNatAux n h
  else replacementChar

/-- One blank after the digits of an escape is part of it. -/
def dropEscapeBlank : Text → Text
  | [] => []
  | c :: rest => if c ∈ [' ', '\t', '\n', '\r', '\x0c'] then rest else c :: rest

theorem length_dropEscapeBlank_le (t : Text) : (dropEscapeBlank t).length ≤ t.length := by
  unfold dropEscapeBlank
  split
  · simp
  · split <;> simp

/-- The name that a raw form stands for. A backslash at the very end stays. -/
def unescape : Text → Text
  | [] => []
  | c :: rest =>
    if c = '\\' then
      let digits := escapeDigits rest
      if digits.isEmpty then
        match rest with
        | [] => ['\\']
        | d :: rest => d :: unescape rest
      else escapedChar (hexNumber digits) :: unescape (dropEscapeBlank (rest.drop digits.length))
    else c :: unescape rest
termination_by t => t.length
decreasing_by
  · simp only [List.length_cons]
    omega
  · have := length_dropEscapeBlank_le (rest.drop (escapeDigits rest).length)
    simp only [List.length_drop, List.length_cons] at this ⊢
    omega
  · simp

/-- A character as a hexadecimal escape. -/
def hexEscape (c : Char) : Text :=
  '\\' :: hexOfNat c.toNat ++ [' ']

/-- A character of a name where no special rule for the beginning applies. -/
def escapeChar (c : Char) : Text :=
  if c.toNat = 0 then [replacementChar]
  else if c.toNat < 0x20 || c.toNat = 0x7F then hexEscape c
  else if isIdentChar c then [c]
  else ['\\', c]

/-- A character of a name where a digit may not stand bare. -/
def escapeLeading (c : Char) : Text :=
  if isAsciiDigit c then hexEscape c else escapeChar c

/-- A raw form of a name. A digit is escaped at the beginning and after a single leading `-`, and a
`-` that is the whole name is escaped. -/
def escape : Text → Text
  | [] => []
  | ['-'] => ['\\', '-']
  | c :: d :: rest =>
    if c = '-' then '-' :: escapeLeading d ++ rest.flatMap escapeChar
    else escapeLeading c ++ escapeChar d ++ rest.flatMap escapeChar
  | [c] => escapeLeading c

/-- Does a name begin with a digit, or with `-` and a digit? -/
def startsWithDigit : Text → Bool
  | '-' :: c :: _ => isAsciiDigit c
  | c :: _ => isAsciiDigit c
  | [] => false

/-- Three, four, six or eight hexadecimal digits. One newline may follow. -/
def isHexColor (t : Text) : Bool :=
  let digits := dropFinalNewline t
  digits.all isHexDigit && [3, 4, 6, 8].contains digits.length

end WebTrim.Stylesheet
