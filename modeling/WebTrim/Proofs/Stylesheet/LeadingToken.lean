import WebTrim.Proofs.Calc.Literal
import WebTrim.Proofs.Stylesheet.Ident

/-!
# The token at the beginning of a text

How far a number with its unit or a colour reaches, by the syntax of stylesheets: digits, an
exponent, a percent sign or a name directly after it belong to it.

* `leadingLength` — the length of the numeric token or of the hash token at the beginning.
* `IsLiteral` — signed numbers with units, and colours in hexadecimal notation.
* `IsLiteral.leadingLength_append` — **a character that cannot extend a literal ends its token**.
* `IsLiteral.length_lt_leadingLength` — **a letter, digit or underscore becomes part of its token**.
-/

set_option autoImplicit false

namespace WebTrim.Stylesheet

open Text

/-! ## Tokens -/

/-- The number of digits at the beginning of a text. -/
def digitsLength (t : Text) : Nat :=
  (t.takeWhile isAsciiDigit).length

/-- The length of a point with digits after it. -/
def fractionLength : Text → Nat
  | '.' :: rest => if digitsLength rest = 0 then 0 else 1 + digitsLength rest
  | _ => 0

/-- Is this the sign of a number? -/
def isSign (c : Char) : Bool :=
  c == '+' || c == '-'

/-- The length of a sign. -/
def signLength (t : Text) : Nat :=
  if t.head?.any isSign then 1 else 0

/-- The length of an exponent: the letter, perhaps a sign, and digits. -/
def exponentLength : Text → Nat
  | [] => 0
  | c :: rest =>
    if c = 'e' ∨ c = 'E' then
      let digits := digitsLength (rest.drop (signLength rest))
      if digits = 0 then 0 else 1 + signLength rest + digits
    else 0

/-- The length of a number without its exponent. -/
def decimalLength (t : Text) : Nat :=
  let sign := signLength t
  let whole := digitsLength (t.drop sign)
  sign + whole + fractionLength (t.drop (sign + whole))

/-- The length of a number. -/
def numberLength (t : Text) : Nat :=
  decimalLength t + exponentLength (t.drop (decimalLength t))

/-- A character that begins a name by itself. -/
def startsName (c : Char) : Bool :=
  isAsciiLetter c || c == '_' || 0x80 ≤ c.toNat

/-- Does a name begin here? -/
def opensName : Text → Bool
  | [] => false
  | '\\' :: rest => rest.head? != some '\n'
  | '-' :: '\\' :: rest => rest.head? != some '\n'
  | '-' :: c :: _ => startsName c || c == '-'
  | c :: _ => startsName c

/-- The length of what may follow a number: a percent sign or a unit. -/
def unitLength (t : Text) : Nat :=
  if t.head? = some '%' then 1 else if opensName t then identLength t else 0

/-- The length of the token at the beginning of a text, if that is a number or a number sign. -/
def leadingLength (t : Text) : Nat :=
  if t.head? = some '#' then 1 + identLength (t.drop 1)
  else numberLength t + unitLength (t.drop (numberLength t))

/-- A character that can extend a number, a unit or a colour. -/
def canExtend (c : Char) : Bool :=
  isIdentChar c || c == '%' || c == '.' || c == '\\'

/-! ## Lengths of numbers -/

theorem digitsLength_append {digits t : Text} (h : ∀ c ∈ digits, isAsciiDigit c = true) :
    digitsLength (digits ++ t) = digits.length + digitsLength t := by
  rw [digitsLength, List.takeWhile_append_of_pos h, List.length_append]
  rfl

theorem digitsLength_eq_zero {t : Text} (h : ∀ c ∈ t.head?, isAsciiDigit c = false) :
    digitsLength t = 0 := by
  cases t with
  | nil => rfl
  | cons c t => simp [digitsLength, h c rfl]

/-- A number as it is written in literals: no point without digits after it. -/
structure Decimal where
  negative : Bool
  whole : Text
  fraction : Text
  deriving DecidableEq, Repr

/-- The sign of a number. -/
def Decimal.sign (n : Decimal) : Text :=
  if n.negative then ['-'] else []

/-- The text of a number. -/
def Decimal.text (n : Decimal) : Text :=
  n.sign ++ n.whole ++ if n.fraction = [] then [] else '.' :: n.fraction

structure Decimal.WellFormed (n : Decimal) : Prop where
  wholeDigits : ∀ c ∈ n.whole, isAsciiDigit c = true
  fractionDigits : ∀ c ∈ n.fraction, isAsciiDigit c = true
  nonempty : n.whole ≠ [] ∨ n.fraction ≠ []

theorem isSign_of_isAsciiDigit {c : Char} (h : isAsciiDigit c = true) : isSign c = false := by
  by_contra hsign
  simp only [isSign, Bool.not_eq_false, Bool.or_eq_true, beq_iff_eq] at hsign
  rcases hsign with rfl | rfl <;> exact absurd h (by decide)

namespace Decimal

variable {n : Decimal}

theorem signLength_text (h : n.WellFormed) (t : Text) :
    signLength (n.text ++ t) = n.sign.length := by
  obtain ⟨negative, whole, fraction⟩ := n
  cases negative with
  | true => rfl
  | false =>
    cases whole with
    | nil =>
      have hfraction : fraction ≠ [] := h.nonempty.resolve_left fun hne => hne rfl
      simp [text, sign, hfraction, signLength, isSign]
    | cons c whole =>
      have hc := isSign_of_isAsciiDigit (h.wholeDigits c List.mem_cons_self)
      simp [text, sign, signLength, hc]

/-- How far a number reaches: the digits after it belong to it, and a point with digits if it has
none yet. -/
theorem decimalLength_text (h : n.WellFormed) (t : Text) :
    decimalLength (n.text ++ t) =
      n.text.length + digitsLength t +
        if n.fraction = [] then fractionLength (t.drop (digitsLength t)) else 0 := by
  have hsign : (n.text ++ t).drop n.sign.length =
      n.whole ++ ((if n.fraction = [] then [] else '.' :: n.fraction) ++ t) := by
    simp [text]
  simp only [decimalLength, signLength_text h, ← List.drop_drop, hsign,
    digitsLength_append h.wholeDigits]
  by_cases hfraction : n.fraction = []
  · simp [hfraction, text]
    omega
  · have hpoint : digitsLength ('.' :: (n.fraction ++ t)) = 0 :=
      digitsLength_eq_zero fun c hc => by
        cases hc
        rfl
    have hlength := List.length_pos_iff.mpr hfraction
    simp [hfraction, text, hpoint, fractionLength, digitsLength_append h.fractionDigits]
    omega

theorem head?_text_append (h : n.WellFormed) (t : Text) : (n.text ++ t).head? ≠ some '#' := by
  obtain ⟨negative, whole, fraction⟩ := n
  cases negative with
  | true => simp [text, sign]
  | false =>
    cases whole with
    | nil =>
      have hfraction : fraction ≠ [] := h.nonempty.resolve_left fun hne => hne rfl
      simp [text, sign, hfraction]
    | cons c whole =>
      have hc := h.wholeDigits c List.mem_cons_self
      simp only [text, sign, Bool.false_eq_true, if_false, List.nil_append, List.cons_append,
        List.head?_cons, ne_eq, Option.some.injEq]
      rintro rfl
      exact absurd hc (by decide)

end Decimal

/-- The length of what belongs to a token after the digits of its number. -/
def tailLength (t : Text) : Nat :=
  exponentLength t + unitLength (t.drop (exponentLength t))

/-- The token of a number, if neither a digit nor a point follows. -/
theorem Decimal.leadingLength_text {n : Decimal} (h : n.WellFormed) {t : Text}
    (ht : ∀ c ∈ t.head?, isAsciiDigit c = false ∧ c ≠ '.') :
    leadingLength (n.text ++ t) = n.text.length + tailLength t := by
  have hfraction : fractionLength t = 0 := by
    unfold fractionLength
    split
    · exact absurd rfl (ht '.' rfl).2
    · rfl
  have hdecimal : decimalLength (n.text ++ t) = n.text.length := by
    rw [decimalLength_text h, digitsLength_eq_zero fun c hc => (ht c hc).1]
    simp [hfraction]
  have hnumber : numberLength (n.text ++ t) = n.text.length + exponentLength t := by
    rw [numberLength, hdecimal, List.drop_left]
  rw [leadingLength, if_neg (head?_text_append h t), hnumber, ← List.drop_drop, List.drop_left,
    tailLength]
  omega

/-! ## Literals -/

/-- The literals that folding writes: numbers with a unit, and colours. -/
inductive IsLiteral : Text → Prop where
  | number {n : Decimal} {unit : Text} (h : n.WellFormed)
      (hunit : ∀ c ∈ unit, Calc.isUnitChar c = true) : IsLiteral (n.text ++ unit)
  | color {digits : Text} (h : ∀ c ∈ digits, isHexDigit c = true) : IsLiteral ('#' :: digits)

theorem isUnitChar_cases {c : Char} (h : Calc.isUnitChar c = true) :
    c = '%' ∨ isAsciiLetter c = true := by
  rw [Calc.isUnitChar, Bool.or_eq_true, beq_iff_eq] at h
  exact h.symm

theorem isAsciiDigit_of_isUnitChar {c : Char} (h : Calc.isUnitChar c = true) :
    isAsciiDigit c = false ∧ isSign c = false ∧ c ≠ '.' := by
  rcases isUnitChar_cases h with rfl | hletter
  · decide
  have hrange := toNat_of_isAsciiLetter hletter
  refine ⟨?_, ?_, ?_⟩
  · by_contra hdigit
    have := toNat_of_isAsciiDigit (Bool.not_eq_false _ ▸ hdigit)
    omega
  · by_contra hsign
    simp only [isSign, Bool.not_eq_false, Bool.or_eq_true, beq_iff_eq] at hsign
    rcases hsign with rfl | rfl <;> exact absurd hletter (by decide)
  · rintro rfl
    exact absurd hletter (by decide)

theorem exponentLength_eq_zero {c : Char} {rest : Text}
    (h : ∀ d ∈ rest.head?, isAsciiDigit d = false ∧ isSign d = false) :
    exponentLength (c :: rest) = 0 := by
  have hsign : signLength rest = 0 := by
    cases rest with
    | nil => rfl
    | cons d rest => simp [signLength, (h d rfl).2]
  have hdigits : digitsLength rest = 0 := digitsLength_eq_zero fun d hd => (h d hd).1
  simp [exponentLength, hsign, hdigits]

/-- A unit of more than one character is no exponent, whatever follows. -/
theorem exponentLength_unit {c d : Char} {unit : Text} (hd : Calc.isUnitChar d = true) :
    exponentLength (c :: d :: unit) = 0 :=
  exponentLength_eq_zero fun e he => by
    cases he
    exact ⟨(isAsciiDigit_of_isUnitChar hd).1, (isAsciiDigit_of_isUnitChar hd).2.1⟩

theorem two_le_exponentLength {t : Text} (h : exponentLength t ≠ 0) : 2 ≤ exponentLength t := by
  cases t with
  | nil => exact absurd rfl h
  | cons c rest =>
    simp only [exponentLength] at h ⊢
    split at h
    · split at h
      · exact absurd rfl h
      · next hletter hdigits =>
        rw [if_pos hletter, if_neg hdigits]
        omega
    · exact absurd rfl h

theorem exponentLength_of_ne {c : Char} {rest : Text} (h : c ≠ 'e' ∧ c ≠ 'E') :
    exponentLength (c :: rest) = 0 := by
  simp [exponentLength, h.1, h.2]

/-- A name that begins a unit ends where the name ends. -/
theorem identLength_unit_append {unit t : Text} (hunit : ∀ c ∈ unit, Calc.isUnitChar c = true)
    (ht : identLength t = 0) : identLength (unit ++ t) = identLength unit := by
  induction unit with
  | nil => simp [ht]
  | cons c unit ih =>
    obtain ⟨hc, hunit⟩ := List.forall_mem_cons.mp hunit
    rw [List.cons_append, identLength_cons, identLength_cons, ih hunit]
    have hslash : c ≠ '\\' := by
      rintro rfl
      exact absurd hc (by decide)
    rw [if_neg hslash, if_neg hslash]

theorem canExtend_eq_false {c : Char} (h : canExtend c = false) :
    isIdentChar c = false ∧ c ≠ '%' ∧ c ≠ '.' ∧ c ≠ '\\' := by
  simpa [canExtend, and_assoc] using h

theorem isIdentChar_eq_false {c : Char} (h : isIdentChar c = false) :
    isAsciiDigit c = false ∧ startsName c = false ∧ c ≠ '-' := by
  simp only [isIdentChar, isAsciiAlnum, Bool.or_eq_false_iff] at h
  obtain ⟨⟨⟨⟨hletter, hdigit⟩, hunderscore⟩, hhyphen⟩, hwide⟩ := h
  exact ⟨hdigit, by simp [startsName, hletter, hunderscore, hwide], by simpa using hhyphen⟩

theorem startsName_of_isIdentChar {c : Char} (h : isIdentChar c = true)
    (hdigit : isAsciiDigit c = false) (hhyphen : c ≠ '-') : startsName c = true := by
  simpa [isIdentChar, isAsciiAlnum, hdigit, hhyphen, startsName] using h

theorem opensName_cons {c : Char} (h : startsName c = true) (rest : Text) :
    opensName (c :: rest) = true := by
  have hc : c ≠ '\\' ∧ c ≠ '-' := by
    constructor <;> rintro rfl <;> exact absurd h (by decide)
  unfold opensName
  split <;> simp_all

/-- Nothing of a text belongs to the number before it. -/
theorem tailLength_eq_zero {t : Text} (h : ∀ c ∈ t.head?, canExtend c = false) :
    tailLength t = 0 := by
  cases t with
  | nil => rfl
  | cons c t =>
    obtain ⟨hident, hpercent, -, hslash⟩ := canExtend_eq_false (h c rfl)
    obtain ⟨-, hname, hhyphen⟩ := isIdentChar_eq_false hident
    have hexponent : exponentLength (c :: t) = 0 := by
      refine exponentLength_of_ne ⟨?_, ?_⟩ <;> rintro rfl <;> exact absurd hname (by decide)
    have hopens : opensName (c :: t) = false := by
      unfold opensName
      split <;> simp_all
    simp [tailLength, hexponent, unitLength, hpercent, hopens]

/-- What follows a unit does not change how far it reaches. -/
theorem tailLength_unit_append {c : Char} {unit t : Text}
    (hunit : ∀ d ∈ c :: unit, Calc.isUnitChar d = true)
    (ht : ∀ d ∈ t.head?, canExtend d = false ∧
      (d = '+' → (c :: unit).getLast? ≠ some 'e' ∧ (c :: unit).getLast? ≠ some 'E')) :
    tailLength (c :: unit ++ t) = tailLength (c :: unit) := by
  have hident : identLength t = 0 := by
    rw [identLength_eq_zero_iff]
    intro d hd
    obtain ⟨hident, -, -, hslash⟩ := canExtend_eq_false (ht d hd).1
    exact ⟨hslash, hident⟩
  have hexponent : exponentLength (c :: unit ++ t) = 0 ∧ exponentLength (c :: unit) = 0 := by
    cases unit with
    | cons d unit =>
      have hd := hunit d (List.mem_cons_of_mem _ List.mem_cons_self)
      exact ⟨exponentLength_unit hd, exponentLength_unit hd⟩
    | nil =>
      refine ⟨?_, exponentLength_eq_zero (by simp)⟩
      by_cases hletter : c = 'e' ∨ c = 'E'
      · refine exponentLength_eq_zero fun d hd => ?_
        obtain ⟨hextend, hplus⟩ := ht d hd
        obtain ⟨hdigit, -, hhyphen⟩ := isIdentChar_eq_false (canExtend_eq_false hextend).1
        have hd : d ≠ '+' := by
          rintro rfl
          rcases hletter with rfl | rfl
          · exact (hplus rfl).1 rfl
          · exact (hplus rfl).2 rfl
        exact ⟨hdigit, by simp [isSign, hd, hhyphen]⟩
      · exact exponentLength_of_ne (not_or.mp hletter)
  have hname : ∀ rest, c ≠ '%' → opensName (c :: rest) = true := fun rest hpercent =>
    opensName_cons (by
      have hletter := (isUnitChar_cases (hunit c List.mem_cons_self)).resolve_left hpercent
      simp [startsName, hletter]) rest
  rw [tailLength, tailLength, hexponent.1, hexponent.2, List.drop_zero, List.drop_zero]
  by_cases hpercent : c = '%'
  · simp [unitLength, hpercent]
  · have hlength := identLength_unit_append hunit hident
    rw [List.cons_append] at hlength
    simp [unitLength, hpercent, hname _ hpercent, hlength]

/-- **A character that cannot extend a literal ends its token.** After the letter of an exponent a
plus sign could. -/
theorem IsLiteral.leadingLength_append {literal t : Text} (h : IsLiteral literal)
    (ht : ∀ c ∈ t.head?, canExtend c = false ∧
      (c = '+' → literal.getLast? ≠ some 'e' ∧ literal.getLast? ≠ some 'E')) :
    leadingLength (literal ++ t) = leadingLength literal := by
  cases h with
  | @number n unit hn hunit =>
    have hhead : ∀ c ∈ unit.head?, isAsciiDigit c = false ∧ c ≠ '.' := fun c hc => by
      obtain ⟨hdigit, -, hpoint⟩ := isAsciiDigit_of_isUnitChar (hunit c (List.mem_of_mem_head? hc))
      exact ⟨hdigit, hpoint⟩
    have hhead' : ∀ c ∈ (unit ++ t).head?, isAsciiDigit c = false ∧ c ≠ '.' := by
      cases unit with
      | nil =>
        intro c hc
        obtain ⟨hident, -, hpoint, -⟩ := canExtend_eq_false (ht c hc).1
        exact ⟨(isIdentChar_eq_false hident).1, hpoint⟩
      | cons c unit => exact hhead
    rw [List.append_assoc, Decimal.leadingLength_text hn hhead',
      Decimal.leadingLength_text hn hhead]
    cases unit with
    | nil => rw [List.nil_append, tailLength_eq_zero fun c hc => (ht c hc).1]; rfl
    | cons c unit =>
      rw [tailLength_unit_append hunit]
      intro d hd
      refine ⟨(ht d hd).1, fun hplus => ?_⟩
      have hlast := (ht d hd).2 hplus
      rwa [List.getLast?_append_of_ne_nil _ (by simp)] at hlast
  | @color digits hdigits =>
    have hident : identLength t = 0 := by
      rw [identLength_eq_zero_iff]
      intro d hd
      obtain ⟨hident, -, -, hslash⟩ := canExtend_eq_false (ht d hd).1
      exact ⟨hslash, hident⟩
    have hspells := Spells.identChars fun c hc => isIdentChar_of_isHexDigit (hdigits c hc)
    have halone := hspells.identLength []
    rw [List.append_nil] at halone
    simp [leadingLength, hspells.identLength, hident, halone]

/-- A unit goes on with a character of names. -/
theorem length_lt_tailLength {unit : Text} (hletters : ∀ d ∈ unit, isAsciiLetter d = true)
    {c : Char} (hc : isIdentChar c = true) (hhyphen : c ≠ '-')
    (hdigit : ¬ (unit = [] ∧ isAsciiDigit c = true)) (rest : Text) :
    unit.length < tailLength (unit ++ c :: rest) := by
  have hspells := Spells.identChars fun d hd => isIdentChar_of_isAsciiLetter (hletters d hd)
  have hnext := (Spells.identChar hc).identLength rest
  rw [List.singleton_append] at hnext
  have hhead : ∃ d more, unit ++ c :: rest = d :: more ∧ startsName d = true := by
    cases unit with
    | nil => exact ⟨c, rest, rfl, startsName_of_isIdentChar hc (by simpa using hdigit) hhyphen⟩
    | cons d unit =>
      exact ⟨d, unit ++ c :: rest, rfl, by simp [startsName, hletters d List.mem_cons_self]⟩
  by_cases hexponent : exponentLength (unit ++ c :: rest) = 0
  · obtain ⟨d, more, hcons, hd⟩ := hhead
    have hpercent : d ≠ '%' := by
      rintro rfl
      exact absurd hd (by decide)
    have hunit : unitLength (unit ++ c :: rest) = identLength (unit ++ c :: rest) := by
      rw [hcons]
      simp [unitLength, hpercent, opensName_cons hd]
    rw [tailLength, hexponent, List.drop_zero, hunit, hspells.identLength, hnext,
      List.length_singleton]
    omega
  · -- An exponent: the unit is its letter, or the letter follows.
    have htwo := two_le_exponentLength hexponent
    rcases unit with _ | ⟨d, _ | ⟨e, unit⟩⟩
    · rw [tailLength, List.length_nil]
      omega
    · rw [tailLength, List.length_singleton]
      omega
    · have he := hletters e (List.mem_cons_of_mem _ List.mem_cons_self)
      exact absurd (exponentLength_unit (by simp [Calc.isUnitChar, he])) hexponent

/-- **A letter, a digit or another character of names except a hyphen becomes part of the token**,
if the literal is no percentage. -/
theorem IsLiteral.length_lt_leadingLength {literal : Text} (h : IsLiteral literal) {c : Char}
    (hc : isIdentChar c = true) (hhyphen : c ≠ '-') (hpercent : '%' ∉ literal) (rest : Text) :
    literal.length < leadingLength (literal ++ c :: rest) := by
  cases h with
  | @number n unit hn hunit =>
    have hletters : ∀ d ∈ unit, isAsciiLetter d = true := fun d hd =>
      (isUnitChar_cases (hunit d hd)).resolve_left fun hd' =>
        hpercent (List.mem_append_right _ (hd' ▸ hd))
    have hpoint : c ≠ '.' := by
      rintro rfl
      exact absurd hc (by decide)
    rw [List.append_assoc, List.length_append]
    by_cases hdigit : unit = [] ∧ isAsciiDigit c = true
    · -- The number itself goes on.
      obtain ⟨rfl, hdigit⟩ := hdigit
      have hdecimal := Decimal.decimalLength_text hn (c :: rest)
      have hdigits : digitsLength ([c] ++ rest) = 1 + digitsLength rest :=
        digitsLength_append (by simpa using hdigit)
      rw [List.singleton_append] at hdigits
      rw [List.nil_append, leadingLength, if_neg (Decimal.head?_text_append hn _), numberLength]
      simp only [List.length_nil]
      omega
    · rw [Decimal.leadingLength_text hn]
      · have := length_lt_tailLength hletters hc hhyphen hdigit rest
        omega
      · intro d hd
        cases unit with
        | nil =>
          cases hd
          exact ⟨by simpa using hdigit, hpoint⟩
        | cons e unit =>
          cases hd
          obtain ⟨hdigit, -, hpoint⟩ := isAsciiDigit_of_isUnitChar (hunit d List.mem_cons_self)
          exact ⟨hdigit, hpoint⟩
  | @color digits hdigits =>
    have hspells := Spells.identChars fun d hd => isIdentChar_of_isHexDigit (hdigits d hd)
    have hnext := (Spells.identChar hc).identLength rest
    rw [List.singleton_append] at hnext
    simp [leadingLength, hspells.identLength, hnext]
    omega

end WebTrim.Stylesheet
