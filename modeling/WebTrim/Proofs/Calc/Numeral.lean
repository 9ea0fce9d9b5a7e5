import Mathlib.Data.List.Basic
import Mathlib.Data.List.TakeWhile
import Mathlib.Tactic.Ring
import WebTrim.Calc.Dimension
import WebTrim.Proofs.Stylesheet.Ident
import WebTrim.Proofs.Text.Scan

/-!
# Numerals

A numeral is written with digits before and after a point and a unit. Every text that is read as a
number is the text of exactly one numeral.

* `digitsValue_append`, `digitsValue_lt`, `digitsValue_ofNat` — the number that digits write.
* `Numeral.WellFormed` — which parts a numeral may have.
* `numeralAt?_text` — a numeral is read back from its text.
* `readNumber_eq_ok_iff`, `readNumber_eq_error` — **what is read as a number**, and what is not.
-/

set_option autoImplicit false

namespace WebTrim.Text

theorem of_mem_takeWhile {p : Char → Bool} {t : Text} {c : Char} (h : c ∈ t.takeWhile p) :
    p c = true :=
  List.all_eq_true.mp List.all_takeWhile c h

end WebTrim.Text

namespace WebTrim.Calc

open Text

/-! ## The value of digits -/

theorem getD_decimalDigit?_lt (c : Char) : (decimalDigit? c).getD 0 < 10 := by
  unfold decimalDigit?
  simp only
  split
  · split
    · next hdigit =>
      have := Stylesheet.toNat_of_isAsciiDigit hdigit
      simp only [Option.getD_some]
      omega
    · simp
  · cases decimalRanges.find? fun range => range.1 ≤ c.toNat && c.toNat ≤ range.2 with
    | none => simp
    | some range =>
      simp only [Option.map_some, Option.getD_some]
      omega

theorem foldl_digits (digits : Text) (start : Nat) :
    digits.foldl (fun n c => 10 * n + (decimalDigit? c).getD 0) start =
      10 ^ digits.length * start + digitsValue digits := by
  unfold digitsValue
  induction digits generalizing start with
  | nil => simp
  | cons c digits ih =>
    rw [List.foldl_cons, List.foldl_cons, ih, ih (10 * 0 + _), List.length_cons]
    ring

theorem digitsValue_append (s t : Text) :
    digitsValue (s ++ t) = 10 ^ t.length * digitsValue s + digitsValue t := by
  rw [digitsValue, List.foldl_append, foldl_digits]
  rfl

theorem digitsValue_cons (c : Char) (t : Text) :
    digitsValue (c :: t) = 10 ^ t.length * (decimalDigit? c).getD 0 + digitsValue t := by
  rw [← List.singleton_append, digitsValue_append]
  simp [digitsValue]

/-- A number has at most as many digits as are written. -/
theorem digitsValue_lt (t : Text) : digitsValue t < 10 ^ t.length := by
  induction t with
  | nil => decide
  | cons c t ih =>
    have hc := getD_decimalDigit?_lt c
    calc digitsValue (c :: t) = 10 ^ t.length * (decimalDigit? c).getD 0 + digitsValue t :=
          digitsValue_cons c t
      _ < 10 ^ t.length * (decimalDigit? c).getD 0 + 10 ^ t.length := by omega
      _ = 10 ^ t.length * ((decimalDigit? c).getD 0 + 1) := by ring
      _ ≤ 10 ^ t.length * 10 := Nat.mul_le_mul_left _ hc
      _ = 10 ^ (c :: t).length := by rw [List.length_cons, pow_succ]

/-- Zeros in front do not count. -/
theorem digitsValue_zeros (count : Nat) (digits : Text) :
    digitsValue (List.replicate count '0' ++ digits) = digitsValue digits := by
  induction count with
  | zero => rfl
  | succ count ih => exact ih

theorem isAsciiDigit_of_isDigit {c : Char} (h : c.isDigit = true) : isAsciiDigit c = true := by
  simpa [Char.isDigit, isAsciiDigit, Char.le_def] using h

theorem decimalDigit?_of_isDigit {c : Char} (h : c.isDigit = true) :
    decimalDigit? c = some (c.toNat - 48) := by
  have hdigit := isAsciiDigit_of_isDigit h
  have := Stylesheet.toNat_of_isAsciiDigit hdigit
  simp [decimalDigit?, hdigit, show c.toNat < 128 by omega]

theorem digitsValue_of_isDigit {digits : Text} (h : ∀ c ∈ digits, c.isDigit = true) :
    digitsValue digits = Nat.ofDigitChars 10 digits 0 := by
  rw [digitsValue, Nat.ofDigitChars_eq_foldl]
  apply List.foldl_ext
  intro n c hc
  rw [decimalDigit?_of_isDigit (h c hc)]
  rfl

theorem isDigit_of_mem_ofNat {n : Nat} {c : Char} (h : c ∈ ofNat n) : c.isDigit = true :=
  Nat.isDigit_of_mem_toDigits (by decide) (by decide) h

/-- A number is read back from its digits. -/
theorem digitsValue_ofNat (n : Nat) : digitsValue (ofNat n) = n := by
  rw [digitsValue_of_isDigit fun c => isDigit_of_mem_ofNat]
  exact Nat.ofDigitChars_ten_toDigits

/-! ## Numerals and their texts -/

/-- The parts of a numeral: digits on at least one side of the point, a point wherever digits stand
after it, and a unit of letters and percent signs. -/
structure Numeral.WellFormed (n : Numeral) : Prop where
  whole : ∀ c ∈ n.whole, isDecimalDigit c = true
  fraction : ∀ c ∈ n.fraction, isDecimalDigit c = true
  unit : ∀ c ∈ n.unit, isUnitChar c = true
  digits : n.whole ≠ [] ∨ n.fraction ≠ []
  point : n.hasPoint = false → n.fraction = []

theorem isDecimalDigit_point : isDecimalDigit '.' = false := by
  decide

theorem isDecimalDigit_of_isUnitChar {c : Char} (h : isUnitChar c = true) :
    isDecimalDigit c = false := by
  rw [isUnitChar, Bool.or_eq_true, beq_iff_eq] at h
  rcases h with hletter | rfl
  · have hrange := Stylesheet.toNat_of_isAsciiLetter hletter
    have hdigit : isAsciiDigit c = false := by
      by_contra hdigit
      have := Stylesheet.toNat_of_isAsciiDigit (Bool.not_eq_false _ ▸ hdigit)
      omega
    simp [isDecimalDigit, decimalDigit?, hdigit, show c.toNat < 0x80 by omega]
  · decide

theorem ne_point_of_isUnitChar {c : Char} (h : isUnitChar c = true) : c ≠ '.' := by
  rintro rfl
  exact absurd h (by decide)

namespace Numeral

variable {n m : Numeral}

/-- What is read at the beginning of a text is a numeral. -/
theorem wellFormed_of_numeralAt? {t : Text} (h : numeralAt? t = some n) : n.WellFormed := by
  by_cases hpoint : (t.dropWhile isDecimalDigit).head? = some '.'
  · simp only [numeralAt?, splitWhile, hpoint, decide_true, if_true, Option.ite_none_left_eq_some,
      Option.some.injEq, Bool.and_eq_true, List.isEmpty_iff] at h
    obtain ⟨hdigits, rfl⟩ := h
    exact ⟨fun c => of_mem_takeWhile, fun c => of_mem_takeWhile, fun c => of_mem_takeWhile,
      Classical.not_and_iff_not_or_not.mp hdigits, fun hnone => Bool.noConfusion hnone⟩
  · simp only [numeralAt?, splitWhile, hpoint, decide_false, if_false, List.isEmpty_nil,
      Bool.and_true, Option.ite_none_left_eq_some, Option.some.injEq, List.isEmpty_iff] at h
    obtain ⟨hdigits, rfl⟩ := h
    exact ⟨fun c => of_mem_takeWhile, fun c hc => absurd hc List.not_mem_nil,
      fun c => of_mem_takeWhile, .inl hdigits, fun _ => rfl⟩

/-- A numeral is read back from its text. -/
theorem numeralAt?_text (h : n.WellFormed) : numeralAt? n.text = some n := by
  obtain ⟨whole, fraction, hasPoint, unit⟩ := n
  have hunit : ∀ c ∈ unit.head?, isDecimalDigit c = false := fun c hc =>
    isDecimalDigit_of_isUnitChar (h.unit c (List.mem_of_mem_head? hc))
  have hempty : ¬ (whole.isEmpty && fraction.isEmpty) = true := by
    rcases h.digits with hdigits | hdigits <;> simp [hdigits]
  have hletters : unit.takeWhile isUnitChar = unit := List.takeWhile_eq_self_iff.mpr h.unit
  cases hasPoint with
  | false =>
    obtain rfl : fraction = [] := h.point rfl
    have hpoint : unit.head? ≠ some '.' := fun hhead =>
      ne_point_of_isUnitChar (h.unit '.' (List.mem_of_mem_head? hhead)) rfl
    have hwhole : splitWhile isDecimalDigit (whole ++ unit) = (whole, unit) :=
      splitWhile_append_of h.whole hunit
    simpa [numeralAt?, Numeral.text, hwhole, hpoint, hletters] using hempty
  | true =>
    have hwhole : splitWhile isDecimalDigit (whole ++ '.' :: (fraction ++ unit)) =
        (whole, '.' :: (fraction ++ unit)) :=
      splitWhile_append_of h.whole fun c hc => by
        cases hc
        exact isDecimalDigit_point
    have hfraction : splitWhile isDecimalDigit (fraction ++ unit) = (fraction, unit) :=
      splitWhile_append_of h.fraction hunit
    simpa [numeralAt?, Numeral.text, hwhole, hfraction, hletters] using hempty

theorem eq_of_text_eq (hn : n.WellFormed) (hm : m.WellFormed) (h : n.text = m.text) : n = m := by
  have hread := numeralAt?_text hn
  rw [h, numeralAt?_text hm] at hread
  exact (Option.some.inj hread).symm

/-- A text is read as a number if it is a numeral with few enough digits. -/
theorem readNumber_text (h : n.WellFormed) :
    readNumber n.text =
      if digitLimit < n.digitCount then .error (.tooManyDigits n.digitCount)
      else .ok n.dimension := by
  simp [readNumber, numeralAt?_text h]

end Numeral

open Numeral

/-- **Exactly the numerals with few enough digits are read as numbers.** -/
theorem readNumber_eq_ok_iff {t : Text} {d : Dimension} :
    readNumber t = .ok d ↔
      ∃ n : Numeral, n.WellFormed ∧ n.text = t ∧ n.digitCount ≤ digitLimit ∧ n.dimension = d := by
  constructor
  · intro h
    unfold readNumber at h
    split at h
    · next n hread =>
      split at h
      · cases h
      next htext =>
        split at h
        · cases h
        next hlimit =>
          cases h
          exact ⟨n, wellFormed_of_numeralAt? hread, not_not.mp htext, Nat.le_of_not_lt hlimit, rfl⟩
    · cases h
  · rintro ⟨n, hn, rfl, hlimit, rfl⟩
    rw [readNumber_text hn, if_neg (Nat.not_lt.mpr hlimit)]

/-- Any other text is no number at all, or a numeral with too many digits. -/
theorem readNumber_eq_error {t : Text} {e : Error} (h : readNumber t = .error e) :
    e = .notANumber t ∨
      ∃ n : Numeral, n.WellFormed ∧ n.text = t ∧ digitLimit < n.digitCount ∧
        e = .tooManyDigits n.digitCount := by
  unfold readNumber at h
  split at h
  · next n hread =>
    split at h
    · cases h
      exact .inl rfl
    next htext =>
      split at h
      · next hlimit =>
        cases h
        exact .inr ⟨n, wellFormed_of_numeralAt? hread, not_not.mp htext, hlimit, rfl⟩
      · cases h
  · cases h
    exact .inl rfl

end WebTrim.Calc
