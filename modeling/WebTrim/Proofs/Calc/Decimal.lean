import Mathlib.Algebra.Order.Ring.Rat
import Mathlib.Data.Nat.Prime.Basic
import WebTrim.Proofs.Calc.Numeral

/-!
# Decimal forms

A rational number has a finite decimal form exactly if no prime but 2 and 5 divides its denominator.
The form with the fewest places has no zero at its end, so no numeral of the same value is shorter.

* `decimalPlaces?_eq_none_iff` — which denominators have no finite form.
* `scaled_mul_den`, `not_ten_dvd_scaled` — the digits of the form and its last digit.
* `length_decimalText_le` — **no numeral of the same value is shorter**.
* `numberText?_of_some` — what is written, and when it is too long to be written.
-/

set_option autoImplicit false

namespace WebTrim.Calc

open Text

/-! ## Denominators -/

/-- Dividing by `p` as often as possible leaves a number that `p` does not divide. -/
theorem factorOut_spec {p fuel n : Nat} (hp : 1 < p) (hn : 0 < n) (hfuel : n ≤ fuel) :
    n = p ^ (factorOut p fuel n).1 * (factorOut p fuel n).2 ∧ ¬ p ∣ (factorOut p fuel n).2 := by
  induction fuel generalizing n with
  | zero => omega
  | succ fuel ih =>
    unfold factorOut
    split
    · next hmod =>
      have hdvd : p ∣ n := Nat.dvd_of_mod_eq_zero hmod
      have hsmaller : n / p < n := Nat.div_lt_self hn hp
      have hpos : 0 < n / p := Nat.div_pos (Nat.le_of_dvd hn hdvd) (by omega)
      obtain ⟨hquotient, hleft⟩ := ih hpos (by omega)
      refine ⟨?_, hleft⟩
      calc n = p * (n / p) := (Nat.mul_div_cancel' hdvd).symm
        _ = p * (p ^ (factorOut p fuel (n / p)).1 * (factorOut p fuel (n / p)).2) :=
          congrArg (p * ·) hquotient
        _ = p ^ ((factorOut p fuel (n / p)).1 + 1) * (factorOut p fuel (n / p)).2 := by
          rw [pow_succ]
          ring
    · next hmod => exact ⟨by simp, fun hdvd => hmod (Nat.mod_eq_zero_of_dvd hdvd)⟩

/-- The factors of a denominator. -/
theorem exists_factors {den : Nat} (hden : 0 < den) :
    ∃ twos fives left, den = 2 ^ twos * 5 ^ fives * left ∧ ¬ 2 ∣ left ∧ ¬ 5 ∣ left ∧
      decimalPlaces? den = if left = 1 then some (max twos fives) else none := by
  obtain ⟨htwos, hodd⟩ := factorOut_spec (show 1 < 2 by decide) hden (Nat.le_refl den)
  have hpos : 0 < (factorOut 2 den den).2 := by
    rcases Nat.eq_zero_or_pos (factorOut 2 den den).2 with hzero | hpos
    · rw [hzero] at hodd
      exact absurd (Nat.dvd_zero 2) hodd
    · exact hpos
  obtain ⟨hfives, hleft⟩ := factorOut_spec (show 1 < 5 by decide) hpos (Nat.le_refl _)
  refine ⟨_, _, _, ?_, fun hdvd => hodd ?_, hleft, rfl⟩
  · rw [mul_assoc, ← hfives]
    exact htwos
  · rw [hfives]
    exact Dvd.dvd.mul_left hdvd _

/-- **A denominator has no finite decimal form exactly if a prime other than 2 and 5 divides
it.** -/
theorem decimalPlaces?_eq_none_iff {den : Nat} (hden : 0 < den) :
    decimalPlaces? den = none ↔ ∃ p, p.Prime ∧ p ∣ den ∧ p ≠ 2 ∧ p ≠ 5 := by
  obtain ⟨twos, fives, left, rfl, htwo, hfive, hplaces⟩ := exists_factors hden
  rw [hplaces]
  constructor
  · intro hnone
    have hleft : left ≠ 1 := by
      rintro rfl
      cases hnone
    obtain ⟨p, hp, hdvd⟩ := Nat.exists_prime_and_dvd hleft
    refine ⟨p, hp, Dvd.dvd.mul_left hdvd _, ?_, ?_⟩
    · rintro rfl
      exact htwo hdvd
    · rintro rfl
      exact hfive hdvd
  · rintro ⟨p, hp, hdvd, hp2, hp5⟩
    rw [if_neg]
    rintro rfl
    rw [mul_one, hp.dvd_mul] at hdvd
    rcases hdvd with hdvd | hdvd
    · exact hp2 ((Nat.prime_dvd_prime_iff_eq hp Nat.prime_two).mp (hp.dvd_of_dvd_pow hdvd))
    · exact hp5 ((Nat.prime_dvd_prime_iff_eq hp Nat.prime_five).mp (hp.dvd_of_dvd_pow hdvd))

theorem eq_of_decimalPlaces? {den places : Nat} (hden : 0 < den)
    (h : decimalPlaces? den = some places) :
    ∃ twos fives, den = 2 ^ twos * 5 ^ fives ∧ places = max twos fives := by
  obtain ⟨twos, fives, left, rfl, -, -, hplaces⟩ := exists_factors hden
  rw [hplaces] at h
  split at h
  · next hleft =>
    cases h
    exact ⟨twos, fives, by rw [hleft, mul_one], rfl⟩
  · cases h

/-! ## Scaled values -/

/-- If a number prime to `p` is multiplied by a power, no factor `p` is gained over that power. -/
theorem mul_pow_ne {p q a b r N : Nat} (hp : p.Prime) (hpq : p.Coprime q) (ha : a ≠ 0)
    (hN : N.Coprime (p ^ a * q ^ b)) : p * r * (p ^ a * q ^ b) ≠ N * (p ^ a * q ^ a) := by
  intro h
  have hdvd : p ∣ N * q ^ a := by
    refine ⟨r * q ^ b, Nat.eq_of_mul_eq_mul_left (Nat.pow_pos hp.pos : 0 < p ^ a) ?_⟩
    calc p ^ a * (N * q ^ a) = N * (p ^ a * q ^ a) := by ring
      _ = p * r * (p ^ a * q ^ b) := h.symm
      _ = p ^ a * (p * (r * q ^ b)) := by ring
  have hleft : p ∣ N := (hpq.pow_right a).dvd_of_dvd_mul_right hdvd
  have hright : p ∣ p ^ a * q ^ b := Dvd.dvd.mul_right (dvd_pow_self p ha) _
  exact hp.one_lt.ne' (Nat.dvd_one.mp (hN ▸ Nat.dvd_gcd hleft hright))

/-- The value times the power of ten that makes it whole. -/
def scaled (v : Rat) (places : Nat) : Nat :=
  v.num.natAbs * 10 ^ places / v.den

section Scaled

variable {v : Rat} {places : Nat} (h : decimalPlaces? v.den = some places)

include h

theorem den_dvd_pow : v.den ∣ 10 ^ places := by
  obtain ⟨twos, fives, hden, rfl⟩ := eq_of_decimalPlaces? v.den_pos h
  rw [hden, show 10 = 2 * 5 from rfl, mul_pow]
  exact mul_dvd_mul (pow_dvd_pow 2 (le_max_left _ _)) (pow_dvd_pow 5 (le_max_right _ _))

theorem scaled_mul_den : scaled v places * v.den = v.num.natAbs * 10 ^ places :=
  Nat.div_mul_cancel (Dvd.dvd.mul_left (den_dvd_pow h) _)

/-- The last place is not zero: the denominator has as many factors of 2 or of 5 as the power of
ten. -/
theorem not_ten_dvd_scaled (hplaces : places ≠ 0) : ¬ 10 ∣ scaled v places := by
  obtain ⟨twos, fives, hden, rfl⟩ := eq_of_decimalPlaces? v.den_pos h
  have hscaled := scaled_mul_den h
  have hcoprime : v.num.natAbs.Coprime v.den := v.reduced
  rintro ⟨rest, hrest⟩
  rw [hden] at hscaled hcoprime
  rw [hrest, show 10 = 2 * 5 from rfl, mul_pow] at hscaled
  rcases Nat.le_total fives twos with hle | hle
  · rw [max_eq_left hle] at hscaled hplaces
    exact mul_pow_ne (p := 2) Nat.prime_two (by decide) hplaces hcoprime (r := 5 * rest) (by lia)
  · rw [max_eq_right hle] at hscaled hplaces
    rw [mul_comm] at hcoprime
    exact mul_pow_ne (p := 5) Nat.prime_five (by decide) hplaces hcoprime (r := 2 * rest) (by lia)

end Scaled

/-! ## The numeral of a value -/

/-- The numeral that writes `n / 10 ^ places`. -/
def decimalNumeral (places n : Nat) : Numeral where
  whole := if places ≠ 0 ∧ n / 10 ^ places = 0 then [] else ofNat (n / 10 ^ places)
  fraction := if places = 0 then [] else paddedDigits places (n % 10 ^ places)
  hasPoint := places ≠ 0
  unit := []

theorem text_decimalNumeral (places n : Nat) :
    (decimalNumeral places n).text = decimalText places n := by
  by_cases hplaces : places = 0 <;> simp [decimalNumeral, decimalText, Numeral.text, hplaces]

theorem length_ofNat_le_iff {n width : Nat} (hwidth : 0 < width) :
    (ofNat n).length ≤ width ↔ n < 10 ^ width :=
  Nat.length_toDigits_le_iff (by decide) hwidth

theorem length_paddedDigits {width n : Nat} (hwidth : 0 < width) (hn : n < 10 ^ width) :
    (paddedDigits width n).length = width := by
  have := (length_ofNat_le_iff hwidth).mpr hn
  simp only [paddedDigits, List.length_append, List.length_replicate]
  omega

theorem digitsValue_paddedDigits (width n : Nat) : digitsValue (paddedDigits width n) = n := by
  rw [paddedDigits, digitsValue_zeros, digitsValue_ofNat]

theorem isDecimalDigit_of_isDigit {c : Char} (h : c.isDigit = true) : isDecimalDigit c = true := by
  rw [isDecimalDigit, decimalDigit?_of_isDigit h]
  rfl

theorem isDigit_of_mem_paddedDigits {width n : Nat} {c : Char} (h : c ∈ paddedDigits width n) :
    c.isDigit = true := by
  rw [paddedDigits, List.mem_append, List.mem_replicate] at h
  rcases h with ⟨-, rfl⟩ | h
  · rfl
  · exact isDigit_of_mem_ofNat h

theorem isDigit_of_mem_whole {places n : Nat} {c : Char} (h : c ∈ (decimalNumeral places n).whole) :
    c.isDigit = true := by
  simp only [decimalNumeral] at h
  split at h
  · cases h
  · exact isDigit_of_mem_ofNat h

theorem isDigit_of_mem_fraction {places n : Nat} {c : Char}
    (h : c ∈ (decimalNumeral places n).fraction) : c.isDigit = true := by
  simp only [decimalNumeral] at h
  split at h
  · cases h
  · exact isDigit_of_mem_paddedDigits h

theorem wellFormed_decimalNumeral (places n : Nat) : (decimalNumeral places n).WellFormed where
  whole c hc := isDecimalDigit_of_isDigit (isDigit_of_mem_whole hc)
  fraction c hc := isDecimalDigit_of_isDigit (isDigit_of_mem_fraction hc)
  unit c hc := by cases hc
  digits := by
    by_cases hplaces : places = 0
    · exact .inl (by simp [decimalNumeral, hplaces, ofNat])
    · exact .inr (by simp [decimalNumeral, hplaces, paddedDigits, ofNat])
  point hpoint := by
    simp only [decimalNumeral, decide_eq_false_iff_not, not_not] at hpoint
    simp [decimalNumeral, hpoint]

theorem digitsValue_whole_decimalNumeral (places n : Nat) :
    digitsValue (decimalNumeral places n).whole = n / 10 ^ places := by
  simp only [decimalNumeral]
  split
  · next hzero => exact hzero.2.symm
  · exact digitsValue_ofNat _

theorem digitsValue_fraction_decimalNumeral (places n : Nat) :
    digitsValue (decimalNumeral places n).fraction = n % 10 ^ places := by
  by_cases hplaces : places = 0
  · simp [decimalNumeral, hplaces, digitsValue, Nat.mod_one]
  · simp only [decimalNumeral, if_neg hplaces]
    exact digitsValue_paddedDigits _ _

theorem length_fraction_decimalNumeral (places n : Nat) :
    (decimalNumeral places n).fraction.length = places := by
  by_cases hplaces : places = 0
  · simp [decimalNumeral, hplaces]
  · simp only [decimalNumeral, if_neg hplaces]
    exact length_paddedDigits (Nat.pos_of_ne_zero hplaces) (Nat.mod_lt _ (Nat.pow_pos (by decide)))

/-- The digits of both sides write the number of units in the last place. -/
theorem digitsValue_decimalNumeral (places n : Nat) :
    digitsValue ((decimalNumeral places n).whole ++ (decimalNumeral places n).fraction) = n := by
  rw [digitsValue_append, digitsValue_whole_decimalNumeral, digitsValue_fraction_decimalNumeral,
    length_fraction_decimalNumeral]
  exact Nat.div_add_mod _ _

/-- The numeral has the value it is made for. -/
theorem dimension_decimalNumeral (places n : Nat) :
    (decimalNumeral places n).dimension = ⟨mkRat n (10 ^ places), []⟩ := by
  rw [Numeral.dimension, digitsValue_decimalNumeral, length_fraction_decimalNumeral]
  rfl

/-- The numeral of the scaled value has the absolute value. -/
theorem mkRat_scaled {v : Rat} {places : Nat} (h : decimalPlaces? v.den = some places) :
    mkRat (scaled v places) (10 ^ places) = |v| := by
  have hpow : (10 ^ places : Nat) ≠ 0 := (Nat.pow_pos (by decide)).ne'
  rw [Rat.abs_def, ← Rat.mkRat_eq_divInt, Rat.mkRat_eq_iff hpow v.den_nz]
  exact_mod_cast scaled_mul_den h

/-! ## No numeral is shorter -/

/-- The value of a numeral compared with that of a scaled number. -/
theorem Numeral.digitsValue_mul_pow {m : Numeral} {n places : Nat}
    (h : m.dimension.value = mkRat n (10 ^ places)) :
    digitsValue (m.whole ++ m.fraction) * 10 ^ places = n * 10 ^ m.fraction.length := by
  have hpow (k : Nat) : (10 ^ k : Nat) ≠ 0 := (Nat.pow_pos (by decide)).ne'
  exact_mod_cast (Rat.mkRat_eq_iff (hpow m.fraction.length) (hpow places)).mp h

/-- A numeral has at least as many places as a number of units that is not a multiple of ten. -/
theorem places_le_length_fraction {m : Numeral} {n places : Nat}
    (h : digitsValue (m.whole ++ m.fraction) * 10 ^ places = n * 10 ^ m.fraction.length)
    (hlast : places ≠ 0 → ¬ 10 ∣ n) : places ≤ m.fraction.length := by
  by_contra hlt
  obtain ⟨extra, rfl⟩ : ∃ extra, places = m.fraction.length + (extra + 1) :=
    ⟨places - m.fraction.length - 1, by omega⟩
  refine hlast (by omega) ⟨digitsValue (m.whole ++ m.fraction) * 10 ^ extra, ?_⟩
  refine Nat.eq_of_mul_eq_mul_right (Nat.pow_pos (by decide) : 0 < 10 ^ m.fraction.length) ?_
  rw [← h]
  ring

/-- A numeral has enough digits before its point for the part of the value before the point. -/
theorem div_pow_lt {m : Numeral} {n places : Nat}
    (h : digitsValue (m.whole ++ m.fraction) * 10 ^ places = n * 10 ^ m.fraction.length) :
    n / 10 ^ places < 10 ^ m.whole.length := by
  rw [Nat.div_lt_iff_lt_mul (Nat.pow_pos (by decide))]
  have hlt := digitsValue_lt (m.whole ++ m.fraction)
  rw [List.length_append] at hlt
  refine Nat.lt_of_mul_lt_mul_right (a := 10 ^ m.fraction.length) ?_
  calc n * 10 ^ m.fraction.length = digitsValue (m.whole ++ m.fraction) * 10 ^ places := h.symm
    _ < 10 ^ (m.whole.length + m.fraction.length) * 10 ^ places :=
      Nat.mul_lt_mul_of_pos_right hlt (Nat.pow_pos (by decide))
    _ = 10 ^ m.whole.length * 10 ^ places * 10 ^ m.fraction.length := by ring

theorem length_whole_decimalNumeral_le {places n width : Nat} (h : n / 10 ^ places < 10 ^ width)
    (hwidth : places = 0 → 0 < width) : (decimalNumeral places n).whole.length ≤ width := by
  simp only [decimalNumeral]
  split
  · exact Nat.zero_le _
  · next hshown =>
    have hpos : 0 < width := by
      rcases Nat.eq_zero_or_pos width with rfl | hpos
      · exact hwidth (by_contra fun hplaces => hshown ⟨hplaces, Nat.lt_one_iff.mp h⟩)
      · exact hpos
    exact (length_ofNat_le_iff hpos).mpr h

theorem Numeral.length_text (m : Numeral) :
    m.text.length = m.whole.length + (if m.hasPoint then 1 else 0) + m.fraction.length +
      m.unit.length := by
  rw [Numeral.text, List.length_append, List.length_append, List.length_append]
  cases m.hasPoint <;> rfl

theorem length_decimalText (places n : Nat) :
    (decimalText places n).length =
      (decimalNumeral places n).whole.length + (if places = 0 then 0 else 1) + places := by
  rw [← text_decimalNumeral, Numeral.length_text, length_fraction_decimalNumeral]
  by_cases hplaces : places = 0 <;> simp [decimalNumeral, hplaces]

/-- **No numeral of the same value is shorter** than one whose last place is not zero. -/
theorem length_decimalText_le {m : Numeral} {n places : Nat} (hm : m.WellFormed)
    (hvalue : m.dimension.value = mkRat n (10 ^ places)) (hlast : places ≠ 0 → ¬ 10 ∣ n) :
    (decimalText places n).length ≤ m.text.length := by
  have hscaled := m.digitsValue_mul_pow hvalue
  have hfraction := places_le_length_fraction hscaled hlast
  have hwhole := div_pow_lt hscaled
  rw [length_decimalText, Numeral.length_text]
  by_cases hplaces : places = 0
  · -- One digit is enough where the other numeral has none before its point.
    have hdigits : 0 < m.whole.length + m.fraction.length := by
      rcases hm.digits with hne | hne <;> have := List.length_pos_iff.mpr hne <;> omega
    have hpow : 10 ^ m.whole.length ≤ 10 ^ max 1 m.whole.length :=
      Nat.pow_le_pow_right (by decide) (le_max_right _ _)
    have := length_whole_decimalNumeral_le (hwhole.trans_le hpow) fun _ => by omega
    rw [if_pos hplaces]
    omega
  · have hpoint : m.hasPoint = true := by
      by_contra hpoint
      rw [hm.point (by simpa using hpoint)] at hfraction
      exact hplaces (Nat.le_zero.mp hfraction)
    have := length_whole_decimalNumeral_le hwhole fun hzero => absurd hzero hplaces
    rw [if_neg hplaces, if_pos hpoint]
    omega

/-! ## What is written -/

/-- The part of a number of units before the point and the part after it can both be written. -/
def canWrite (places n : Nat) : Bool :=
  isWritable (n / 10 ^ places) && isWritable (n % 10 ^ places)

/-- The sign that is written before a value. -/
def signText (v : Rat) : Text :=
  if v < 0 then ['-'] else []

theorem numberText?_of_none {v : Rat} (h : decimalPlaces? v.den = none) :
    numberText? v = .ok none := by
  rw [numberText?, h]

theorem numberText?_of_some {v : Rat} {places : Nat} (h : decimalPlaces? v.den = some places) :
    numberText? v =
      if canWrite places (scaled v places) then
        .ok (some (signText v ++ (decimalNumeral places (scaled v places)).text))
      else .error .unwritable := by
  rw [numberText?, h, text_decimalNumeral]
  rfl

theorem numberText?_eq_ok_none_iff {v : Rat} :
    numberText? v = .ok none ↔ decimalPlaces? v.den = none := by
  refine ⟨fun h => ?_, numberText?_of_none⟩
  cases hplaces : decimalPlaces? v.den with
  | none => rfl
  | some places =>
    rw [numberText?_of_some hplaces] at h
    split at h <;> cases h

end WebTrim.Calc
