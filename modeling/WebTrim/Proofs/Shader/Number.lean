import Mathlib.Algebra.Field.Rat
import Mathlib.Tactic.FieldSimp
import WebTrim.Proofs.Calc.Numeral
import WebTrim.Proofs.Shader.Characters
import WebTrim.Proofs.Shader.Lookahead
import WebTrim.Proofs.Token

/-!
# Shortened numbers

A floating point number loses zeros at both ends. It keeps its value and what follows its digits, and
with other digits at its ends it neither takes up a neighbour nor is taken up by one. Only a digit that
is not ASCII gives trouble: it may stand within a number but opens none, and so the zeros before it
are missed.

* `numberValue` — what a number denotes: digits times a power of ten.
* `FloatLiteral.WellFormed` — the parts of a number with a point; `exists_numberLength`: how far such a
  number goes depends on the text behind its digits only.
* `FloatLiteral.trimmed_cases` — what trimming takes away; `FloatLiteral.value_trimmed`: it does not
  count.
* `shortenFloat_cases` — a number that is shortened has such parts.
* `exchange_shortenNumbers` — **a shortened text agrees with the old one up to the first number**.
* `shortened_tokens_iff` — **the tokens of a shortened shader are the shortened tokens exactly if
  every number still begins with an ASCII digit**.
-/

set_option autoImplicit false

namespace WebTrim.Shader

open Text
open Calc (digitsValue digitsValue_append digitsValue_zeros)

/-! ## What a number denotes -/

/-- The value of digits with a point among them. -/
def mantissaValue (mantissa : Text) : ℚ :=
  let whole := mantissa.takeWhile isDecimalDigit
  let fraction := mantissa.drop (whole.length + 1)
  digitsValue (whole ++ fraction) / 10 ^ fraction.length

/-- The value of an exponent, zero if there is none. -/
def exponentValue (exponent : Text) : ℤ :=
  let signed := exponent.drop 1
  let digits : ℤ := digitsValue (signed.drop (exponentSign signed))
  if signed.head? = some '-' then -digits else digits

/-- The value of a number: the mantissa times ten to the exponent, or hexadecimal digits. -/
def numberValue (t : Text) : ℚ :=
  if hexLength t ≠ 0 then hexNumber ((t.drop 2).takeWhile isHexDigit)
  else
    let after := t.drop (mantissaLength t)
    mantissaValue (t.take (mantissaLength t)) *
      10 ^ exponentValue (after.take (exponentLength after))

example : numberValue "12.50E-1f".toList = 5 / 4 ∧ numberValue "0x1Fu".toList = 31 := by
  decide +kernel

/-! ## Numbers with a point -/

/-- Digits stand on both sides of the point and nowhere directly behind them. -/
structure FloatLiteral.WellFormed (f : FloatLiteral) : Prop where
  whole : ∀ c ∈ f.whole, isDecimalDigit c = true
  fraction : ∀ c ∈ f.fraction, isDecimalDigit c = true
  ending : ∀ c ∈ f.ending.head?, isDecimalDigit c = false

/-- The value of the digits on both sides of the point. -/
def FloatLiteral.value (f : FloatLiteral) : ℚ :=
  digitsValue (f.whole ++ f.fraction) / 10 ^ f.fraction.length

theorem FloatLiteral.wellFormed_ofText? {t : Text} {f : FloatLiteral}
    (h : FloatLiteral.ofText? t = some f) : f.WellFormed := by
  unfold FloatLiteral.ofText? at h
  simp only [splitWhile] at h
  split at h
  · obtain ⟨-, hf⟩ := Option.ite_none_right_eq_some.mp h
    cases hf
    exact ⟨fun c => of_mem_takeWhile, fun c => of_mem_takeWhile, not_head_dropWhile⟩
  · cases h

/-- A digit or the point stands behind a zero, so the number is not hexadecimal. -/
theorem hexLength_of_point {whole : Text} (hwhole : ∀ c ∈ whole, isDecimalDigit c = true)
    (u : Text) : hexLength (whole ++ '.' :: u) = 0 := by
  refine hexLength_eq_zero fun x rest heq => ?_
  have hx : isDecimalDigit x = true ∨ x = '.' := by
    rcases whole with _ | ⟨c, _ | ⟨d, whole⟩⟩
    · cases heq
    · cases heq
      exact .inr rfl
    · cases heq
      exact .inl (hwhole _ (by simp))
  refine ⟨?_, ?_⟩ <;>
  · rintro rfl
    exact absurd hx (by decide)

theorem takeWhile_of_point {whole : Text} (hwhole : ∀ c ∈ whole, isDecimalDigit c = true)
    (u : Text) : (whole ++ '.' :: u).takeWhile isDecimalDigit = whole := by
  have hpoint : ∀ c ∈ ('.' :: u).head?, isDecimalDigit c = false := by
    rintro c ⟨⟩
    decide
  rw [takeWhile_append_of_stop hpoint, List.takeWhile_eq_self_iff.mpr hwhole]

theorem mantissaLength_of_point {whole fraction : Text}
    (hwhole : ∀ c ∈ whole, isDecimalDigit c = true)
    (hfraction : ∀ c ∈ fraction, isDecimalDigit c = true) (u : Text) :
    mantissaLength (whole ++ '.' :: (fraction ++ u)) =
      whole.length + (fraction.length + 1) + (u.takeWhile isDecimalDigit).length := by
  have hmore : (fraction ++ u).takeWhile isDecimalDigit = fraction ++ u.takeWhile isDecimalDigit :=
    List.takeWhile_append_of_pos hfraction
  simp only [mantissaLength, takeWhile_of_point hwhole, List.drop_left, List.head?_cons, if_true,
    List.drop_succ_cons, List.drop_zero, hmore, List.length_append]
  omega

/-- **How far a number with a point goes depends on the text behind its digits only.** -/
theorem exists_numberLength (u : Text) :
    ∃ n, ∀ whole fraction : Text, (∀ c ∈ whole, isDecimalDigit c = true) →
      (∀ c ∈ fraction, isDecimalDigit c = true) →
      numberLength (whole ++ '.' :: (fraction ++ u)) = whole.length + (fraction.length + 1) + n := by
  set after := u.drop (u.takeWhile isDecimalDigit).length with hafter
  refine ⟨(u.takeWhile isDecimalDigit).length + (exponentLength after +
    suffixLength ["lf", "LF", "f", "F", "u", "U"] (after.drop (exponentLength after))), ?_⟩
  intro whole fraction hwhole hfraction
  have hdrop : (whole ++ '.' :: (fraction ++ u)).drop
      (mantissaLength (whole ++ '.' :: (fraction ++ u))) = after := by
    rw [mantissaLength_of_point hwhole hfraction, ← List.drop_drop, hafter]
    congr 1
    rw [← List.drop_drop, List.drop_left, List.drop_succ_cons, List.drop_left]
  rw [numberLength_decimal (hexLength_of_point hwhole _), hdrop,
    mantissaLength_of_point hwhole hfraction]
  omega

namespace FloatLiteral

variable {f g : FloatLiteral}

theorem text_append (f : FloatLiteral) (t : Text) :
    f.text ++ t = f.whole ++ '.' :: (f.fraction ++ (f.ending ++ t)) := by
  simp [FloatLiteral.text]

theorem length_text (f : FloatLiteral) :
    f.text.length = f.whole.length + (f.fraction.length + 1) + f.ending.length := by
  simp [FloatLiteral.text]
  omega

/-- A number with the same ending reads as a number wherever the other does. -/
theorem WellFormed.numberLength_append (hf : f.WellFormed) (hg : g.WellFormed)
    (hending : g.ending = f.ending) {t : Text} (h : numberLength (f.text ++ t) = f.text.length) :
    numberLength (g.text ++ t) = g.text.length := by
  obtain ⟨n, hn⟩ := exists_numberLength (f.ending ++ t)
  rw [text_append, hn _ _ hf.whole hf.fraction, length_text] at h
  rw [text_append, hending, hn _ _ hg.whole hg.fraction, length_text, hending]
  omega

theorem WellFormed.mantissaLength_text (hf : f.WellFormed) :
    mantissaLength f.text = f.whole.length + (f.fraction.length + 1) := by
  have hnone : f.ending.takeWhile isDecimalDigit = [] :=
    takeWhile_append_of_stop (v := []) hf.ending
  have htext := f.text_append []
  rw [List.append_nil, List.append_nil] at htext
  rw [htext, mantissaLength_of_point hf.whole hf.fraction, hnone, List.length_nil, Nat.add_zero]

theorem WellFormed.take_mantissa (hf : f.WellFormed) :
    f.text.take (mantissaLength f.text) = f.whole ++ '.' :: f.fraction := by
  rw [hf.mantissaLength_text, FloatLiteral.text]
  exact List.take_left' (by simp)

theorem WellFormed.drop_mantissa (hf : f.WellFormed) :
    f.text.drop (mantissaLength f.text) = f.ending := by
  rw [hf.mantissaLength_text, FloatLiteral.text]
  exact List.drop_left' (by simp)

/-- A number denotes the value of its digits times the power of ten in its ending. -/
theorem WellFormed.numberValue_text (hf : f.WellFormed) :
    numberValue f.text =
      f.value * 10 ^ exponentValue (f.ending.take (exponentLength f.ending)) := by
  have hhex : hexLength f.text = 0 := by
    have hzero := hexLength_of_point hf.whole (f.fraction ++ f.ending)
    rwa [FloatLiteral.text, List.append_assoc, List.cons_append]
  have hmantissa : mantissaValue (f.whole ++ '.' :: f.fraction) = f.value := by
    simp only [mantissaValue, takeWhile_of_point hf.whole, value]
    rw [← List.drop_drop, List.drop_left, List.drop_succ_cons, List.drop_zero]
  simp only [numberValue, hhex, ne_eq, not_true, if_false, hf.take_mantissa, hf.drop_mantissa,
    hmantissa]

/-! ## Without zeros at the ends -/

/-- The zeros in front of a text and the rest of it. -/
theorem exists_zeros (t : Text) :
    ∃ count, t = List.replicate count '0' ++ t.dropWhile (· == '0') := by
  have hzeros : t.takeWhile (· == '0') = List.replicate (t.takeWhile (· == '0')).length '0' :=
    List.eq_replicate_of_mem fun c hc => eq_of_beq (of_mem_takeWhile (p := (· == '0')) hc)
  exact ⟨_, by rw [← hzeros, List.takeWhile_append_dropWhile]⟩

/-- What trimming takes away and what it leaves. A number that is all zeros gets one of them back. -/
theorem trimmed_cases (f : FloatLiteral) :
    ∃ front back whole fraction, f.whole = List.replicate front '0' ++ whole ∧
      f.fraction = fraction ++ List.replicate back '0' ∧
      ((whole ≠ [] ∨ fraction ≠ []) ∧ f.trimmed = ⟨whole, fraction, f.ending⟩ ∨
        whole = [] ∧ fraction = [] ∧ f.trimmed = ⟨[], ['0'], f.ending⟩) := by
  obtain ⟨front, hfront⟩ := exists_zeros f.whole
  obtain ⟨back, hback⟩ := exists_zeros f.fraction.reverse
  have hback' := congrArg List.reverse hback
  rw [List.reverse_reverse, List.reverse_append, List.reverse_replicate] at hback'
  refine ⟨front, back, _, _, hfront, hback', ?_⟩
  unfold trimmed
  simp only [Bool.and_eq_true, List.isEmpty_iff]
  split
  · next hnone => exact .inr ⟨hnone.1, hnone.2, rfl⟩
  · next hsome => exact .inl ⟨Classical.not_and_iff_not_or_not.mp hsome, rfl⟩

theorem ending_trimmed (f : FloatLiteral) : f.trimmed.ending = f.ending := by
  obtain ⟨-, -, _, _, -, -, ⟨-, htrimmed⟩ | ⟨-, -, htrimmed⟩⟩ := f.trimmed_cases <;> rw [htrimmed]

/-- A trimmed number has a digit. -/
theorem trimmed_digits (f : FloatLiteral) : f.trimmed.whole ≠ [] ∨ f.trimmed.fraction ≠ [] := by
  obtain ⟨-, -, _, _, -, -, ⟨hsome, htrimmed⟩ | ⟨-, -, htrimmed⟩⟩ := f.trimmed_cases
  · rwa [htrimmed]
  · rw [htrimmed]
    exact .inr (by simp)

/-- Without digits before the point, none are put there. -/
theorem whole_trimmed_of_nil (h : f.whole = []) : f.trimmed.whole = [] := by
  obtain ⟨front, -, whole, _, hwhole, -, ⟨-, htrimmed⟩ | ⟨-, -, htrimmed⟩⟩ := f.trimmed_cases
  · rw [htrimmed]
    rw [h] at hwhole
    exact (List.append_eq_nil_iff.mp hwhole.symm).2
  · rw [htrimmed]

theorem WellFormed.trimmed (hf : f.WellFormed) : f.trimmed.WellFormed := by
  obtain ⟨front, back, whole, fraction, hwhole, hfraction, ⟨-, htrimmed⟩ | ⟨-, -, htrimmed⟩⟩ :=
    f.trimmed_cases
  · rw [htrimmed]
    refine ⟨fun c hc => hf.whole c ?_, fun c hc => hf.fraction c ?_, hf.ending⟩
    · rw [hwhole]
      exact List.mem_append_right _ hc
    · rw [hfraction]
      exact List.mem_append_left _ hc
  · rw [htrimmed]
    refine ⟨by simp, fun c hc => ?_, hf.ending⟩
    rw [List.mem_singleton.mp hc]
    decide

/-- **Zeros at the ends do not count.** -/
theorem value_trimmed (f : FloatLiteral) : f.trimmed.value = f.value := by
  obtain ⟨front, back, whole, fraction, hwhole, hfraction, hend⟩ := f.trimmed_cases
  have hvalue : f.value = digitsValue (whole ++ fraction) / 10 ^ fraction.length := by
    have hzeros : digitsValue (List.replicate back '0') = 0 := by
      have := digitsValue_zeros back []
      rwa [List.append_nil] at this
    have hdigits : digitsValue (f.whole ++ f.fraction) =
        10 ^ back * digitsValue (whole ++ fraction) := by
      rw [hwhole, hfraction, List.append_assoc, digitsValue_zeros, ← List.append_assoc,
        digitsValue_append, List.length_replicate, hzeros, Nat.add_zero]
    have hlength : f.fraction.length = fraction.length + back := by
      rw [hfraction, List.length_append, List.length_replicate]
    rw [value, hdigits, hlength, pow_add]
    push_cast
    field_simp
  rw [hvalue]
  rcases hend with ⟨-, htrimmed⟩ | ⟨rfl, rfl, htrimmed⟩
  · rw [htrimmed]
    rfl
  · have hzero : digitsValue ['0'] = 0 := by decide
    have hnil : digitsValue [] = 0 := by decide
    rw [htrimmed, value, List.nil_append, List.nil_append, hzero, hnil]
    simp

end FloatLiteral

/-! ## One number -/

/-- The first digit of the text is an ASCII digit. -/
def LeadsInAscii (t : Text) : Prop :=
  (t.find? isDecimalDigit).all isAsciiDigit = true

instance (t : Text) : Decidable (LeadsInAscii t) :=
  inferInstanceAs (Decidable (_ = true))

theorem leadsInAscii_of_opensNumber {c : Char} {rest : Text} (h : opensNumber c rest = true) :
    LeadsInAscii (c :: rest) := by
  have hpoint : isDecimalDigit '.' = false := by decide
  rcases opensNumber_cases h with hdigit | ⟨rfl, d, more, rfl, hdigit⟩
  · simp [LeadsInAscii, isDecimalDigit_of_isAsciiDigit hdigit, hdigit]
  · simp [LeadsInAscii, hpoint, isDecimalDigit_of_isAsciiDigit hdigit, hdigit]

/-- A number with a point opens with its first digit, or with the point before it. -/
theorem FloatLiteral.WellFormed.exists_opensNumber {f : FloatLiteral} (hf : f.WellFormed)
    (hdigits : f.whole ≠ [] ∨ f.fraction ≠ []) (h : LeadsInAscii f.text) :
    ∃ c rest, f.text = c :: rest ∧ opensNumber c rest = true := by
  obtain ⟨whole, fraction, ending⟩ := f
  have hpoint : isDecimalDigit '.' = false := by decide
  cases whole with
  | cons c whole =>
    have hc : isDecimalDigit c = true := hf.whole c List.mem_cons_self
    refine ⟨c, _, rfl, ?_⟩
    simp only [LeadsInAscii, FloatLiteral.text, List.cons_append, List.find?_cons, hc,
      Option.all_some] at h
    simp [opensNumber, h]
  | nil =>
    cases fraction with
    | nil => exact absurd rfl (hdigits.resolve_left (by simp))
    | cons d fraction =>
      have hd : isDecimalDigit d = true := hf.fraction d List.mem_cons_self
      refine ⟨'.', _, rfl, ?_⟩
      simp only [LeadsInAscii, FloatLiteral.text, List.nil_append, List.cons_append,
        List.find?_cons, hpoint, hd, Option.all_some] at h
      simp [opensNumber, h]

section Shorten

variable {x : Text}

theorem Lexeme.exists_opensNumber (hx : Lexeme ⟨.number, x⟩) :
    ∃ c rest, x = c :: rest ∧ opensNumber c rest = true := by
  cases hx with
  | number hopens =>
    rename_i c rest
    obtain ⟨n, hn⟩ :=
      Nat.exists_eq_succ_of_ne_zero (Nat.pos_iff_ne_zero.mp (numberLength_pos hopens))
    rw [hn, List.take_succ_cons]
    exact ⟨c, _, rfl, opensNumber_take hopens hn⟩

theorem length_shortenFloat_le (x : Text) : (shortenFloat x).length ≤ x.length := by
  unfold shortenFloat
  split
  · exact Nat.le_refl _
  · split <;> omega

/-- A number that is shortened is one with a point. -/
theorem shortenFloat_cases (hx : Lexeme ⟨.number, x⟩) :
    shortenFloat x = x ∨
      ∃ f : FloatLiteral, f.WellFormed ∧ x = f.text ∧ shortenFloat x = f.trimmed.text := by
  have hnewline : dropFinalNewline x = x := by
    refine if_neg fun hlast => ?_
    cases hx with
    | number hopens =>
      exact absurd (isWordPart_of_mem_number _ (List.mem_of_getLast? hlast)) (by decide)
  unfold shortenFloat
  rw [hnewline]
  split
  · exact .inl rfl
  · next f hf =>
    split
    · exact .inr ⟨f, FloatLiteral.wellFormed_ofText? hf, (FloatLiteral.text_ofText? hf).symm, rfl⟩
    · exact .inl rfl

/-- A shortened number ends where the number does, before the same text. -/
theorem numberLength_shortenFloat_append (hx : Lexeme ⟨.number, x⟩) {t : Text}
    (h : numberLength (x ++ t) = x.length) :
    numberLength (shortenFloat x ++ t) = (shortenFloat x).length := by
  rcases shortenFloat_cases hx with hsame | ⟨f, hf, rfl, hshort⟩
  · rwa [hsame]
  · rw [hshort]
    exact hf.numberLength_append hf.trimmed f.ending_trimmed h

theorem numberValue_shortenFloat (hx : Lexeme ⟨.number, x⟩) :
    numberValue (shortenFloat x) = numberValue x := by
  rcases shortenFloat_cases hx with hsame | ⟨f, hf, rfl, hshort⟩
  · rw [hsame]
  · rw [hshort, hf.numberValue_text, hf.trimmed.numberValue_text, f.value_trimmed,
      f.ending_trimmed]

/-- What follows the digits of a number stays. -/
theorem drop_mantissa_shortenFloat (hx : Lexeme ⟨.number, x⟩) :
    (shortenFloat x).drop (mantissaLength (shortenFloat x)) = x.drop (mantissaLength x) := by
  rcases shortenFloat_cases hx with hsame | ⟨f, hf, rfl, hshort⟩
  · rw [hsame]
  · rw [hshort, hf.drop_mantissa, hf.trimmed.drop_mantissa, f.ending_trimmed]

theorem point_mem_shortenFloat (hx : Lexeme ⟨.number, x⟩) (h : '.' ∈ x) :
    '.' ∈ shortenFloat x := by
  rcases shortenFloat_cases hx with hsame | ⟨f, hf, rfl, hshort⟩
  · rwa [hsame]
  · rw [hshort]
    simp [FloatLiteral.text]

/-- A number whose shortened form leads with an ASCII digit is still opened as one, by its point if
it was before. -/
theorem exists_opensNumber_shortenFloat (hx : Lexeme ⟨.number, x⟩)
    (hlead : LeadsInAscii (shortenFloat x)) :
    ∃ c rest, shortenFloat x = c :: rest ∧ opensNumber c rest = true ∧
      (x.head? = some '.' → c = '.') := by
  rcases shortenFloat_cases hx with hsame | ⟨f, hf, rfl, hshort⟩
  · rw [hsame]
    obtain ⟨c, rest, rfl, hopens⟩ := hx.exists_opensNumber
    exact ⟨c, rest, rfl, hopens, fun hhead => Option.some.inj hhead⟩
  · rw [hshort] at hlead ⊢
    obtain ⟨c, rest, htext, hopens⟩ := hf.trimmed.exists_opensNumber f.trimmed_digits hlead
    refine ⟨c, rest, htext, hopens, fun hhead => ?_⟩
    have hwhole : f.whole = [] := by
      cases hw : f.whole with
      | nil => rfl
      | cons d whole =>
        have hd : isDecimalDigit d = true := hf.whole d (by simp [hw])
        rw [FloatLiteral.text, hw] at hhead
        cases hhead
        exact absurd hd (by decide)
    have hhead' := congrArg List.head? htext
    rw [FloatLiteral.text, FloatLiteral.whole_trimmed_of_nil hwhole] at hhead'
    exact (Option.some.inj hhead').symm

end Shorten

/-! ## All numbers -/

/-- The token, shortened if it is a number. -/
def shortenToken (t : Token Kind) : Token Kind :=
  { t with text := if t.kind = .number then shortenFloat t.text else t.text }

/-- Every number of the shader leads with an ASCII digit when it is shortened. -/
def NumbersLead (source : Text) : Prop :=
  ∀ t ∈ tokens source, t.kind = .number → LeadsInAscii (shortenFloat t.text)

theorem shortenNumbers_eq_rewritten (source : Text) :
    shortenNumbers source =
      rewritten tokenStep (fun p => (shortenToken (Token.ofPiece p)).text) () source := by
  rw [rewritten, shortenNumbers, tokens_eq, List.flatMap_map]
  rfl

@[simp] theorem shortenNumbers_nil : shortenNumbers [] = [] := by
  simp [shortenNumbers, tokens_eq]

theorem shortenNumbers_cons (c : Char) (rest : Text) :
    shortenNumbers (c :: rest) =
      (shortenToken ⟨(tokenStep () c rest).note,
          c :: rest.take (tokenStep () c rest).extra⟩).text ++
        shortenNumbers (rest.drop (tokenStep () c rest).extra) := by
  rw [shortenNumbers_eq_rewritten, shortenNumbers_eq_rewritten, rewritten_cons]
  rfl

theorem NumbersLead.of_cons {c : Char} {rest : Text} (h : NumbersLead (c :: rest)) :
    NumbersLead (rest.drop (tokenStep () c rest).extra) := by
  unfold NumbersLead at h
  rw [tokens_cons, List.forall_mem_cons] at h
  exact h.2

/-- The first number of a shader, shortened. -/
theorem NumbersLead.exists_opensNumber {c : Char} {rest : Text} (h : NumbersLead (c :: rest))
    (hkind : (tokenStep () c rest).note = .number) :
    Lexeme ⟨.number, c :: rest.take (tokenStep () c rest).extra⟩ ∧
      ∃ c' body, shortenFloat (c :: rest.take (tokenStep () c rest).extra) = c' :: body ∧
        opensNumber c' body = true ∧ (c = '.' → c' = '.') := by
  have hmem : (⟨.number, c :: rest.take (tokenStep () c rest).extra⟩ : Token Kind) ∈
      tokens (c :: rest) := by
    rw [tokens_cons, hkind]
    exact List.mem_cons_self
  have hlexeme := lexeme_of_mem_tokens hmem rfl
  have hlead := h _ hmem rfl
  obtain ⟨c', body, htext, hopens, hpoint⟩ := exists_opensNumber_shortenFloat hlexeme hlead
  exact ⟨hlexeme, c', body, htext, hopens, fun hc => hpoint (congrArg some hc)⟩

/-- What the scanner takes for a number. -/
theorem number_of_tokenStep {c : Char} {rest : Text} (h : (tokenStep () c rest).note = .number) :
    opensNumber c rest = true ∧ numberLength (c :: rest) = (tokenStep () c rest).extra + 1 := by
  rcases tokenStep_cases c rest with
    hblank | ⟨rfl, more, rfl⟩ | ⟨rfl, more, rfl⟩ | hident | ⟨hbare, hopens⟩ | ⟨hbare, hopens⟩
  · rw [tokenStep_blank hblank] at h; cases h
  · rw [tokenStep_line] at h; cases h
  · rw [tokenStep_block] at h; cases h
  · rw [tokenStep_identifier hident] at h; cases h
  · rw [tokenStep_number hbare hopens]
    exact ⟨hopens, (Nat.sub_add_cancel (numberLength_pos hopens)).symm⟩
  · rw [tokenStep_operator hbare hopens] at h; cases h

/-- **A shortened shader agrees with the old one up to the first number.** -/
theorem exchange_shortenNumbers {source : Text} (h : NumbersLead source) :
    shortenNumbers source = source ∨
      ∃ v w w', source = v ++ w ∧ shortenNumbers source = v ++ w' ∧ Exchange w w' := by
  induction source using tokenInduction with
  | nil => exact .inl shortenNumbers_nil
  | cons c rest ih =>
    set n := (tokenStep () c rest).extra with hn
    rw [shortenNumbers_cons, ← hn]
    by_cases hkind : (tokenStep () c rest).note = .number
    · right
      obtain ⟨-, c', body, htext, hopens, hpoint⟩ := h.exists_opensNumber hkind
      refine ⟨[], c :: rest, c' :: (body ++ shortenNumbers (rest.drop n)), rfl, ?_, ?_⟩
      · rw [shortenToken, if_pos hkind, htext]
        rfl
      · rcases opensNumber_cases (number_of_tokenStep hkind).1 with hdigit | ⟨rfl, -⟩
        · exact .digit hdigit ((opensNumber_cases hopens).imp_right And.left) _ _
        · rw [hpoint rfl]
          exact .point _ _
    · rw [shortenToken, if_neg hkind]
      rcases ih h.of_cons with hsame | ⟨v, w, w', hold, hnew, hexchange⟩
      · left
        rw [hsame, List.cons_append, List.take_append_drop]
      · refine .inr ⟨c :: (rest.take n ++ v), w, w', ?_, ?_, hexchange⟩
        · rw [List.cons_append, List.append_assoc, ← hold, List.take_append_drop]
        · rw [hnew, List.cons_append, List.cons_append, List.append_assoc]

/-- A token ends at the same place when the numbers behind it are shortened. -/
theorem tokenStep_shortened {c : Char} {rest : Text} (h : NumbersLead (c :: rest)) :
    tokenStep () c (rest.take (tokenStep () c rest).extra ++
        shortenNumbers (rest.drop (tokenStep () c rest).extra)) = tokenStep () c rest := by
  set n := (tokenStep () c rest).extra with hn
  rcases exchange_shortenNumbers h.of_cons with hsame | ⟨v, w, w', hold, hnew, hexchange⟩
  · rw [← hn] at hsame
    rw [hsame, List.take_append_drop]
  · rw [← hn] at hold hnew
    have hrest : rest = rest.take n ++ v ++ w := by
      rw [List.append_assoc, ← hold, List.take_append_drop]
    have hlong : n ≤ rest.length := by
      by_contra hshort
      rw [List.drop_eq_nil_of_le (by omega)] at hold
      exact hexchange.ne_nil (List.append_eq_nil_iff.mp hold.symm).2
    have hle : (tokenStep () c (rest.take n ++ v ++ w)).extra ≤ (rest.take n ++ v).length := by
      rw [← hrest, ← hn, List.length_append, List.length_take_of_le hlong]
      omega
    rw [hnew, ← List.append_assoc, hexchange.tokenStep_append hle, ← hrest]

/-- The scanner answers the shortening of each token. -/
theorem answers_shortened (c : Char) (rest : Text) (h : NumbersLead (c :: rest)) :
    Answers tokenStep (fun p => (shortenToken (Token.ofPiece p)).text) id
      (fun _ _ t => NumbersLead t) () () c rest := by
  have hsame := tokenStep_shortened h
  set n := (tokenStep () c rest).extra with hn
  by_cases hkind : (tokenStep () c rest).note = .number
  · obtain ⟨hlexeme, c', body, htext, hopens, -⟩ := h.exists_opensNumber hkind
    refine ⟨c', body, (if_pos hkind).trans htext, fun tail htail => ?_⟩
    obtain rfl : tail = shortenNumbers (rest.drop n) := by
      rw [shortenNumbers_eq_rewritten]
      exact htail
    set tail := shortenNumbers (rest.drop n)
    -- the old number ends before the new text, and so does the new one
    have hold : numberLength (c :: rest.take n ++ tail) = (c :: rest.take n).length := by
      have hlength := (number_of_tokenStep (hsame ▸ hkind)).2
      have hle := numberLength_le (c :: rest)
      rw [(number_of_tokenStep hkind).2, List.length_cons, ← hn] at hle
      rw [hsame, ← hn] at hlength
      rw [List.cons_append, hlength, List.length_cons, List.length_take_of_le (by omega)]
    have hnew := numberLength_shortenFloat_append hlexeme hold
    rw [htext, List.cons_append, List.length_cons] at hnew
    rw [tokenStep_number (bare_of_opensNumber hopens _) (opensNumber_append hopens tail), hnew,
      Nat.add_sub_cancel]
    exact ⟨List.take_left, hkind.symm, h.of_cons⟩
  · refine ⟨c, rest.take n, if_neg hkind, fun tail htail => ?_⟩
    obtain rfl : tail = shortenNumbers (rest.drop n) := by
      rw [shortenNumbers_eq_rewritten]
      exact htail
    rw [hsame, ← hn]
    exact ⟨take_append_of_short fun hend => by rw [hend, shortenNumbers_nil], rfl, h.of_cons⟩

/-- **The tokens of a shortened shader are the shortened tokens**, if every number leads with an ASCII
digit. -/
theorem tokens_shortenNumbers {source : Text} (h : NumbersLead source) :
    tokens (shortenNumbers source) = (tokens source).map shortenToken := by
  have hscan := scan_rewritten (fun _ _ c rest h => answers_shortened c rest h) () () source h
  rw [tokens_eq, shortenNumbers_eq_rewritten, hscan, tokens_eq, List.map_map, List.map_map]
  rfl

/-- A number among the shortened tokens leads with an ASCII digit. -/
theorem numbersLead_of_tokens {source : Text}
    (h : tokens (shortenNumbers source) = (tokens source).map shortenToken) :
    NumbersLead source := by
  intro t ht hkind
  have hmem : shortenToken t ∈ tokens (shortenNumbers source) := h ▸ List.mem_map_of_mem ht
  have hnumber : shortenToken t = ⟨.number, shortenFloat t.text⟩ := by
    simp [shortenToken, hkind]
  obtain ⟨c, rest, htext, hopens⟩ := (lexeme_of_mem_tokens (hnumber ▸ hmem) rfl).exists_opensNumber
  rw [htext]
  exact leadsInAscii_of_opensNumber hopens

/-- Where all digits are ASCII, every number leads with one. -/
theorem numbersLead_of_ascii {source : Text}
    (h : ∀ c ∈ source, isDecimalDigit c = true → isAsciiDigit c = true) : NumbersLead source := by
  intro t ht hkind
  rw [LeadsInAscii, Option.all_eq_true]
  intro d hd
  have hdigit : isDecimalDigit d = true := by simpa using List.find?_some hd
  rcases mem_shortenFloat (List.mem_of_find?_eq_some hd) with rfl | hmem
  · decide
  · exact forall_mem_token h t ht d hmem hdigit

/-- **A shader with shortened numbers has the shortened tokens exactly if each number still leads with
an ASCII digit.** It does where all digits are ASCII. The recorded places are the sums of the new
lengths. In any case a shortened number is not longer, has the same value, goes on behind its digits as
before, and keeps its point. -/
theorem shortened_tokens_iff (source : Text) :
    (tokens (shortenNumbers source) = (tokens source).map shortenToken ↔
      ∀ t ∈ tokens source, t.kind = .number → LeadsInAscii (shortenFloat t.text)) ∧
    ((∀ c ∈ source, isDecimalDigit c = true → isAsciiDigit c = true) →
      tokens (shortenNumbers source) = (tokens source).map shortenToken) ∧
    (placedTokens (shortenNumbers source)).map Placed.start =
      Token.starts 0 (tokens (shortenNumbers source)) ∧
    ∀ t ∈ tokens source, t.kind = .number →
      (shortenFloat t.text).length ≤ t.text.length ∧
      numberValue (shortenFloat t.text) = numberValue t.text ∧
      (shortenFloat t.text).drop (mantissaLength (shortenFloat t.text)) =
        t.text.drop (mantissaLength t.text) ∧
      ('.' ∈ t.text → '.' ∈ shortenFloat t.text) := by
  refine ⟨⟨numbersLead_of_tokens, tokens_shortenNumbers⟩,
    fun h => tokens_shortenNumbers (numbersLead_of_ascii h),
    Placed.contiguous_scan tokenStep () 0 _, fun t ht hkind => ?_⟩
  have hlexeme : Lexeme ⟨.number, t.text⟩ :=
    hkind ▸ lexeme_of_mem_tokens ht (by simp [isSignificant, hkind])
  exact ⟨length_shortenFloat_le t.text, numberValue_shortenFloat hlexeme,
    drop_mantissa_shortenFloat hlexeme, point_mem_shortenFloat hlexeme⟩

/-- Numbers that touch each other and an identifier stay apart. -/
theorem shortened_tokens_iff_crowded :
    tokens (shortenNumbers "1.0.50f00.5e+1x".toList) =
      [⟨.number, "1.".toList⟩, ⟨.number, ".5f".toList⟩, ⟨.number, ".5e+1".toList⟩,
        ⟨.identifier, "x".toList⟩] ∧
    numberValue ".5e+1".toList = numberValue "00.5e+1".toList := by
  have hspec := shortened_tokens_iff "1.0.50f00.5e+1x".toList
  have hshort : shortenFloat "00.5e+1".toList = ".5e+1".toList := by decide +kernel
  refine ⟨?_, ?_⟩
  · rw [hspec.1.mpr (by decide +kernel)]
    decide +kernel
  · have hvalue := (hspec.2.2.2 ⟨.number, "00.5e+1".toList⟩ (by decide +kernel) rfl).2.1
    rwa [hshort] at hvalue

/-- Behind its zero, the Arabic three is no number: the point and the five are left alone. -/
theorem number_lost_behind_zero :
    tokens (shortenNumbers "0\u0663.5".toList) ≠ (tokens "0\u0663.5".toList).map shortenToken ∧
    tokens (shortenNumbers "0\u0663.5".toList) = [⟨.operator, "\u0663".toList⟩, ⟨.number, ".5".toList⟩] := by
  decide +kernel

end WebTrim.Shader
