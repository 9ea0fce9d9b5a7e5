import WebTrim.Proofs.Calc.Decimal
import WebTrim.Proofs.Calc.Grammar
import WebTrim.Proofs.Text.Word

/-!
# Literals

A literal is the sign and the numeral of a value. It is an expression itself, which has the same
value and amounts to the same literal as long as its digits can be read.

* `Dimension.numeral` — the numeral of a dimension; zero has no unit.
* `exists_of_literal?` — **every literal is the sign and numeral of the value of its expression**.
* `value_literal`, `literal?_literal` — the value of a literal, and the literal it amounts to.
* `numberText?_shortest` — **which numbers are written, and that no numeral is shorter**.
-/

set_option autoImplicit false

namespace WebTrim.Calc

open Text

/-! ## Units of values -/

theorem Operator.Gives.unit {op : Operator} {a b d : Dimension} (h : op.Gives a b d) :
    d.unit = a.unit ∨ d.unit = b.unit := by
  cases h with
  | add | sub | mulRight | div => exact .inl rfl
  | mulLeft => exact .inr rfl

/-- The unit of a value is that of one of its numbers. -/
theorem Phrase.Evaluates.unit {r : Rank} {e : Phrase r} {d : Dimension} (h : e.Evaluates d) :
    ∀ c ∈ d.unit, isUnitChar c = true := by
  induction h with
  | number n h => exact h.unit
  | plus _ ih | minus _ ih | bracketed _ ih | factor _ ih | term _ ih => exact ih
  | product _ _ hgives ihleft ihright | sum _ _ hgives ihleft ihright =>
    rcases hgives.unit with hunit | hunit <;> rw [hunit]
    · exact ihleft
    · exact ihright

theorem isUnitChar_of_value {t : Text} {d : Dimension} (h : value t = .ok d) :
    ∀ c ∈ d.unit, isUnitChar c = true := by
  unfold value at h
  split at h
  · cases h
  · obtain ⟨-, e, -, hvalue⟩ := exists_phrase_of_parse h
    exact hvalue.unit

/-! ## The numeral of a dimension -/

/-- The numeral of a dimension whose value has so many decimal places. Zero is written without a
unit. -/
def Dimension.numeral (d : Dimension) (places : Nat) : Numeral :=
  { decimalNumeral places (scaled d.value places) with
    unit := if d.value = 0 then [] else d.unit }

/-- The dimension as it is written: zero loses its unit. -/
def Dimension.shown (d : Dimension) : Dimension :=
  ⟨d.value, if d.value = 0 then [] else d.unit⟩

section Numeral

variable {d : Dimension} {places : Nat}

theorem Dimension.text_numeral (d : Dimension) (places : Nat) :
    (d.numeral places).text = decimalText places (scaled d.value places) ++ d.shown.unit := by
  rw [← text_decimalNumeral]
  simp [Numeral.text, numeral, shown, decimalNumeral]

theorem Dimension.wellFormed_numeral (hunit : ∀ c ∈ d.unit, isUnitChar c = true) (places : Nat) :
    (d.numeral places).WellFormed := by
  have h := wellFormed_decimalNumeral places (scaled d.value places)
  refine ⟨h.whole, h.fraction, ?_, h.digits, h.point⟩
  intro c hc
  simp only [numeral] at hc
  split at hc
  · cases hc
  · exact hunit c hc

theorem Dimension.dimension_numeral (h : decimalPlaces? d.value.den = some places) :
    (d.numeral places).dimension = ⟨|d.value|, d.shown.unit⟩ := by
  have hvalue := congrArg Dimension.value (dimension_decimalNumeral places (scaled d.value places))
  rw [← mkRat_scaled h]
  exact congrArg (Dimension.mk · _) hvalue

/-- **What is written for a dimension** whose value has a finite decimal form. -/
theorem Dimension.text?_eq (h : decimalPlaces? d.value.den = some places) :
    d.text? =
      if canWrite places (scaled d.value places) then
        .ok (some (signText d.value ++ (d.numeral places).text))
      else .error .unwritable := by
  rw [text?, text_numeral]
  split
  · next hzero =>
    obtain ⟨value, unit⟩ := d
    obtain rfl : value = 0 := hzero
    obtain rfl : 0 = places := Option.some.inj h
    have hscaled : scaled 0 0 = 0 := by simp [scaled]
    have hwrite : canWrite 0 0 = true := by decide
    simp [hscaled, hwrite, signText, shown, decimalText, ofNat]
  · next hzero =>
    rw [numberText?_of_some h, shown, if_neg hzero, text_decimalNumeral]
    split <;> simp [Except.map]

end Numeral

/-! ## The value of a literal -/

/-- A digit or a point. -/
def isNumeralChar (c : Char) : Bool :=
  c.isDigit || c == '.'

theorem toNat_of_isNumeralChar {c : Char} (h : isNumeralChar c = true) :
    46 ≤ c.toNat ∧ c.toNat ≤ 57 ∧ c.toNat ≠ 47 := by
  rw [isNumeralChar, Bool.or_eq_true, beq_iff_eq] at h
  rcases h with hdigit | rfl
  · have := Stylesheet.toNat_of_isAsciiDigit (isAsciiDigit_of_isDigit hdigit)
    omega
  · decide

theorem isBlank_of_isNumeralChar {c : Char} (h : isNumeralChar c = true) : isBlank c = false := by
  have := toNat_of_isNumeralChar h
  simp only [isBlank]
  simp
  omega

theorem ofChar?_of_isNumeralChar {c : Char} (h : isNumeralChar c = true) :
    Symbol.ofChar? c = none := by
  have := toNat_of_isNumeralChar h
  unfold Symbol.ofChar?
  split <;> simp_all

theorem isNumeralChar_of_mem_decimalText {places n : Nat} {c : Char}
    (h : c ∈ decimalText places n) : isNumeralChar c = true := by
  have hdigit {d : Char} (hd : d.isDigit = true) : isNumeralChar d = true := by
    rw [isNumeralChar, hd, Bool.true_or]
  simp only [decimalText] at h
  split at h
  · exact hdigit (isDigit_of_mem_ofNat h)
  · rw [List.mem_append, List.mem_cons] at h
    rcases h with hwhole | rfl | hfraction
    · split at hwhole
      · cases hwhole
      · exact hdigit (isDigit_of_mem_ofNat hwhole)
    · rfl
    · exact hdigit (isDigit_of_mem_paddedDigits hfraction)

/-- A token list that is a single factor has the value of that factor. -/
theorem parse_of_factor {ts : List Located} {result : Except Error Dimension}
    (h : taken (factor ts) = result.map fun d => (d, [])) : parse ts = result := by
  rw [parse_eq_bind, taken_expression, taken_term, h]
  rcases result with e | d
  · rfl
  · have hfactors : taken (moreFactors d []) = .ok (d, []) := chain_factors.nil d
    have hterms : taken (moreTerms d []) = .ok (d, []) := chain_terms.nil d
    simp [Except.map, Except.bind, hfactors, hterms]

theorem tokensFrom_nil (offset : Nat) : tokensFrom offset [] = .ok [] := by
  unfold tokensFrom
  rfl

theorem tokensFrom_cons (offset : Nat) (c : Char) (rest : Text) :
    tokensFrom offset (c :: rest) =
      if isBlank c then tokensFrom (offset + 1) rest
      else
        match Symbol.ofChar? c with
        | some symbol => (tokensFrom (offset + 1) rest).map (⟨symbol, offset⟩ :: ·)
        | none =>
          match numeralAt? (c :: rest) with
          | none => .error (.unexpectedChar c offset)
          | some n =>
            (tokensFrom (offset + n.text.length) (rest.drop (n.text.length - 1))).map
              (⟨.number n.text, offset⟩ :: ·) := by
  conv_lhs => unfold tokensFrom
  cases isBlank c with
  | true => rfl
  | false =>
    cases Symbol.ofChar? c with
    | some symbol =>
      dsimp only
      cases tokensFrom (offset + 1) rest <;> rfl
    | none =>
      cases numeralAt? (c :: rest) with
      | none => rfl
      | some n =>
        dsimp only
        cases tokensFrom (offset + n.text.length) (rest.drop (n.text.length - 1)) <;> rfl

/-- The tokens of a signed number. -/
def signedTokens (v : Rat) (text : Text) : List Located :=
  if v < 0 then [⟨.minus, 0⟩, ⟨.number text, 1⟩] else [⟨.number text, 0⟩]

theorem parse_signedTokens (v : Rat) (text : Text) :
    parse (signedTokens v text) =
      (readNumber text).map fun d => ⟨if v < 0 then -d.value else d.value, d.unit⟩ := by
  have hnumber (offset : Nat) : taken (factor [⟨.number text, offset⟩]) =
      (readNumber text).map fun d => (d, []) := taken_factor _ _
  unfold signedTokens
  split
  · refine parse_of_factor ?_
    rw [taken_factor]
    show (taken (factor [⟨.number text, 1⟩])).map _ = _
    rw [hnumber]
    cases readNumber text <;> rfl
  · refine parse_of_factor ?_
    rw [hnumber]
    cases readNumber text <;> rfl

section Literal

variable {d : Dimension} {places : Nat}

theorem decimalText_ne_nil (places n : Nat) : decimalText places n ≠ [] := by
  rw [← text_decimalNumeral]
  intro hnil
  have hread := Numeral.numeralAt?_text (wellFormed_decimalNumeral places n)
  rw [hnil] at hread
  cases hread

theorem head?_numeral (d : Dimension) (places : Nat) :
    ∃ c rest, (d.numeral places).text = c :: rest ∧ isNumeralChar c = true := by
  obtain ⟨c, rest, hcons⟩ := List.exists_cons_of_ne_nil
    (decimalText_ne_nil places (scaled d.value places))
  refine ⟨c, rest ++ d.shown.unit, ?_,
    isNumeralChar_of_mem_decimalText (hcons ▸ List.mem_cons_self)⟩
  rw [Dimension.text_numeral, hcons]
  rfl

/-- The characters of literals. -/
def isLiteralChar (c : Char) : Bool :=
  c == '-' || isNumeralChar c || isUnitChar c

theorem isLiteralChar_of_mem (hunit : ∀ c ∈ d.unit, isUnitChar c = true) {c : Char}
    (hc : c ∈ signText d.value ++ (d.numeral places).text) : isLiteralChar c = true := by
  rw [Dimension.text_numeral, List.mem_append, List.mem_append] at hc
  rcases hc with hsign | hdigits | hletters
  · unfold signText at hsign
    split at hsign
    · rw [List.mem_singleton.mp hsign]
      rfl
    · cases hsign
  · simp [isLiteralChar, isNumeralChar_of_mem_decimalText hdigits]
  · simp only [Dimension.shown] at hletters
    split at hletters
    · cases hletters
    · simp [isLiteralChar, hunit c hletters]

/-- A call of a function has a bracket. -/
theorem bracket_mem_of_startsFunction {t : Text} (h : startsFunction t = true) : '(' ∈ t := by
  obtain ⟨name, -, hname⟩ := List.any_eq_true.mp h
  cases hdrop : dropWord? name t with
  | none =>
    rw [hdrop] at hname
    cases hname
  | some rest =>
    obtain ⟨spelled, -, rfl⟩ := dropWord?_eq_some_iff.mp hdrop
    rw [hdrop] at hname
    have hbracket := List.mem_of_mem_head? (of_decide_eq_true hname)
    exact List.mem_append_right _ ((List.dropWhile_suffix _).subset hbracket)

/-- A numeral is one token. -/
theorem tokensFrom_numeral (hunit : ∀ c ∈ d.unit, isUnitChar c = true) (places offset : Nat) :
    tokensFrom offset (d.numeral places).text =
      .ok [⟨.number (d.numeral places).text, offset⟩] := by
  have hread := Numeral.numeralAt?_text (Dimension.wellFormed_numeral hunit places)
  obtain ⟨c, rest, htext, hc⟩ := head?_numeral d places
  rw [htext] at hread
  rw [htext, tokensFrom_cons, isBlank_of_isNumeralChar hc, if_neg Bool.false_ne_true,
    ofChar?_of_isNumeralChar hc, hread]
  simp [htext, tokensFrom_nil, Except.map]

theorem tokens_literal (hunit : ∀ c ∈ d.unit, isUnitChar c = true) (places : Nat) :
    tokens (signText d.value ++ (d.numeral places).text) =
      .ok (signedTokens d.value (d.numeral places).text) := by
  unfold tokens signText signedTokens
  split
  · show tokensFrom 0 ('-' :: (d.numeral places).text) = _
    rw [tokensFrom_cons, tokensFrom_numeral hunit]
    rfl
  · exact tokensFrom_numeral hunit places 0

/-- **The value of a literal** is the value it was written for, if its digits can be read. -/
theorem value_literal (hunit : ∀ c ∈ d.unit, isUnitChar c = true)
    (h : decimalPlaces? d.value.den = some places) :
    value (signText d.value ++ (d.numeral places).text) =
      if digitLimit < (d.numeral places).digitCount then
        .error (.tooManyDigits (d.numeral places).digitCount)
      else .ok d.shown := by
  rw [value, tokens_literal hunit]
  show parse _ = _
  rw [parse_signedTokens, Numeral.readNumber_text (Dimension.wellFormed_numeral hunit places),
    Dimension.dimension_numeral h]
  have hsign : (if d.value < 0 then -|d.value| else |d.value|) = d.value := by
    split
    · next hneg => rw [abs_of_neg hneg, neg_neg]
    · next hpos => exact abs_of_nonneg (not_lt.mp hpos)
  by_cases hlimit : digitLimit < (d.numeral places).digitCount
  · rw [if_pos hlimit, if_pos hlimit]
    rfl
  · rw [if_neg hlimit, if_neg hlimit]
    exact congrArg (fun v => Except.ok (Dimension.mk v d.shown.unit)) hsign

theorem search_literal (hunit : ∀ c ∈ d.unit, isUnitChar c = true) (places : Nat) :
    search (fun _ rest => startsFunction rest) none (signText d.value ++ (d.numeral places).text) =
      false := by
  rw [← Bool.not_eq_true, search_eq_true_iff]
  rintro ⟨rest, hsuffix, hstarts⟩
  have hbracket := hsuffix.subset (bracket_mem_of_startsFunction hstarts)
  exact absurd (isLiteralChar_of_mem hunit hbracket) (by decide)

theorem Dimension.text?_shown (d : Dimension) : d.shown.text? = d.text? := by
  simp only [text?, shown]
  split <;> rfl

/-- **A literal amounts to itself**, if its digits can be read. -/
theorem literal?_literal (hunit : ∀ c ∈ d.unit, isUnitChar c = true)
    (h : decimalPlaces? d.value.den = some places) :
    literal? (signText d.value ++ (d.numeral places).text) =
      if digitLimit < (d.numeral places).digitCount then
        .error (.tooManyDigits (d.numeral places).digitCount)
      else d.text? := by
  rw [literal?, search_literal hunit, if_neg Bool.false_ne_true, value_literal hunit h]
  by_cases hlimit : digitLimit < (d.numeral places).digitCount
  · rw [if_pos hlimit, if_pos hlimit]
    rfl
  · rw [if_neg hlimit, if_neg hlimit]
    exact d.text?_shown

end Literal

/-- **Every literal is the sign and the numeral of the value of its expression.** -/
theorem exists_of_literal? {t s : Text} (h : literal? t = .ok (some s)) :
    ∃ d places, value t = .ok d ∧ decimalPlaces? d.value.den = some places ∧
      s = signText d.value ++ (d.numeral places).text ∧ d.text? = .ok (some s) := by
  unfold literal? at h
  split at h
  · cases h
  split at h
  · next d hvalue =>
    cases hplaces : decimalPlaces? d.value.den with
    | none =>
      have hzero : d.value ≠ 0 := by
        intro hzero
        rw [hzero] at hplaces
        cases hplaces
      rw [Dimension.text?, if_neg hzero, numberText?_of_none hplaces] at h
      cases h
    | some places =>
      refine ⟨d, places, hvalue, hplaces, ?_, h⟩
      rw [Dimension.text?_eq hplaces] at h
      split at h
      · cases h
        rfl
      · cases h
  · split at h <;> cases h

theorem isLiteralChar_of_literal? {t s : Text} (h : literal? t = .ok (some s)) :
    ∀ c ∈ s, isLiteralChar c = true := by
  obtain ⟨d, places, hvalue, -, rfl, -⟩ := exists_of_literal? h
  exact fun c => isLiteralChar_of_mem (isUnitChar_of_value hvalue)

/-- A literal begins with a sign, a digit or a point. -/
theorem exists_cons_of_literal? {t s : Text} (h : literal? t = .ok (some s)) :
    ∃ c rest, s = c :: rest ∧ (c = '-' ∨ isNumeralChar c = true) := by
  obtain ⟨d, places, -, -, rfl, -⟩ := exists_of_literal? h
  unfold signText
  split
  · exact ⟨'-', _, rfl, .inl rfl⟩
  · obtain ⟨c, rest, htext, hc⟩ := head?_numeral d places
    exact ⟨c, rest, htext, .inr hc⟩

/-! ## Numbers that are written -/

/-- A shortest numeral of a plain number. -/
structure Numeral.Shortest (n : Numeral) (v : Rat) : Prop where
  wellFormed : n.WellFormed
  dimension : n.dimension = ⟨v, []⟩
  shortest : ∀ m : Numeral, m.WellFormed → m.dimension = ⟨v, []⟩ → n.text.length ≤ m.text.length

theorem shortest_decimalNumeral {v : Rat} {places : Nat} (h : decimalPlaces? v.den = some places) :
    (decimalNumeral places (scaled v places)).Shortest |v| where
  wellFormed := wellFormed_decimalNumeral _ _
  dimension := by rw [dimension_decimalNumeral, mkRat_scaled h]
  shortest m hm hvalue := by
    rw [text_decimalNumeral]
    refine length_decimalText_le hm ?_ (not_ten_dvd_scaled h)
    rw [hvalue, mkRat_scaled h]

theorem isWritable_iff {n : Nat} : isWritable n = true ↔ n < 10 ^ digitLimit := by
  rw [isWritable, decide_eq_true_iff]
  exact length_ofNat_le_iff (by decide)

/-- A number can be written if the numbers on both sides of the point can. -/
theorem canWrite_iff (places n : Nat) :
    canWrite places n = true ↔
      digitsValue (decimalNumeral places n).whole < 10 ^ digitLimit ∧
        digitsValue (decimalNumeral places n).fraction < 10 ^ digitLimit := by
  rw [canWrite, Bool.and_eq_true, isWritable_iff, isWritable_iff, digitsValue_whole_decimalNumeral,
    digitsValue_fraction_decimalNumeral]

/-- **Numbers are written exactly and as short as possible.** A number has no text exactly if a
prime other than 2 and 5 divides its denominator. The text of any other number is its sign and a
shortest numeral, unless the number on one side of the point is too long to be written. A literal
is read back as the value of its expression, and amounts to itself, unless it has more digits than
are read. -/
theorem numberText?_shortest (v : Rat) :
    (numberText? v = .ok none ↔ ∃ p, p.Prime ∧ p ∣ v.den ∧ p ≠ 2 ∧ p ≠ 5) ∧
    (numberText? v = .ok none ∨
      ∃ n : Numeral, n.Shortest |v| ∧
        numberText? v =
          (if digitsValue n.whole < 10 ^ digitLimit ∧ digitsValue n.fraction < 10 ^ digitLimit then
            .ok (some ((if v < 0 then ['-'] else []) ++ n.text))
          else .error .unwritable) ∧
        readNumber n.text =
          if digitLimit < n.digitCount then .error (.tooManyDigits n.digitCount)
          else .ok ⟨|v|, []⟩) ∧
    ∀ e s : Text, literal? e = .ok (some s) →
      ∃ d : Dimension, ∃ n : Numeral, value e = .ok d ∧ n.WellFormed ∧
        s = (if d.value < 0 then ['-'] else []) ++ n.text ∧
        n.dimension = ⟨|d.value|, if d.value = 0 then [] else d.unit⟩ ∧
        value s =
          (if digitLimit < n.digitCount then .error (.tooManyDigits n.digitCount)
          else .ok ⟨d.value, if d.value = 0 then [] else d.unit⟩) ∧
        literal? s =
          if digitLimit < n.digitCount then .error (.tooManyDigits n.digitCount)
          else .ok (some s) := by
  refine ⟨?_, ?_, ?_⟩
  · rw [← decimalPlaces?_eq_none_iff v.den_pos, numberText?_eq_ok_none_iff]
  · cases hplaces : decimalPlaces? v.den with
    | none => exact .inl (numberText?_of_none hplaces)
    | some places =>
      have hshortest := shortest_decimalNumeral hplaces
      refine .inr ⟨_, hshortest, ?_, ?_⟩
      · simp only [numberText?_of_some hplaces, canWrite_iff]
        rfl
      · rw [Numeral.readNumber_text hshortest.wellFormed, hshortest.dimension]
  · intro e s h
    obtain ⟨d, places, hvalue, hplaces, rfl, htext⟩ := exists_of_literal? h
    have hunit := isUnitChar_of_value hvalue
    refine ⟨d, d.numeral places, hvalue, Dimension.wellFormed_numeral hunit places, rfl,
      Dimension.dimension_numeral hplaces, ?_, ?_⟩
    · exact value_literal hunit hplaces
    · rw [literal?_literal hunit hplaces, htext]

/-- A whole number is written if it has few enough digits. -/
theorem numberText?_natCast (n : Nat) :
    numberText? (n : Rat) =
      if n < 10 ^ digitLimit then .ok (some (ofNat n)) else .error .unwritable := by
  have hplaces : decimalPlaces? (n : Rat).den = some 0 := rfl
  have hscaled : scaled (n : Rat) 0 = n := by simp [scaled]
  have hwrite : canWrite 0 n = true ↔ n < 10 ^ digitLimit := by
    simp [canWrite, isWritable_iff, Nat.mod_one]
  have hsign : signText n = [] := if_neg (not_lt.mpr (by exact_mod_cast Nat.zero_le n))
  simp [numberText?_of_some hplaces, hscaled, hwrite, hsign, text_decimalNumeral, decimalText]

/-- The least whole number with more digits than are written has a decimal form but no text. -/
theorem power_of_ten_unwritable :
    (¬ ∃ p, p.Prime ∧ p ∣ ((10 ^ digitLimit : Nat) : Rat).den ∧ p ≠ 2 ∧ p ≠ 5) ∧
      numberText? ((10 ^ digitLimit : Nat) : Rat) = .error .unwritable := by
  refine ⟨?_, ?_⟩
  · rintro ⟨p, hp, hdvd, -, -⟩
    exact hp.one_lt.ne' (Nat.dvd_one.mp hdvd)
  · rw [numberText?_natCast, if_neg (Nat.lt_irrefl _)]

end WebTrim.Calc
