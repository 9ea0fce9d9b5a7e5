import WebTrim.Proofs.Shader.Boundary

/-!
# Tokens before a number

A token that ends before a number does not depend on which number it is: where the scanner did not
take a digit, it takes neither another digit nor a point, and where it did not take a point, it does
not take one again.

* `Exchange` — two texts that may stand for each other behind a token.
* `takeWhile_exchange` — runs of characters; `Exchange.mantissaLength_append` up to
  `Exchange.hexLength_append`: the parts of a number.
* `Exchange.numberLength_append` — **a number that ends before the exchanged text ends there again**.
* `Exchange.tokenStep_append` — **so does every token**.
-/

set_option autoImplicit false

namespace WebTrim.Shader

open Text

variable {v w w' : Text}

/-! ## Exchanged texts -/

/-- A text that begins with a digit or with a point, and the text in its place. -/
inductive Exchange : Text → Text → Prop where
  | point (t t' : Text) : Exchange ('.' :: t) ('.' :: t')
  | digit {d c : Char} (hd : isAsciiDigit d = true) (hc : isAsciiDigit c = true ∨ c = '.')
    (t t' : Text) : Exchange (d :: t) (c :: t')

namespace Exchange

theorem ne_nil (h : Exchange w w') : w ≠ [] := by
  cases h <;> simp

/-- What holds of digits and of the point holds where either text begins. -/
theorem head_of {P : Char → Prop} (h : Exchange w w')
    (hdigit : ∀ d, isAsciiDigit d = true → P d) (hpoint : P '.') :
    (∀ d ∈ w.head?, P d) ∧ ∀ d ∈ w'.head?, P d := by
  cases h with
  | point t t' => exact ⟨by simpa using hpoint, by simpa using hpoint⟩
  | digit hd hc t t' =>
    refine ⟨by simpa using hdigit _ hd, ?_⟩
    rcases hc with hc | rfl
    · simpa using hdigit _ hc
    · simpa using hpoint

/-- Neither text begins with a given character that is no digit and no point. -/
theorem head_ne (h : Exchange w w') {c : Char} (hc : isAsciiDigit c = false) (hpoint : c ≠ '.') :
    w.head? ≠ some c ∧ w'.head? ≠ some c := by
  have hne := h.head_of (P := (· ≠ c)) (fun d hd heq => by simp [← heq, hd] at hc) hpoint.symm
  exact ⟨fun hhead => hne.1 c hhead rfl, fun hhead => hne.2 c hhead rfl⟩

theorem not_ident (h : Exchange w w') :
    (∀ d ∈ w.head?, isIdentStart d = false) ∧ ∀ d ∈ w'.head?, isIdentStart d = false := by
  refine h.head_of (fun d hd => ?_) (by decide)
  by_contra hident
  have := isAsciiDigit_of_isIdentStart (Bool.not_eq_false _ ▸ hident)
  rw [hd] at this
  cases this

/-- A reader of digits that does not go on with the text does not go on with the other either. -/
theorem stops {p : Char → Bool} (h : Exchange w w')
    (hdigit : ∀ d, isAsciiDigit d = true → p d = true) (hstop : ∀ d ∈ w.head?, p d = false) :
    ∀ d ∈ w'.head?, p d = false := by
  cases h with
  | point t t' => exact hstop
  | digit hd hc t t' => exact absurd (hdigit _ hd) (by simp [hstop _ rfl])

end Exchange

/-! ## The parts of a number -/

/-- A run of characters that ends before the exchanged text ends at the same place again. -/
theorem takeWhile_exchange {p : Char → Bool} (h : Exchange w w')
    (hdigit : ∀ d, isAsciiDigit d = true → p d = true)
    (hle : ((v ++ w).takeWhile p).length ≤ v.length) :
    (v ++ w').takeWhile p = (v ++ w).takeWhile p := by
  induction v with
  | nil =>
    have hempty : w.takeWhile p = [] := List.length_eq_zero_iff.mp (Nat.le_zero.mp hle)
    have hold : ∀ d ∈ w.head?, p d = false := by
      intro d hd
      obtain ⟨t, rfl⟩ := List.head?_eq_some_iff.mp hd
      by_contra htaken
      rw [List.takeWhile_cons, if_pos (Bool.not_eq_false _ ▸ htaken)] at hempty
      cases hempty
    rw [List.nil_append, List.nil_append, hempty]
    exact takeWhile_append_of_stop (v := []) (h.stops hdigit hold)
  | cons c v ih =>
    by_cases hc : p c = true
    · simp only [List.cons_append, List.takeWhile_cons, hc, if_true, List.length_cons,
        Nat.succ_le_succ_iff] at hle ⊢
      rw [ih hle]
    · simp only [List.cons_append, List.takeWhile_cons, hc, Bool.false_eq_true, if_false]

namespace Exchange

variable (h : Exchange w w')

include h

theorem takeWhile_digits (hle : ((v ++ w).takeWhile isDecimalDigit).length ≤ v.length) :
    (v ++ w').takeWhile isDecimalDigit = (v ++ w).takeWhile isDecimalDigit :=
  takeWhile_exchange h (fun _ => isDecimalDigit_of_isAsciiDigit) hle

theorem mantissaLength_append (hle : mantissaLength (v ++ w) ≤ v.length) :
    mantissaLength (v ++ w') = mantissaLength (v ++ w) := by
  set whole := ((v ++ w).takeWhile isDecimalDigit).length with hwhole
  have hwholeLe : whole ≤ v.length := by
    refine Nat.le_trans ?_ hle
    simp only [mantissaLength, ← hwhole]
    split <;> omega
  have hrun := h.takeWhile_digits hwholeLe
  cases hafter : v.drop whole with
  | nil =>
    -- the digits end where the exchanged text begins, so a point stands there and is taken
    have hlength : v.length = whole := by
      have := List.drop_eq_nil_iff.mp hafter
      omega
    have hdrop : (v ++ w).drop whole = w := List.drop_left' hlength
    have hpoint : w.head? = some '.' := by
      have hstop : ∀ d ∈ w.head?, isDecimalDigit d = false := fun d hd =>
        of_head?_drop_takeWhile (by rw [← hwhole, hdrop]; exact hd)
      cases h with
      | point t t' => rfl
      | digit hd hc t t' =>
        exact absurd (isDecimalDigit_of_isAsciiDigit hd) (by simp [hstop _ rfl])
    simp only [mantissaLength, ← hwhole, hdrop, hpoint, if_true] at hle
    omega
  | cons c more =>
    have hdrop : ∀ u : Text, (v ++ u).drop whole = c :: (more ++ u) := fun u => by
      rw [List.drop_append_of_le_length hwholeLe, hafter, List.cons_append]
    have hlength : v.length = whole + (more.length + 1) := by
      have := congrArg List.length hafter
      rw [List.length_drop, List.length_cons] at this
      omega
    simp only [mantissaLength, hrun, ← hwhole, hdrop, List.head?_cons, List.drop_succ_cons,
      List.drop_zero] at hle ⊢
    split
    · next hpoint =>
      rw [if_pos hpoint] at hle
      rw [h.takeWhile_digits (v := more) (by omega)]
    · rfl

theorem exponentLength_append (hle : exponentLength (v ++ w) ≤ v.length) :
    exponentLength (v ++ w') = exponentLength (v ++ w) := by
  cases v with
  | nil =>
    have hlower := h.head_ne (c := 'e') (by decide) (by decide)
    have hupper := h.head_ne (c := 'E') (by decide) (by decide)
    have hnone : ∀ u : Text, u.head? ≠ some 'e' → u.head? ≠ some 'E' → exponentLength u = 0 :=
      fun u he hE => exponentLength_eq_zero fun c hc =>
        ⟨fun heq => he (heq ▸ hc), fun heq => hE (heq ▸ hc)⟩
    rw [List.nil_append, List.nil_append, hnone w hlower.1 hupper.1, hnone w' hlower.2 hupper.2]
  | cons c rest =>
    have hplus := h.head_ne (c := '+') (by decide) (by decide)
    have hminus := h.head_ne (c := '-') (by decide) (by decide)
    set sign := exponentSign rest with hsign
    have hsignLe : sign ≤ rest.length := exponentSign_le rest
    have hcons : ∀ u : Text, u.head? ≠ some '+' → u.head? ≠ some '-' →
        exponentLength (c :: (rest ++ u)) =
          if c = 'e' ∨ c = 'E' then
            if ((rest.drop sign ++ u).takeWhile isDecimalDigit).length = 0 then 0
            else 1 + sign + ((rest.drop sign ++ u).takeWhile isDecimalDigit).length
          else 0 := by
      intro u hp hm
      rw [exponentLength_cons, exponentSign_append hp hm, ← hsign,
        List.drop_append_of_le_length hsignLe]
    rw [List.cons_append, hcons w hplus.1 hminus.1] at hle
    rw [List.cons_append, List.cons_append, hcons w hplus.1 hminus.1, hcons w' hplus.2 hminus.2]
    split
    · next he =>
      rw [if_pos he, List.length_cons] at hle
      have hrun : ((rest.drop sign ++ w).takeWhile isDecimalDigit).length ≤
          (rest.drop sign).length := by
        rw [List.length_drop]
        split at hle <;> omega
      rw [h.takeWhile_digits hrun]
    · rfl

theorem suffixLength_append {suffixes : List String}
    (hsuffixes : (suffixes.all fun s => s.toList.all isIdentStart) = true) :
    suffixLength suffixes (v ++ w') = suffixLength suffixes (v ++ w) := by
  rw [suffixLength_append_of_stop hsuffixes h.not_ident.1,
    suffixLength_append_of_stop hsuffixes h.not_ident.2]

theorem hexLength_append (hne : v ≠ []) (hle : hexLength (v ++ w) ≤ v.length) :
    hexLength (v ++ w') = hexLength (v ++ w) := by
  rcases v with _ | ⟨c, _ | ⟨x, rest⟩⟩
  · exact absurd rfl hne
  · have hlower := h.head_ne (c := 'x') (by decide) (by decide)
    have hupper := h.head_ne (c := 'X') (by decide) (by decide)
    have hnone : ∀ u : Text, u.head? ≠ some 'x' → u.head? ≠ some 'X' → hexLength ([c] ++ u) = 0 := by
      intro u hx hX
      refine hexLength_eq_zero fun x rest heq => ?_
      have hhead : u.head? = some x := congrArg List.head? (List.cons.inj heq).2
      exact ⟨fun hc => hx (hc ▸ hhead), fun hc => hX (hc ▸ hhead)⟩
    rw [hnone w hlower.1 hupper.1, hnone w' hlower.2 hupper.2]
  · by_cases hopens : c = '0' ∧ (x = 'x' ∨ x = 'X')
    · obtain ⟨rfl, hx⟩ := hopens
      set digits := ((rest ++ w).takeWhile isHexDigit).length with hdigits
      have hrunLe : digits ≤ rest.length := by
        by_cases hsome : digits = 0
        · omega
        · rw [List.cons_append, List.cons_append, hexLength_cons hx hsome] at hle
          simp only [List.length_cons, ← hdigits] at hle
          omega
      have hrun : (rest ++ w').takeWhile isHexDigit = (rest ++ w).takeWhile isHexDigit :=
        takeWhile_exchange h (fun d hd => by simp [isHexDigit, hd]) hrunLe
      have hsuffix : ∀ u, suffixLength ["u", "U"] (u ++ w') = suffixLength ["u", "U"] (u ++ w) :=
        fun u => h.suffixLength_append (by decide)
      simp only [List.cons_append, hexLength, hrun, ← hdigits,
        List.drop_append_of_le_length hrunLe, hsuffix]
    · have hzero : ∀ u : Text, hexLength (c :: x :: rest ++ u) = 0 := fun u => by
        by_contra hne
        obtain ⟨x', rest', heq, hx, -⟩ := exists_of_hexLength hne
        cases heq
        exact hopens ⟨rfl, hx⟩
      rw [hzero, hzero]

/-- **A number that ends before the exchanged text ends there again.** -/
theorem numberLength_append (hne : v ≠ []) (hle : numberLength (v ++ w) ≤ v.length) :
    numberLength (v ++ w') = numberLength (v ++ w) := by
  by_cases hhex : hexLength (v ++ w) = 0
  · have hhex' : hexLength (v ++ w') = 0 := by
      rw [h.hexLength_append hne (by omega), hhex]
    rw [numberLength_decimal hhex] at hle
    rw [numberLength_decimal hhex, numberLength_decimal hhex']
    set m := mantissaLength (v ++ w) with hm
    have hmantissaLe : m ≤ v.length := by omega
    have hlength : (v.drop m).length = v.length - m := List.length_drop
    rw [h.mantissaLength_append hmantissaLe, ← hm]
    rw [List.drop_append_of_le_length hmantissaLe] at hle
    rw [List.drop_append_of_le_length hmantissaLe, List.drop_append_of_le_length hmantissaLe]
    set e := exponentLength (v.drop m ++ w) with he
    have hexponentLe : e ≤ (v.drop m).length := by omega
    rw [h.exponentLength_append hexponentLe, ← he, List.drop_append_of_le_length hexponentLe,
      List.drop_append_of_le_length hexponentLe, h.suffixLength_append (by decide)]
  · have hlength : numberLength (v ++ w) = hexLength (v ++ w) := by
      simp only [numberLength, ne_eq, hhex, not_false_iff, if_true]
    have hsame := h.hexLength_append hne (hlength ▸ hle)
    simp only [numberLength, hsame, ne_eq, hhex, not_false_iff, if_true]

/-! ## Every token -/

theorem not_blank : (∀ d ∈ w.head?, isBlank d = false) ∧ ∀ d ∈ w'.head?, isBlank d = false :=
  h.head_of
    (fun d hd => (bare_of_opensNumber (show opensNumber d [] = true by simp [opensNumber, hd]) []).blank)
    (by decide)

/-- A character that is neither a digit nor a point stands before the exchanged text. -/
theorem exists_of_cons_eq {d : Char} {more : Text} (hd : isAsciiDigit d = false) (hpoint : d ≠ '.')
    (heq : v ++ w = d :: more) : ∃ v₁, v = d :: v₁ ∧ more = v₁ ++ w := by
  cases v with
  | nil => exact absurd (congrArg List.head? heq) (h.head_ne hd hpoint).1
  | cons c v₁ =>
    cases heq
    exact ⟨v₁, rfl, rfl⟩

theorem lengthThrough_append {needle : Text} (hle : lengthThrough needle (v ++ w) ≤ v.length) :
    lengthThrough needle (v ++ w') = lengthThrough needle (v ++ w) := by
  set n := lengthThrough needle (v ++ w) with hn
  have hsame : lengthThrough needle ((v ++ w).take n ++ (v.drop n ++ w')) = n := by
    refine lengthThrough_take_append fun hend => ?_
    rw [← hn, List.drop_append_of_le_length hle, List.append_eq_nil_iff] at hend
    exact absurd hend.2 h.ne_nil
  rwa [List.take_append_of_le_length hle, ← List.append_assoc, List.take_append_drop] at hsame

/-- Where neither a blank, a comment nor an identifier begins, none begins with the other text. -/
theorem bare_append {c : Char} (hbare : Bare c (v ++ w)) : Bare c (v ++ w') := by
  refine ⟨hbare.blank, hbare.identifier, fun hc => ?_⟩
  cases v with
  | nil =>
    exact ⟨(h.head_ne (c := '/') (by decide) (by decide)).2,
      (h.head_ne (c := '*') (by decide) (by decide)).2⟩
  | cons d v => exact hbare.comment hc

/-- A point with a digit behind it is no token of its own, so a number that ends before the
exchanged text begins with more than a point. -/
theorem opensNumber_append {c : Char} (hle : opensNumber c (v ++ w) = true →
      numberLength (c :: (v ++ w)) ≤ v.length + 1) :
    opensNumber c (v ++ w') = opensNumber c (v ++ w) := by
  cases v with
  | cons d v => rfl
  | nil =>
    rw [List.nil_append, List.nil_append]
    cases hopens : opensNumber c w with
    | true =>
      rcases opensNumber_cases hopens with hdigit | ⟨rfl, d, more, rfl, hdigit⟩
      · simp [opensNumber, hdigit]
      · exact absurd (hle hopens) (Nat.not_le.mpr (two_le_numberLength hdigit more))
    | false =>
      rw [opensNumber, Bool.or_eq_false_iff, Bool.and_eq_false_iff] at hopens ⊢
      refine ⟨hopens.1, hopens.2.imp_right fun hhead => ?_⟩
      cases h with
      | point t t' => rfl
      | digit hd hc t t' => simp [hd] at hhead

/-- **A token that ends before the exchanged text ends there again.** -/
theorem tokenStep_append {c : Char} (hle : (tokenStep () c (v ++ w)).extra ≤ v.length) :
    tokenStep () c (v ++ w') = tokenStep () c (v ++ w) := by
  rcases tokenStep_cases c (v ++ w) with
    hblank | ⟨rfl, more, hmore⟩ | ⟨rfl, more, hmore⟩ | hident | ⟨hbare, hopens⟩ | ⟨hbare, hopens⟩
  · rw [tokenStep_blank hblank, tokenStep_blank hblank, takeWhile_append_of_stop h.not_blank.1,
      takeWhile_append_of_stop h.not_blank.2]
  · obtain ⟨v₁, rfl, rfl⟩ := h.exists_of_cons_eq (by decide) (by decide) hmore
    rw [List.cons_append, tokenStep_line, List.length_cons, Nat.succ_le_succ_iff] at hle
    have hdigit : ∀ d, isAsciiDigit d = true → decide (d ≠ '\n') = true := by
      intro d hd
      rw [decide_eq_true_iff]
      rintro rfl
      exact absurd hd (by decide)
    rw [List.cons_append, List.cons_append, tokenStep_line, tokenStep_line,
      takeWhile_exchange h hdigit hle]
  · obtain ⟨v₁, rfl, rfl⟩ := h.exists_of_cons_eq (by decide) (by decide) hmore
    rw [List.cons_append, tokenStep_block, List.length_cons, Nat.succ_le_succ_iff] at hle
    rw [List.cons_append, List.cons_append, tokenStep_block, tokenStep_block,
      h.lengthThrough_append hle]
  · rw [tokenStep_identifier hident] at hle
    rw [tokenStep_identifier hident, tokenStep_identifier hident,
      takeWhile_exchange h (fun d hd => by simp [isIdentChar, isAsciiAlnum, hd]) hle]
  · rw [tokenStep_number hbare hopens] at hle
    have hlength : numberLength (c :: v ++ w) ≤ (c :: v).length := by
      rw [List.cons_append, List.length_cons]
      exact Nat.le_add_of_sub_le hle
    have hsame := h.numberLength_append (by simp) hlength
    have hopens' := h.opensNumber_append fun _ => hlength
    rw [tokenStep_number hbare hopens, tokenStep_number (h.bare_append hbare) (hopens'.trans hopens)]
    rw [List.cons_append, List.cons_append] at hsame
    rw [hsame]
  · have hopens' : opensNumber c (v ++ w') = opensNumber c (v ++ w) :=
      h.opensNumber_append fun hyes => absurd hyes (by simp [hopens])
    rw [tokenStep_operator hbare hopens,
      tokenStep_operator (h.bare_append hbare) (hopens'.trans hopens)]

end Exchange

end WebTrim.Shader
