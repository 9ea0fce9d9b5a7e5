import Mathlib.Data.List.Chain
import WebTrim.Proofs.Stylesheet.Ident
import WebTrim.Proofs.Text.Scan
import WebTrim.Shader.Token

/-!
# Tokens of a shader with other identifiers

When identifiers are replaced by identifiers, the scanner cuts the new text at the same places. Only a
number can go wrong: it looks ahead for an exponent, a suffix or a hexadecimal digit, and so it may
take letters of an identifier that follows it directly.

* `numberLength_take_append` — how far a number goes depends on its own text, if no identifier follows.
* `tokenStep_cases` — all that the scanner can read.
* `tokens_renamed` — **the tokens of the new text are the old ones with the new identifiers**.
-/

set_option autoImplicit false

namespace WebTrim.Shader

open Text

/-! ## Characters -/

section Characters

variable {c : Char}

theorem toNat_of_isIdentStart (h : isIdentStart c = true) : 65 ≤ c.toNat ∧ c.toNat ≤ 122 := by
  rw [isIdentStart, Bool.or_eq_true] at h
  rcases h with h | h
  · exact Stylesheet.toNat_of_isAsciiLetter h
  · rw [eq_of_beq h]
    decide

theorem isBlank_of_isIdentStart (h : isIdentStart c = true) : isBlank c = false := by
  have hrange := toNat_of_isIdentStart h
  simp only [isBlank, Bool.or_eq_false_iff, Bool.and_eq_false_iff, decide_eq_false_iff_not,
    beq_eq_false_iff_ne]
  omega

theorem isAsciiDigit_of_isIdentStart (h : isIdentStart c = true) : isAsciiDigit c = false := by
  by_contra hdigit
  have hrange := toNat_of_isIdentStart h
  have hrange' := Stylesheet.toNat_of_isAsciiDigit (Bool.not_eq_false _ ▸ hdigit)
  omega

theorem isIdentChar_of_isIdentStart (h : isIdentStart c = true) : isIdentChar c = true := by
  rw [isIdentStart, Bool.or_eq_true] at h
  rw [isIdentChar, isAsciiAlnum, Bool.or_eq_true, Bool.or_eq_true]
  exact h.imp_left .inl

theorem isDecimalDigit_of_isAsciiDigit (h : isAsciiDigit c = true) : isDecimalDigit c = true := by
  have hrange := Stylesheet.toNat_of_isAsciiDigit h
  have hnarrow : c.toNat < 0x80 := by omega
  simp [isDecimalDigit, decimalDigit?, hnarrow, h]

/-- A hexadecimal digit is a digit or a letter. -/
theorem isAsciiDigit_or_isIdentStart (h : isHexDigit c = true) :
    isAsciiDigit c = true ∨ isIdentStart c = true := by
  simp only [isHexDigit, isIdentStart, isAsciiLetter, Bool.or_eq_true, Bool.and_eq_true,
    decide_eq_true_eq] at h ⊢
  rcases h with (hdigit | hlower) | hupper
  · exact .inl hdigit
  · exact .inr (.inl (.inl ⟨hlower.1, Char.le_trans hlower.2 (by decide)⟩))
  · exact .inr (.inl (.inr ⟨hupper.1, Char.le_trans hupper.2 (by decide)⟩))

end Characters

/-! ## Runs -/

/-- A run of characters goes to the same length if no character that it takes follows. -/
theorem takeWhile_take_append_of_stop {p : Char → Bool} {t other : Text}
    (h : ∀ c ∈ other.head?, p c = false) :
    (t.take (t.takeWhile p).length ++ other).takeWhile p = t.takeWhile p := by
  have hother : other.takeWhile p = [] := by
    cases other with
    | nil => rfl
    | cons c other => rw [List.takeWhile_cons, h c rfl]; rfl
  rw [← List.prefix_iff_eq_take.mp (List.takeWhile_prefix p),
    List.takeWhile_append_of_pos fun c hc => List.mem_takeWhile_imp hc, hother, List.append_nil]

/-- A run of characters stops at a character that it does not take. -/
theorem of_head?_drop_takeWhile {p : Char → Bool} {t : Text} {c : Char}
    (h : (t.drop (t.takeWhile p).length).head? = some c) : p c = false := by
  induction t with
  | nil => cases h
  | cons d t ih =>
    by_cases hd : p d = true
    · rw [List.takeWhile_cons, if_pos hd] at h
      exact ih h
    · rw [List.takeWhile_cons, if_neg hd] at h
      cases h
      exact Bool.not_eq_true _ ▸ hd

/-! ## How far a number goes -/

section Number

variable {t other : Text}

/-- A character that no number goes on with. -/
structure EndsNumber (c : Char) : Prop where
  digit : isDecimalDigit c = false
  identifier : isIdentStart c = false
  point : c ≠ '.'

theorem EndsNumber.isHexDigit {c : Char} (h : EndsNumber c) : isHexDigit c = false := by
  by_contra hhex
  rw [Bool.not_eq_false] at hhex
  rcases isAsciiDigit_or_isIdentStart hhex with hdigit | hstart
  · exact absurd (isDecimalDigit_of_isAsciiDigit hdigit) (by simp [h.digit])
  · exact absurd hstart (by simp [h.identifier])

/-- The text begins with the next character of another one, or with a character that ends a number. -/
def Follows (next other : Text) : Prop :=
  ∀ c ∈ other.head?, next.head? = some c ∨ EndsNumber c

theorem Follows.take_append {n : Nat} (h : Follows (t.drop n) other) :
    Follows t (t.take n ++ other) := by
  cases n with
  | zero => exact h
  | succ n =>
    cases t with
    | nil => simpa using h
    | cons c t => exact fun d hd => .inl hd

/-- Behind a run of digits stands no digit. -/
theorem Follows.not_digit (h : Follows (t.drop (t.takeWhile isDecimalDigit).length) other) :
    ∀ c ∈ other.head?, isDecimalDigit c = false := by
  intro c hc
  rcases h c hc with hnext | hends
  · exact of_head?_drop_takeWhile hnext
  · exact hends.digit

theorem mantissaLength_le (t : Text) : mantissaLength t ≤ t.length := by
  have hwhole : (t.takeWhile isDecimalDigit).length ≤ t.length :=
    (List.takeWhile_prefix _).length_le
  simp only [mantissaLength]
  split
  · rename_i hpoint
    obtain ⟨more, hmore⟩ := List.head?_eq_some_iff.mp hpoint
    have hlength := congrArg List.length hmore
    have hdigits : (more.takeWhile isDecimalDigit).length ≤ more.length :=
      (List.takeWhile_prefix _).length_le
    rw [List.length_drop, List.length_cons] at hlength
    rw [hmore, List.drop_succ_cons, List.drop_zero]
    omega
  · exact hwhole

/-- The digits and the point end at the same place whatever ends them. -/
theorem mantissaLength_take_append (h : Follows (t.drop (mantissaLength t)) other) :
    mantissaLength (t.take (mantissaLength t) ++ other) = mantissaLength t := by
  set whole := (t.takeWhile isDecimalDigit).length with hwhole
  have hle : whole ≤ t.length := (List.takeWhile_prefix _).length_le
  by_cases hpoint : (t.drop whole).head? = some '.'
  · obtain ⟨more, hmore⟩ := List.head?_eq_some_iff.mp hpoint
    set digits := (more.takeWhile isDecimalDigit).length with hdigits
    have hlength : mantissaLength t = whole + (digits + 1) := by
      simp only [mantissaLength, ← hwhole, hmore, List.head?_cons, if_true, List.drop_succ_cons,
        List.drop_zero, ← hdigits]
      omega
    have htext : t.take (whole + (digits + 1)) ++ other =
        t.take whole ++ '.' :: (more.take digits ++ other) := by
      rw [List.take_add, hmore]
      simp
    rw [hlength, ← List.drop_drop, hmore, List.drop_succ_cons] at h
    rw [hlength, htext]
    have hrun : (t.take whole ++ '.' :: (more.take digits ++ other)).takeWhile isDecimalDigit =
        t.takeWhile isDecimalDigit := takeWhile_take_append (by rw [← hwhole, hpoint]; rfl)
    have hmoreRun : (more.take digits ++ other).takeWhile isDecimalDigit =
        more.takeWhile isDecimalDigit := takeWhile_take_append_of_stop h.not_digit
    simp only [mantissaLength, hrun, ← hwhole, List.drop_left' (List.length_take_of_le hle),
      List.head?_cons, if_true, List.drop_succ_cons, List.drop_zero, hmoreRun, ← hdigits]
    omega
  · have hlength : mantissaLength t = whole := by
      simp only [mantissaLength, ← hwhole, if_neg hpoint]
    rw [hlength] at h ⊢
    have hrun : (t.take whole ++ other).takeWhile isDecimalDigit = t.takeWhile isDecimalDigit :=
      takeWhile_take_append_of_stop h.not_digit
    have hother : other.head? ≠ some '.' := fun hc =>
      (h '.' hc).elim hpoint fun hends => hends.point rfl
    simp only [mantissaLength, hrun, ← hwhole, List.drop_left' (List.length_take_of_le hle),
      if_neg hother]

/-- Length of the sign at the beginning of an exponent. -/
def exponentSign (rest : Text) : Nat :=
  if rest.head? = some '+' ∨ rest.head? = some '-' then 1 else 0

theorem exponentLength_cons (c : Char) (rest : Text) :
    exponentLength (c :: rest) =
      if c = 'e' ∨ c = 'E' then
        if ((rest.drop (exponentSign rest)).takeWhile isDecimalDigit).length = 0 then 0
        else 1 + exponentSign rest +
          ((rest.drop (exponentSign rest)).takeWhile isDecimalDigit).length
      else 0 :=
  rfl

theorem exponentLength_eq_zero (h : ∀ c ∈ t.head?, c ≠ 'e' ∧ c ≠ 'E') : exponentLength t = 0 := by
  cases t with
  | nil => rfl
  | cons c t =>
    obtain ⟨hlower, hupper⟩ := h c rfl
    rw [exponentLength_cons, if_neg (by simp [hlower, hupper])]

theorem exponentLength_le (t : Text) : exponentLength t ≤ t.length := by
  cases t with
  | nil => exact Nat.le_refl _
  | cons c rest =>
    have hdigits : ((rest.drop (exponentSign rest)).takeWhile isDecimalDigit).length ≤
        rest.length - exponentSign rest :=
      Nat.le_trans (List.takeWhile_prefix _).length_le (Nat.le_of_eq List.length_drop)
    rw [exponentLength_cons]
    split
    · split
      · exact Nat.zero_le _
      · rw [List.length_cons]
        omega
    · exact Nat.zero_le _

/-- An exponent ends at the same place whatever ends it, if no other begins there. -/
theorem exponentLength_take_append (h : Follows (t.drop (exponentLength t)) other)
    (hnone : ∀ c ∈ other.head?, c ≠ 'e' ∧ c ≠ 'E') :
    exponentLength (t.take (exponentLength t) ++ other) = exponentLength t := by
  by_cases hzero : exponentLength t = 0
  · rw [hzero]
    exact exponentLength_eq_zero hnone
  cases t with
  | nil => exact absurd rfl hzero
  | cons c rest =>
    set sign := exponentSign rest with hsign
    set digits := ((rest.drop sign).takeWhile isDecimalDigit).length with hdigits
    have hc : c = 'e' ∨ c = 'E' := by
      by_contra hc
      rw [exponentLength_cons, if_neg hc] at hzero
      exact hzero rfl
    have hsome : digits ≠ 0 := by
      intro hnil
      rw [exponentLength_cons, if_pos hc, ← hsign, ← hdigits, if_pos hnil] at hzero
      exact hzero rfl
    have hlength : exponentLength (c :: rest) = sign + digits + 1 := by
      rw [exponentLength_cons, if_pos hc, ← hsign, ← hdigits, if_neg hsome]
      omega
    rw [hlength, List.drop_succ_cons, ← List.drop_drop] at h
    have htext : (c :: rest).take (sign + digits + 1) ++ other =
        c :: (rest.take sign ++ ((rest.drop sign).take digits ++ other)) := by
      rw [List.take_succ_cons, List.take_add, List.cons_append, List.append_assoc]
    -- there are digits, so what follows them is not taken for the sign
    have hfirst : ((rest.drop sign).take digits ++ other).head? = (rest.drop sign).head? := by
      obtain ⟨n, hn⟩ := Nat.exists_eq_succ_of_ne_zero hsome
      cases hdrop : rest.drop sign with
      | nil =>
        rw [hdigits, hdrop] at hsome
        exact absurd rfl hsome
      | cons d more =>
        rw [hn]
        rfl
    have hsign' : exponentSign (rest.take sign ++ ((rest.drop sign).take digits ++ other)) = sign := by
      rw [exponentSign, head?_take_append hfirst]
      exact hsign.symm
    have hle : sign ≤ rest.length := by
      by_contra hlong
      rw [hdigits, List.drop_eq_nil_of_le (by omega)] at hsome
      exact hsome rfl
    have hrun : ((rest.drop sign).take digits ++ other).takeWhile isDecimalDigit =
        (rest.drop sign).takeWhile isDecimalDigit := takeWhile_take_append_of_stop h.not_digit
    rw [hlength, htext, exponentLength_cons, if_pos hc, hsign',
      List.drop_left' (List.length_take_of_le hle), hrun, ← hdigits, if_neg hsome]
    omega

/-- The suffixes of a number begin with letters, no two with the same. -/
def IsSuffixes (suffixes : List String) : Prop :=
  (∀ s ∈ suffixes, s.toList.head?.any isIdentStart = true) ∧
    ∀ s ∈ suffixes, ∀ s' ∈ suffixes, s.toList.head? = s'.toList.head? → s = s'

theorem isSuffixes_hex : IsSuffixes ["u", "U"] := by
  unfold IsSuffixes
  decide

theorem isSuffixes_decimal : IsSuffixes ["lf", "LF", "f", "F", "u", "U"] := by
  unfold IsSuffixes
  decide

section Suffix

variable {suffixes : List String}

/-- A suffix at the beginning of a text, or none. -/
theorem suffixLength_cases (suffixes : List String) (t : Text) :
    (∃ s ∈ suffixes, ∃ rest, t = s.toList ++ rest ∧ suffixLength suffixes t = s.length) ∨
      suffixLength suffixes t = 0 := by
  unfold suffixLength
  cases hfind : suffixes.find? fun s => s.toList.isPrefixOf t with
  | none => exact .inr rfl
  | some s =>
    have hbegins : s.toList.isPrefixOf t = true := by simpa using List.find?_some hfind
    obtain ⟨rest, hrest⟩ := List.isPrefixOf_iff_prefix.mp hbegins
    exact .inl ⟨s, List.mem_of_find?_eq_some hfind, rest, hrest.symm, rfl⟩

/-- A suffix is read whatever follows it. -/
theorem suffixLength_append (hsuffixes : IsSuffixes suffixes) {s : String} (hs : s ∈ suffixes)
    (other : Text) : suffixLength suffixes (s.toList ++ other) = s.length := by
  unfold suffixLength
  cases hfind : suffixes.find? fun s' => s'.toList.isPrefixOf (s.toList ++ other) with
  | none =>
    have := List.find?_eq_none.mp hfind s hs
    simp at this
  | some s' =>
    have hs' := List.mem_of_find?_eq_some hfind
    have hbegins : s'.toList.isPrefixOf (s.toList ++ other) = true := by
      simpa using List.find?_some hfind
    obtain ⟨rest, hrest⟩ := List.isPrefixOf_iff_prefix.mp hbegins
    -- both begin with a letter, which is the first of the text
    have hhead : s'.toList.head? = s.toList.head? := by
      have hsome := hsuffixes.1 s hs
      have hsome' := hsuffixes.1 s' hs'
      cases hl : s.toList with
      | nil => simp [hl] at hsome
      | cons c l =>
        cases hl' : s'.toList with
        | nil => simp [hl'] at hsome'
        | cons c' l' =>
          rw [hl, hl'] at hrest
          exact congrArg some (List.cons.inj hrest).1
    rw [hsuffixes.2 s' hs' s hs hhead]
    rfl

theorem suffixLength_eq_zero (hsuffixes : IsSuffixes suffixes) {t : Text}
    (h : ∀ c ∈ t.head?, ∀ s ∈ suffixes, s.toList.head? ≠ some c) : suffixLength suffixes t = 0 := by
  rcases suffixLength_cases suffixes t with ⟨s, hs, rest, rfl, -⟩ | hzero
  · have hsome := hsuffixes.1 s hs
    cases hl : s.toList with
    | nil => simp [hl] at hsome
    | cons c l =>
      rw [hl] at h
      exact absurd (congrArg List.head? hl) (h c rfl s hs)
  · exact hzero

/-- A suffix ends at the same place if no identifier follows. -/
theorem suffixLength_take_append (hsuffixes : IsSuffixes suffixes) {t other : Text}
    (h : ∀ c ∈ other.head?, isIdentStart c = false) :
    suffixLength suffixes (t.take (suffixLength suffixes t) ++ other) = suffixLength suffixes t := by
  rcases suffixLength_cases suffixes t with ⟨s, hs, rest, rfl, hlength⟩ | hzero
  · rw [hlength, List.take_left' (String.length_toList), suffixLength_append hsuffixes hs]
  · rw [hzero, List.take_zero, List.nil_append]
    refine suffixLength_eq_zero hsuffixes fun c hc s hs hhead => ?_
    have hsome := hsuffixes.1 s hs
    rw [hhead, Option.any_some, h c hc] at hsome
    cases hsome

end Suffix

theorem exists_of_hexLength (h : hexLength t ≠ 0) :
    ∃ x rest, t = '0' :: x :: rest ∧ (x = 'x' ∨ x = 'X') ∧
      (rest.takeWhile isHexDigit).length ≠ 0 := by
  unfold hexLength at h
  split at h
  · next x rest =>
    by_cases hopens : (x = 'x' ∨ x = 'X') ∧ (rest.takeWhile isHexDigit).length ≠ 0
    · exact ⟨x, rest, rfl, hopens.1, hopens.2⟩
    · rw [if_neg hopens] at h
      exact absurd rfl h
  · exact absurd rfl h

theorem hexLength_cons {x : Char} {rest : Text} (hx : x = 'x' ∨ x = 'X')
    (hdigits : (rest.takeWhile isHexDigit).length ≠ 0) :
    hexLength ('0' :: x :: rest) = (rest.takeWhile isHexDigit).length +
      suffixLength ["u", "U"] (rest.drop (rest.takeWhile isHexDigit).length) + 1 + 1 := by
  simp only [hexLength, hx, hdigits, ne_eq, not_false_iff, and_self, if_true]
  omega

/-- A hexadecimal number ends at the same place whatever ends it, if no identifier follows. -/
theorem hexLength_take_append (hne : hexLength t ≠ 0) (h : Follows (t.drop (hexLength t)) other)
    (hident : ∀ c ∈ other.head?, isIdentStart c = false) :
    hexLength (t.take (hexLength t) ++ other) = hexLength t := by
  obtain ⟨x, rest, rfl, hx, hsome⟩ := exists_of_hexLength hne
  set digits := (rest.takeWhile isHexDigit).length with hdigits
  set more := suffixLength ["u", "U"] (rest.drop digits) with hmore
  have hlength := hexLength_cons hx hsome
  rw [← hdigits, ← hmore] at hlength
  rw [hlength, List.drop_succ_cons, List.drop_succ_cons, ← List.drop_drop] at h
  have hle : digits ≤ rest.length := (List.takeWhile_prefix _).length_le
  have htext : ('0' :: x :: rest).take (digits + more + 1 + 1) ++ other =
      '0' :: x :: (rest.take digits ++ ((rest.drop digits).take more ++ other)) := by
    rw [List.take_succ_cons, List.take_succ_cons, List.take_add]
    simp
  have hstop : ∀ c ∈ ((rest.drop digits).take more ++ other).head?, isHexDigit c = false := by
    intro c hc
    rcases h.take_append c hc with hnext | hends
    · exact of_head?_drop_takeWhile hnext
    · exact hends.isHexDigit
  have hrun : (rest.take digits ++ ((rest.drop digits).take more ++ other)).takeWhile isHexDigit =
      rest.takeWhile isHexDigit := takeWhile_take_append_of_stop hstop
  rw [hlength, htext, hexLength_cons hx (by rw [hrun]; exact hsome), hrun, ← hdigits,
    List.drop_left' (List.length_take_of_le hle), suffixLength_take_append isSuffixes_hex hident]

/-- The parts of a number that is not hexadecimal. -/
theorem numberLength_decimal (h : hexLength t = 0) :
    numberLength t = mantissaLength t + (exponentLength (t.drop (mantissaLength t)) +
      suffixLength ["lf", "LF", "f", "F", "u", "U"]
        ((t.drop (mantissaLength t)).drop (exponentLength (t.drop (mantissaLength t))))) := by
  simp only [numberLength, h, ne_eq, not_true, if_false, List.drop_drop]
  omega

/-- A zero before an `x` without hexadecimal digits is a number of its own. -/
theorem numberLength_zero {x : Char} {rest : Text} (hx : x = 'x' ∨ x = 'X')
    (h : hexLength ('0' :: x :: rest) = 0) : numberLength ('0' :: x :: rest) = 1 := by
  have hdigit : isDecimalDigit x = false ∧ x ≠ '.' ∧ x ≠ 'e' ∧ x ≠ 'E' ∧
      ∀ s ∈ ["lf", "LF", "f", "F", "u", "U"], s.toList.head? ≠ some x := by
    rcases hx with rfl | rfl <;> decide
  have hzero : isDecimalDigit '0' = true := by decide
  have hmantissa : mantissaLength ('0' :: x :: rest) = 1 := by
    simp [mantissaLength, hzero, hdigit.1, hdigit.2.1]
  have hexponent : exponentLength (x :: rest) = 0 := by
    apply exponentLength_eq_zero
    rintro c ⟨⟩
    exact ⟨hdigit.2.2.1, hdigit.2.2.2.1⟩
  have hsuffix : suffixLength ["lf", "LF", "f", "F", "u", "U"] (x :: rest) = 0 := by
    apply suffixLength_eq_zero isSuffixes_decimal
    rintro c ⟨⟩
    exact hdigit.2.2.2.2
  rw [numberLength_decimal h, hmantissa, List.drop_succ_cons, List.drop_zero, hexponent,
    List.drop_zero, hsuffix]

/-- What follows a number does not make it hexadecimal. -/
theorem hexLength_take_append_eq_zero (hpos : 0 < mantissaLength t) (hhex : hexLength t = 0)
    (hident : ∀ c ∈ other.head?, isIdentStart c = false) :
    hexLength (t.take (numberLength t) ++ other) = 0 := by
  by_contra hne
  obtain ⟨x, rest, htext, hx, -⟩ := exists_of_hexLength hne
  obtain ⟨n, hn⟩ : ∃ n, numberLength t = n + 1 := by
    refine ⟨numberLength t - 1, ?_⟩
    rw [numberLength_decimal hhex]
    omega
  cases t with
  | nil => exact absurd hpos (by decide)
  | cons c t =>
    rw [hn, List.take_succ_cons, List.cons_append, List.cons.injEq] at htext
    obtain ⟨rfl, htail⟩ := htext
    cases htake : t.take n with
    | nil =>
      rw [htake, List.nil_append] at htail
      have := hident x (by rw [htail]; rfl)
      rcases hx with rfl | rfl <;> exact absurd this (by decide)
    | cons d more =>
      -- the `x` was there before, and the number ended before it
      rw [htake, List.cons_append, List.cons.injEq] at htail
      obtain ⟨rfl, -⟩ := htail
      have hbegins : d :: more <+: t := htake ▸ List.take_prefix n t
      obtain ⟨after, rfl⟩ := hbegins
      have hone := numberLength_zero hx hhex
      obtain rfl : n = 0 := by
        rw [List.cons_append] at hn
        exact Nat.succ.inj (hn.symm.trans hone)
      cases htake

/-- **A number ends at the same place whatever ends it**, if no identifier follows. -/
theorem numberLength_take_append (hpos : 0 < mantissaLength t)
    (h : Follows (t.drop (numberLength t)) other)
    (hident : ∀ c ∈ other.head?, isIdentStart c = false) :
    numberLength (t.take (numberLength t) ++ other) = numberLength t := by
  by_cases hhex : hexLength t = 0
  · rw [numberLength_decimal (hexLength_take_append_eq_zero hpos hhex hident)]
    rw [numberLength_decimal hhex] at h ⊢
    set m := mantissaLength t with hm
    set e := exponentLength (t.drop m) with he
    set s := suffixLength ["lf", "LF", "f", "F", "u", "U"] ((t.drop m).drop e) with hs
    rw [← List.drop_drop, ← List.drop_drop] at h
    -- what follows the mantissa, and what follows the exponent, with the new end
    set afterExponent := ((t.drop m).drop e).take s ++ other with hafterExponent
    set afterMantissa := (t.drop m).take e ++ afterExponent with hafterMantissa
    have htext : t.take (m + (e + s)) ++ other = t.take m ++ afterMantissa := by
      rw [List.take_add, List.take_add, List.append_assoc, List.append_assoc]
    have hexponent : Follows ((t.drop m).drop e) afterExponent := h.take_append
    have hmantissa : Follows (t.drop m) afterMantissa := hexponent.take_append
    have hnone : ∀ c ∈ afterExponent.head?, c ≠ 'e' ∧ c ≠ 'E' := by
      intro c hc
      by_contra hexp
      rw [not_and_or, not_not, not_not] at hexp
      have hstart : isIdentStart c = true := by rcases hexp with rfl | rfl <;> decide
      rcases hexponent c hc with hnext | hends
      · -- an exponent without digits would be an identifier behind the number
        have hzero : s = 0 := by
          apply suffixLength_eq_zero isSuffixes_decimal
          intro d hd
          obtain rfl : d = c := Option.some.inj (hd.symm.trans hnext)
          rcases hexp with rfl | rfl <;> decide
        rw [hafterExponent, hzero, List.take_zero, List.nil_append] at hc
        exact absurd hstart (by simp [hident c hc])
      · exact absurd hstart (by simp [hends.identifier])
    have hmantissaLe := List.length_take_of_le (mantissaLength_le t)
    have hexponentLe := List.length_take_of_le (exponentLength_le (t.drop m))
    rw [htext, mantissaLength_take_append hmantissa, ← hm, List.drop_left' hmantissaLe,
      exponentLength_take_append hexponent hnone, ← he, List.drop_left' hexponentLe,
      suffixLength_take_append isSuffixes_decimal hident]
  · have hlength : numberLength t = hexLength t := by
      simp only [numberLength, ne_eq, hhex, not_false_iff, if_true]
    rw [hlength] at h ⊢
    have hsame := hexLength_take_append hhex h hident
    simp only [numberLength, hsame, ne_eq, hhex, not_false_iff, if_true]

/-- A number has digits. -/
theorem mantissaLength_pos {c : Char} {rest : Text} (h : opensNumber c rest = true) :
    0 < mantissaLength (c :: rest) := by
  rw [opensNumber, Bool.or_eq_true, Bool.and_eq_true] at h
  rcases h with hdigit | ⟨hpoint, -⟩
  · have hrun : ((c :: rest).takeWhile isDecimalDigit).length =
        (rest.takeWhile isDecimalDigit).length + 1 := by
      rw [List.takeWhile_cons, if_pos (isDecimalDigit_of_isAsciiDigit hdigit), List.length_cons]
    simp only [mantissaLength, hrun]
    split <;> omega
  · obtain rfl := eq_of_beq hpoint
    have hrun : ('.' :: rest).takeWhile isDecimalDigit = [] := by
      rw [List.takeWhile_cons, if_neg (by decide)]
    have hlength : mantissaLength ('.' :: rest) = 1 + (rest.takeWhile isDecimalDigit).length := by
      simp [mantissaLength, hrun]
    omega

theorem numberLength_pos {c : Char} {rest : Text} (h : opensNumber c rest = true) :
    0 < numberLength (c :: rest) := by
  have hpos := mantissaLength_pos h
  by_cases hhex : hexLength (c :: rest) = 0
  · rw [numberLength_decimal hhex]
    omega
  · simp only [numberLength, ne_eq, hhex, not_false_iff, if_true]
    omega

end Number

/-! ## One step of the scanner -/

section Step

variable {c : Char} {rest : Text}

theorem tokenStep_blank (hc : isBlank c = true) (rest : Text) :
    tokenStep () c rest = ⟨(rest.takeWhile isBlank).length, .whitespace, ()⟩ := by
  simp only [tokenStep, hc, if_true]

theorem tokenStep_line (rest : Text) :
    tokenStep () '/' ('/' :: rest) =
      ⟨(rest.takeWhile (· ≠ '\n')).length + 1, .comment, ()⟩ :=
  rfl

theorem tokenStep_block (rest : Text) :
    tokenStep () '/' ('*' :: rest) = ⟨lengthThrough ['*', '/'] rest + 1, .comment, ()⟩ := by
  rw [Nat.add_comm]
  rfl

theorem tokenStep_identifier (hc : isIdentStart c = true) (rest : Text) :
    tokenStep () c rest = ⟨(rest.takeWhile isIdentChar).length, .identifier, ()⟩ := by
  have hslash : c ≠ '/' := by
    rintro rfl
    exact absurd hc (by decide)
  simp only [tokenStep, isBlank_of_isIdentStart hc, hslash, hc, false_and, if_true, if_false,
    Bool.false_eq_true]

/-- Neither a blank, a comment nor an identifier begins here. -/
structure Bare (c : Char) (rest : Text) : Prop where
  blank : isBlank c = false
  identifier : isIdentStart c = false
  comment : c = '/' → rest.head? ≠ some '/' ∧ rest.head? ≠ some '*'

theorem tokenStep_number (hbare : Bare c rest) (h : opensNumber c rest = true) :
    tokenStep () c rest = ⟨numberLength (c :: rest) - 1, .number, ()⟩ := by
  have hline : ¬(c = '/' ∧ rest.head? = some '/') := fun h => (hbare.comment h.1).1 h.2
  have hblock : ¬(c = '/' ∧ rest.head? = some '*') := fun h => (hbare.comment h.1).2 h.2
  simp only [tokenStep, hbare.blank, hline, hblock, hbare.identifier, h, if_true, if_false,
    Bool.false_eq_true]

theorem tokenStep_operator (hbare : Bare c rest) (h : opensNumber c rest = false) :
    tokenStep () c rest = ⟨0, .operator, ()⟩ := by
  have hline : ¬(c = '/' ∧ rest.head? = some '/') := fun h => (hbare.comment h.1).1 h.2
  have hblock : ¬(c = '/' ∧ rest.head? = some '*') := fun h => (hbare.comment h.1).2 h.2
  simp only [tokenStep, hbare.blank, hline, hblock, hbare.identifier, h, if_false,
    Bool.false_eq_true]

/-- All that the scanner can read. -/
theorem tokenStep_cases (c : Char) (rest : Text) :
    isBlank c = true ∨ (c = '/' ∧ ∃ more, rest = '/' :: more) ∨
      (c = '/' ∧ ∃ more, rest = '*' :: more) ∨ isIdentStart c = true ∨
      Bare c rest ∧ opensNumber c rest = true ∨ Bare c rest ∧ opensNumber c rest = false := by
  by_cases hline : c = '/' ∧ rest.head? = some '/'
  · exact .inr (.inl ⟨hline.1, List.head?_eq_some_iff.mp hline.2⟩)
  by_cases hblock : c = '/' ∧ rest.head? = some '*'
  · exact .inr (.inr (.inl ⟨hblock.1, List.head?_eq_some_iff.mp hblock.2⟩))
  cases hblank : isBlank c with
  | true => exact .inl rfl
  | false =>
    cases hident : isIdentStart c with
    | true => exact .inr (.inr (.inr (.inl rfl)))
    | false =>
      have hbare : Bare c rest :=
        ⟨hblank, hident, fun hc => ⟨fun h => hline ⟨hc, h⟩, fun h => hblock ⟨hc, h⟩⟩⟩
      cases opensNumber c rest with
      | true => exact .inr (.inr (.inr (.inr (.inl ⟨hbare, rfl⟩))))
      | false => exact .inr (.inr (.inr (.inr (.inr ⟨hbare, rfl⟩))))

end Step

/-! ## The text behind a token -/

section Alike

variable {t u : Text}

/-- Two texts begin with the same character, or both with an identifier. -/
def BeginsAlike (t u : Text) : Prop :=
  t.head? = u.head? ∨ (∃ c ∈ t.head?, isIdentStart c = true) ∧ ∃ c ∈ u.head?, isIdentStart c = true

theorem BeginsAlike.eq_nil (h : BeginsAlike t u) (hu : u = []) : t = [] := by
  subst hu
  rcases h with h | ⟨-, c, hc, -⟩
  · exact List.head?_eq_none_iff.mp h
  · cases hc

/-- What no identifier begins with stays away from the beginning. -/
theorem BeginsAlike.head_not {p : Char → Prop} (h : BeginsAlike t u)
    (hp : ∀ c, isIdentStart c = true → ¬p c) (hu : ∀ c ∈ u.head?, ¬p c) :
    ∀ c ∈ t.head?, ¬p c := by
  rcases h with h | ⟨⟨d, hd, hstart⟩, -⟩
  · rwa [h]
  · intro c hc
    rw [← Option.some.inj (hd.symm.trans hc)]
    exact hp d hstart

/-- Where no identifier begins, the character is the same. -/
theorem BeginsAlike.head_eq (h : BeginsAlike t u)
    (hu : ∀ c ∈ u.head?, isIdentStart c = false) : t.head? = u.head? := by
  rcases h with h | ⟨-, d, hd, hstart⟩
  · exact h
  · exact absurd hstart (by simp [hu d hd])

end Alike

section Follow

variable {c : Char} {rest tail : Text}

/-- A character that begins no blank, comment or identifier still begins none if the text behind it
begins alike. -/
theorem Bare.of_beginsAlike (hbare : Bare c rest) (h : BeginsAlike tail rest) : Bare c tail := by
  refine ⟨hbare.blank, hbare.identifier, fun hslash => ?_⟩
  obtain ⟨hline, hblock⟩ := hbare.comment hslash
  have hnot : ∀ d, isIdentStart d = false → rest.head? ≠ some d → tail.head? ≠ some d := by
    intro d hd hrest htail
    refine h.head_not (p := (· = d)) ?_ ?_ d htail rfl
    · rintro e he rfl
      exact absurd he (by simp [hd])
    · rintro e he rfl
      exact hrest he
  exact ⟨hnot _ (by decide) hline, hnot _ (by decide) hblock⟩

theorem opensNumber_of_beginsAlike (hnumber : opensNumber c rest = false)
    (h : BeginsAlike tail rest) : opensNumber c tail = false := by
  rw [opensNumber, Bool.or_eq_false_iff, Bool.and_eq_false_iff] at hnumber ⊢
  refine ⟨hnumber.1, hnumber.2.imp_right fun hdigit => ?_⟩
  have hrest : ∀ d ∈ rest.head?, ¬isAsciiDigit d = true := by
    intro d hd hd'
    rw [Option.mem_def.mp hd, Option.any_some, hd'] at hdigit
    exact absurd hdigit (by decide)
  have htail := h.head_not (fun d hd => by simp [isAsciiDigit_of_isIdentStart hd]) hrest
  cases hhead : tail.head? with
  | none => rfl
  | some d => simpa using htail d hhead

/-- **A token other than an identifier ends at the same place if the text behind it begins alike**
and, behind a number, with no identifier. -/
theorem tokenStep_take_append (hkind : (tokenStep () c rest).note ≠ .identifier)
    (h : BeginsAlike tail (rest.drop (tokenStep () c rest).extra))
    (hnumber : (tokenStep () c rest).note = .number →
      ∀ d ∈ (rest.drop (tokenStep () c rest).extra).head?, isIdentStart d = false) :
    tokenStep () c (rest.take (tokenStep () c rest).extra ++ tail) = tokenStep () c rest := by
  rcases tokenStep_cases c rest with
    hblank | ⟨rfl, more, rfl⟩ | ⟨rfl, more, rfl⟩ | hident | ⟨hbare, hopens⟩ | ⟨hbare, hopens⟩
  · rw [tokenStep_blank hblank] at h ⊢
    have hstop : ∀ d ∈ tail.head?, ¬isBlank d = true :=
      h.head_not (fun d hd => by simp [isBlank_of_isIdentStart hd])
        (fun d hd => by simp [of_head?_drop_takeWhile hd])
    rw [tokenStep_blank hblank, takeWhile_take_append_of_stop fun d hd => by simpa using hstop d hd]
  · rw [tokenStep_line] at h ⊢
    rw [List.drop_succ_cons] at h
    -- a line ends with a line break, which begins no identifier
    have hhead := h.head_eq fun d hd => by
      have hbreak : d = '\n' := by simpa using of_head?_drop_takeWhile hd
      rw [hbreak]
      decide
    rw [List.take_succ_cons, List.cons_append, tokenStep_line, takeWhile_take_append hhead]
  · rw [tokenStep_block] at h ⊢
    rw [List.take_succ_cons, List.cons_append, tokenStep_block,
      lengthThrough_take_append fun hend => h.eq_nil hend]
  · rw [tokenStep_identifier hident] at hkind
    exact absurd rfl hkind
  · have hpos := numberLength_pos hopens
    rw [tokenStep_number hbare hopens] at h hnumber ⊢
    set n := numberLength (c :: rest) - 1 with hn
    have hhead := h.head_eq (hnumber rfl)
    have hsame : (rest.take n ++ tail).head? = rest.head? := head?_take_append hhead
    have hopens' : opensNumber c (rest.take n ++ tail) = true := by
      rw [opensNumber, hsame]
      exact hopens
    have hlength : numberLength (c :: rest) = n + 1 := by omega
    have htext : c :: (rest.take n ++ tail) = (c :: rest).take (numberLength (c :: rest)) ++ tail := by
      rw [hlength, List.take_succ_cons, List.cons_append]
    rw [tokenStep_number (hbare.of_beginsAlike (.inl hsame)) hopens', htext,
      numberLength_take_append (mantissaLength_pos hopens)]
    · rw [hlength, List.drop_succ_cons]
      exact fun d hd => .inl (hhead ▸ hd)
    · rw [hhead]
      exact hnumber rfl
  · rw [tokenStep_operator hbare hopens] at h ⊢
    exact tokenStep_operator (hbare.of_beginsAlike h) (opensNumber_of_beginsAlike hopens h)

end Follow

/-! ## Renamed tokens -/

/-- A text that is an identifier. -/
def IsIdentifier (x : Text) : Prop :=
  ∃ c body, x = c :: body ∧ isIdentStart c = true ∧ ∀ d ∈ body, isIdentChar d = true

/-- The token, with another text if it is an identifier. -/
def renameToken (r : Text → Text) (t : Token Kind) : Token Kind :=
  { t with text := if t.kind = .identifier then r t.text else t.text }

/-- No identifier stands directly behind a number. -/
def Apart (ts : List (Token Kind)) : Prop :=
  ts.IsChain fun t u => ¬(t.kind = .number ∧ u.kind = .identifier)

instance (ts : List (Token Kind)) : Decidable (Apart ts) :=
  inferInstanceAs (Decidable (ts.IsChain _))

theorem tokens_cons (c : Char) (rest : Text) :
    tokens (c :: rest) =
      ⟨(tokenStep () c rest).note, c :: rest.take (tokenStep () c rest).extra⟩ ::
        tokens (rest.drop (tokenStep () c rest).extra) := by
  rw [tokens_eq, scan_cons, List.map_cons, tokens_eq]
  rfl

/-- No identifier begins directly behind a number. -/
theorem Apart.head_not {t : Token Kind} {rest : Text} (h : Apart (t :: tokens rest))
    (ht : t.kind = .number) : ∀ d ∈ rest.head?, isIdentStart d = false := by
  intro d hd
  obtain ⟨more, rfl⟩ := List.head?_eq_some_iff.mp hd
  by_contra hstart
  rw [tokens_cons, tokenStep_identifier (Bool.not_eq_false _ ▸ hstart)] at h
  exact (List.isChain_cons_cons.mp h).1 ⟨ht, rfl⟩

/-- The text of an identifier token is an identifier. -/
theorem isIdentifier_of_tokenStep {c : Char} {rest : Text}
    (h : (tokenStep () c rest).note = .identifier) :
    isIdentStart c = true ∧ IsIdentifier (c :: rest.take (tokenStep () c rest).extra) := by
  rcases tokenStep_cases c rest with
    hblank | ⟨rfl, more, rfl⟩ | ⟨rfl, more, rfl⟩ | hident | ⟨hbare, hopens⟩ | ⟨hbare, hopens⟩
  · rw [tokenStep_blank hblank] at h; cases h
  · rw [tokenStep_line] at h; cases h
  · rw [tokenStep_block] at h; cases h
  · refine ⟨hident, c, _, rfl, hident, fun d hd => ?_⟩
    rw [tokenStep_identifier hident, ← List.prefix_iff_eq_take.mp (List.takeWhile_prefix _)] at hd
    exact List.mem_takeWhile_imp hd
  · rw [tokenStep_number hbare hopens] at h; cases h
  · rw [tokenStep_operator hbare hopens] at h; cases h

theorem isIdentifier_of_mem_tokens {source : Text} {t : Token Kind} (ht : t ∈ tokens source)
    (hkind : t.kind = .identifier) : IsIdentifier t.text := by
  rw [tokens_eq] at ht
  fun_induction scan tokenStep () source with
  | case1 => cases ht
  | case2 s c rest st ih =>
    rw [List.map_cons, List.mem_cons] at ht
    rcases ht with rfl | ht
    · exact (isIdentifier_of_tokenStep hkind).2
    · exact ih ht

section Renamed

variable {r : Text → Text}

/-- The text with its identifiers renamed. -/
def renamed (r : Text → Text) (source : Text) : Text :=
  rewritten tokenStep (fun p => (renameToken r (Token.ofPiece p)).text) () source

theorem renamed_eq_flatMap (r : Text → Text) (source : Text) :
    renamed r source = (tokens source).flatMap fun t => (renameToken r t).text := by
  rw [renamed, rewritten, tokens_eq, List.flatMap_map]

theorem renamed_cons (c : Char) (rest : Text) :
    renamed r (c :: rest) =
      (renameToken r
          ⟨(tokenStep () c rest).note, c :: rest.take (tokenStep () c rest).extra⟩).text ++
        renamed r (rest.drop (tokenStep () c rest).extra) := by
  rw [renamed, rewritten_cons]
  rfl

/-- Renaming keeps the first character of a text, unless an identifier begins there. -/
theorem beginsAlike_renamed (hr : ∀ x, IsIdentifier x → IsIdentifier (r x)) (source : Text) :
    BeginsAlike (renamed r source) source := by
  cases source with
  | nil => exact .inl (by simp [renamed])
  | cons c rest =>
    by_cases hkind : (tokenStep () c rest).note = .identifier
    · obtain ⟨hstart, hident⟩ := isIdentifier_of_tokenStep hkind
      obtain ⟨c', body, hnew, hstart', -⟩ := hr _ hident
      refine .inr ⟨⟨c', ?_, hstart'⟩, c, rfl, hstart⟩
      rw [renamed_cons, renameToken, if_pos hkind, hnew]
      rfl
    · refine .inl ?_
      rw [renamed_cons, renameToken, if_neg hkind]
      rfl

/-- A new identifier ends where it is written to end. -/
theorem takeWhile_isIdentChar_append {body tail : Text} (hbody : ∀ d ∈ body, isIdentChar d = true)
    (h : ∀ d ∈ tail.head?, isIdentChar d = false) :
    (body ++ tail).takeWhile isIdentChar = body := by
  have hrun : body.takeWhile isIdentChar = body := List.takeWhile_eq_self_iff.mpr hbody
  have hsame := takeWhile_take_append_of_stop (t := body) h
  rwa [hrun, List.take_length] at hsame

/-- The scanner answers the renaming of each token. -/
theorem answers_renamed (hr : ∀ x, IsIdentifier x → IsIdentifier (r x)) (c : Char) (rest : Text)
    (hapart : Apart (tokens (c :: rest))) :
    Answers tokenStep (fun p => (renameToken r (Token.ofPiece p)).text) id
      (fun _ _ t => Apart (tokens t)) () () c rest := by
  rw [tokens_cons] at hapart
  set n := (tokenStep () c rest).extra with hn
  have hlater : Apart (tokens (rest.drop n)) := hapart.tail
  have hbegins := beginsAlike_renamed hr (rest.drop n)
  by_cases hkind : (tokenStep () c rest).note = .identifier
  · obtain ⟨hstart, hident⟩ := isIdentifier_of_tokenStep hkind
    obtain ⟨c', body, hnew, hstart', hbody⟩ := hr _ hident
    refine ⟨c', body, ?_, ?_⟩
    · rw [← hnew]
      exact if_pos hkind
    · rintro tail rfl
      have hstop : ∀ d ∈ (rest.drop n).head?, isIdentChar d = false := by
        intro d hd
        rw [hn, tokenStep_identifier hstart] at hd
        exact of_head?_drop_takeWhile hd
      have hhead := hbegins.head_eq fun d hd => by
        by_contra hd'
        have := isIdentChar_of_isIdentStart (Bool.not_eq_false _ ▸ hd')
        rw [hstop d hd] at this
        cases this
      have hrun := takeWhile_isIdentChar_append hbody (hhead ▸ hstop)
      rw [tokenStep_identifier hstart', hkind]
      refine ⟨?_, rfl, hlater⟩
      exact List.take_left' (congrArg List.length hrun).symm
  · refine ⟨c, rest.take n, if_neg hkind, fun tail htail => ?_⟩
    obtain rfl : tail = renamed r (rest.drop n) := htail
    have hsame := tokenStep_take_append hkind hbegins fun hnumber => hapart.head_not hnumber
    rw [← hn] at hsame
    rw [hsame, ← hn]
    exact ⟨take_append_of_short hbegins.eq_nil, rfl, hlater⟩

/-- **The tokens of the renamed text are the old ones with the new identifiers**, if no identifier
stands directly behind a number. -/
theorem tokens_renamed (hr : ∀ x, IsIdentifier x → IsIdentifier (r x)) {source : Text}
    (hapart : Apart (tokens source)) :
    tokens (renamed r source) = (tokens source).map (renameToken r) := by
  have hscan := scan_rewritten (fun _ _ c rest h => answers_renamed hr c rest h) () () source hapart
  rw [tokens_eq, renamed, hscan, tokens_eq, List.map_map, List.map_map]
  rfl

-- directly behind a number, a new name can be taken for a suffix
example : ¬Apart (tokens "1.x".toList) ∧
    tokens (renamed (fun _ => ['f']) "1.x".toList) = [⟨.number, "1.f".toList⟩] := by
  decide +kernel

end Renamed

end WebTrim.Shader
