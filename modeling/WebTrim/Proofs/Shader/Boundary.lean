import WebTrim.Proofs.Shader.Token

/-!
# Where the tokens of a shader end

The scanner looks ahead only as far as a number may go. Behind a character that is part of no
identifier and of no number, the text may be exchanged.

* `Stops.numberLength_append`, `tokenStep_append` — what stands behind such a character does not
  count.
* `visible` — all tokens but white space; a blank at the beginning adds none (`visible_blank`).
* `CommentFree.visible_append` — a text without a comment can be cut before such a character.
* `Lexeme` — what the scanner reads as one token; `Allows`: what may stand directly behind it.
* `Lexeme.tokens_append` — **a token is read back with anything behind it that it allows**.
-/

set_option autoImplicit false

namespace WebTrim.Shader

open Text

/-! ## Stops -/

/-- A character that may stand in an identifier or a number; the sign of an exponent is one. -/
def isWordPart (c : Char) : Bool :=
  isIdentChar c || isDecimalDigit c || c == '.' || c == '+' || c == '-'

theorem endsNumber_of_isWordPart {c : Char} (h : isWordPart c = false) : EndsNumber c := by
  simp only [isWordPart, Bool.or_eq_false_iff, beq_eq_false_iff_ne] at h
  refine ⟨h.1.1.1.2, ?_, h.1.1.2⟩
  by_contra hstart
  have hident := isIdentChar_of_isIdentStart (Bool.not_eq_false _ ▸ hstart)
  exact absurd hident (by simp [h.1.1.1.1])

/-- No identifier and no number goes on with the text. -/
def Stops (w : Text) : Prop :=
  ∀ c ∈ w.head?, isWordPart c = false

/-- A word without the character that `w` begins with does not reach into it. -/
theorem isPrefixOf_append_of_stop {p : Char → Bool} {word v w : Text}
    (hword : ∀ c ∈ word, p c = true) (h : ∀ c ∈ w.head?, p c = false) :
    word.isPrefixOf (v ++ w) = word.isPrefixOf v := by
  induction word generalizing v with
  | nil => rfl
  | cons c word ih =>
    rw [List.forall_mem_cons] at hword
    cases v with
    | nil =>
      cases w with
      | nil => rfl
      | cons d w =>
        have hne : c ≠ d := by
          rintro rfl
          exact absurd hword.1 (by simp [h c rfl])
        simp [List.isPrefixOf, hne]
    | cons d v => simp only [List.cons_append, List.isPrefixOf, ih hword.2]

/-! ## How far a number looks ahead -/

theorem suffixLength_le (suffixes : List String) (t : Text) :
    suffixLength suffixes t ≤ t.length := by
  rcases suffixLength_cases suffixes t with ⟨s, -, rest, rfl, hlength⟩ | hzero
  · rw [hlength, List.length_append, String.length_toList]
    omega
  · omega

/-- A suffix without the character that `w` begins with does not reach into it. -/
theorem suffixLength_append_of_stop {p : Char → Bool} {suffixes : List String} {v w : Text}
    (hsuffixes : (suffixes.all fun s => s.toList.all p) = true) (h : ∀ c ∈ w.head?, p c = false) :
    suffixLength suffixes (v ++ w) = suffixLength suffixes v := by
  unfold suffixLength
  congr 2
  induction suffixes with
  | nil => rfl
  | cons s suffixes ih =>
    rw [List.all_cons, Bool.and_eq_true, List.all_eq_true] at hsuffixes
    rw [List.find?_cons, List.find?_cons, isPrefixOf_append_of_stop hsuffixes.1 h, ih hsuffixes.2]

theorem exponentSign_le (t : Text) : exponentSign t ≤ t.length := by
  cases t with
  | nil => exact Nat.le_refl _
  | cons c t =>
    rw [exponentSign, List.length_cons]
    split <;> omega

theorem exponentSign_append {v w : Text} (hplus : w.head? ≠ some '+') (hminus : w.head? ≠ some '-') :
    exponentSign (v ++ w) = exponentSign v := by
  cases v with
  | nil => simp [exponentSign, hplus, hminus]
  | cons c v => rfl

theorem hexLength_le (t : Text) : hexLength t ≤ t.length := by
  by_cases hzero : hexLength t = 0
  · omega
  · obtain ⟨x, rest, rfl, hx, hdigits⟩ := exists_of_hexLength hzero
    have hsuffix := suffixLength_le ["u", "U"] (rest.drop (rest.takeWhile isHexDigit).length)
    have hrun : (rest.takeWhile isHexDigit).length ≤ rest.length :=
      (List.takeWhile_prefix _).length_le
    rw [hexLength_cons hx hdigits, List.length_cons, List.length_cons]
    rw [List.length_drop] at hsuffix
    omega

theorem numberLength_le (t : Text) : numberLength t ≤ t.length := by
  by_cases hhex : hexLength t = 0
  · have hmantissa := mantissaLength_le t
    have hexponent := exponentLength_le (t.drop (mantissaLength t))
    have hsuffix := suffixLength_le ["lf", "LF", "f", "F", "u", "U"]
      ((t.drop (mantissaLength t)).drop (exponentLength (t.drop (mantissaLength t))))
    rw [numberLength_decimal hhex]
    rw [List.length_drop] at hexponent
    rw [List.length_drop, List.length_drop] at hsuffix
    omega
  · simp only [numberLength, ne_eq, hhex, not_false_iff, if_true]
    exact hexLength_le t

theorem hexLength_eq_zero {t : Text} (h : ∀ x rest, t = '0' :: x :: rest → x ≠ 'x' ∧ x ≠ 'X') :
    hexLength t = 0 := by
  by_contra hne
  obtain ⟨x, rest, ht, hx, -⟩ := exists_of_hexLength hne
  obtain ⟨hlower, hupper⟩ := h x rest ht
  exact hx.elim hlower hupper

namespace Stops

variable {v w : Text} (hw : Stops w)

include hw

theorem not_digit : ∀ c ∈ w.head?, isDecimalDigit c = false :=
  fun c hc => (endsNumber_of_isWordPart (hw c hc)).digit

theorem not_ident : ∀ c ∈ w.head?, isIdentChar c = false := by
  intro c hc
  have hpart := hw c hc
  simp only [isWordPart, Bool.or_eq_false_iff] at hpart
  exact hpart.1.1.1.1

/-- The text does not begin with a given part of a word. -/
theorem head_ne {c : Char} (hc : isWordPart c = true) : w.head? ≠ some c :=
  fun hhead => absurd hc (by simp [hw c hhead])

theorem mantissaLength_append : mantissaLength (v ++ w) = mantissaLength v := by
  have hle : (v.takeWhile isDecimalDigit).length ≤ v.length := (List.takeWhile_prefix _).length_le
  simp only [mantissaLength, takeWhile_append_of_stop hw.not_digit,
    List.drop_append_of_le_length hle]
  cases v.drop (v.takeWhile isDecimalDigit).length with
  | nil =>
    rw [List.nil_append, if_neg (hw.head_ne (by decide))]
    rfl
  | cons c more =>
    simp only [List.cons_append, List.head?_cons, List.drop_succ_cons, List.drop_zero,
      takeWhile_append_of_stop hw.not_digit]

theorem exponentLength_append : exponentLength (v ++ w) = exponentLength v := by
  cases v with
  | nil =>
    refine exponentLength_eq_zero fun c hc => ⟨?_, ?_⟩ <;>
    · rintro rfl
      exact hw.head_ne (by decide) hc
  | cons c rest =>
    have hsign : exponentSign (rest ++ w) = exponentSign rest :=
      exponentSign_append (hw.head_ne (by decide)) (hw.head_ne (by decide))
    rw [List.cons_append, exponentLength_cons, exponentLength_cons, hsign,
      List.drop_append_of_le_length (exponentSign_le rest), takeWhile_append_of_stop hw.not_digit]

theorem suffixLength_append {suffixes : List String}
    (hsuffixes : (suffixes.all fun s => s.toList.all isIdentChar) = true) :
    suffixLength suffixes (v ++ w) = suffixLength suffixes v :=
  suffixLength_append_of_stop hsuffixes hw.not_ident

theorem hexLength_append : hexLength (v ++ w) = hexLength v := by
  have hhex : ∀ c ∈ w.head?, isHexDigit c = false := fun c hc =>
    (endsNumber_of_isWordPart (hw c hc)).isHexDigit
  rcases v with _ | ⟨c, _ | ⟨x, rest⟩⟩
  · refine hexLength_eq_zero fun x rest heq => ?_
    exact absurd (congrArg List.head? heq) (hw.head_ne (by decide))
  · refine (hexLength_eq_zero fun x rest heq => ?_).trans (hexLength_eq_zero (by simp)).symm
    have hhead : w.head? = some x := congrArg List.head? (List.cons.inj heq).2
    refine ⟨?_, ?_⟩ <;>
    · rintro rfl
      exact hw.head_ne (by decide) hhead
  · by_cases hc : c = '0'
    · subst hc
      have hle : (rest.takeWhile isHexDigit).length ≤ rest.length :=
        (List.takeWhile_prefix _).length_le
      have hsuffix : ∀ v, suffixLength ["u", "U"] (v ++ w) = suffixLength ["u", "U"] v := fun v =>
        hw.suffixLength_append (by decide)
      simp only [List.cons_append, hexLength, takeWhile_append_of_stop hhex,
        List.drop_append_of_le_length hle, hsuffix]
    · have hzero : ∀ more, hexLength (c :: more) = 0 := fun more =>
        hexLength_eq_zero fun x rest heq => absurd (List.cons.inj heq).1 hc
      rw [List.cons_append, hzero, hzero]

/-- **A number does not look beyond a stop.** -/
theorem numberLength_append : numberLength (v ++ w) = numberLength v := by
  have hhex : hexLength (v ++ w) = hexLength v := hw.hexLength_append
  by_cases hzero : hexLength v = 0
  · rw [numberLength_decimal (hhex.trans hzero), numberLength_decimal hzero,
      hw.mantissaLength_append, List.drop_append_of_le_length (mantissaLength_le v),
      hw.exponentLength_append, List.drop_append_of_le_length (exponentLength_le _),
      hw.suffixLength_append (by decide)]
  · simp only [numberLength, hhex, ne_eq, hzero, not_false_iff, if_true]

end Stops

/-! ## One step of the scanner -/

/-- No comment begins with the character and the text behind it. -/
def NoOpener (c : Char) (rest : Text) : Prop :=
  c = '/' → rest.head? ≠ some '/' ∧ rest.head? ≠ some '*'

theorem NoOpener.of_append {c : Char} {v w : Text} (h : NoOpener c (v ++ w)) : NoOpener c v := by
  cases v with
  | nil => exact fun _ => by simp
  | cons d v => exact h

theorem NoOpener.append {c : Char} {v w : Text} (h : NoOpener c v)
    (hw : w.head? ≠ some '/' ∧ w.head? ≠ some '*') : NoOpener c (v ++ w) := by
  cases v with
  | nil => exact fun _ => hw
  | cons d v => exact h

/-- **A token does not look beyond a stop**, and it ends before it. -/
theorem tokenStep_append {c : Char} {v w : Text} (hw : Stops w) (hblank : isBlank c = false)
    (hvw : NoOpener c (v ++ w)) :
    tokenStep () c (v ++ w) = tokenStep () c v ∧ (tokenStep () c v).extra ≤ v.length := by
  have hv := hvw.of_append
  rcases tokenStep_cases c v with
    hblank' | ⟨rfl, more, rfl⟩ | ⟨rfl, more, rfl⟩ | hident | ⟨hbare, hopens⟩ | ⟨hbare, hopens⟩
  · rw [hblank] at hblank'
    cases hblank'
  · exact absurd rfl (hv rfl).1
  · exact absurd rfl (hv rfl).2
  · rw [tokenStep_identifier hident, tokenStep_identifier hident,
      takeWhile_append_of_stop hw.not_ident]
    exact ⟨rfl, (List.takeWhile_prefix _).length_le⟩
  all_goals
    have hbare' : Bare c (v ++ w) := ⟨hbare.blank, hbare.identifier, hvw⟩
    have hsame : opensNumber c (v ++ w) = opensNumber c v := by
      cases v with
      | nil =>
        cases w with
        | nil => rfl
        | cons d w =>
          have hdigit : isAsciiDigit d = false := by
            by_contra hd
            have := isDecimalDigit_of_isAsciiDigit (Bool.not_eq_false _ ▸ hd)
            exact absurd this (by simp [hw.not_digit d rfl])
          simp [opensNumber, hdigit]
      | cons d v => rfl
  · rw [tokenStep_number hbare' (hsame.trans hopens), tokenStep_number hbare hopens,
      ← List.cons_append, hw.numberLength_append]
    have hle := numberLength_le (c :: v)
    rw [List.length_cons] at hle
    exact ⟨rfl, Nat.sub_le_of_le_add hle⟩
  · rw [tokenStep_operator hbare' (hsame.trans hopens), tokenStep_operator hbare hopens]
    exact ⟨rfl, Nat.zero_le _⟩

/-- Every character of a number is part of a word. -/
theorem isWordPart_of_mem_number {t : Text} :
    ∀ c ∈ t.take (numberLength t), isWordPart c = true := by
  have hstop : Stops (t.dropWhile isWordPart) := not_head_dropWhile
  have hlength : numberLength t ≤ (t.takeWhile isWordPart).length := by
    have hsame : numberLength (t.takeWhile isWordPart ++ t.dropWhile isWordPart) =
        numberLength (t.takeWhile isWordPart) := hstop.numberLength_append
    rw [List.takeWhile_append_dropWhile] at hsame
    rw [hsame]
    exact numberLength_le _
  have hbegins : t.take (numberLength t) <+: t.takeWhile isWordPart :=
    List.prefix_of_prefix_length_le (List.take_prefix _ t) (List.takeWhile_prefix _)
      (Nat.le_trans (List.length_take_le _ _) hlength)
  exact fun c hc => List.mem_takeWhile_imp (hbegins.subset hc)

/-! ## Tokens without white space -/

/-- What holds of a text if it holds of the text behind its first token holds of every text. -/
theorem tokenInduction {P : Text → Prop} (nil : P [])
    (cons : ∀ c rest, P (rest.drop (tokenStep () c rest).extra) → P (c :: rest)) (t : Text) :
    P t := by
  induction hn : t.length using Nat.strong_induction_on generalizing t with
  | _ n ih =>
    cases t with
    | nil => exact nil
    | cons c rest =>
      refine cons c rest (ih _ ?_ _ rfl)
      rw [List.length_cons] at hn
      rw [List.length_drop]
      omega

/-- All tokens of a text but white space. -/
def visible (t : Text) : List (Token Kind) :=
  (tokens t).filter fun u => u.kind ≠ .whitespace

@[simp] theorem visible_nil : visible [] = [] := by
  simp [visible, tokens_eq]

theorem visible_of_blank {c : Char} {rest : Text} (hc : isBlank c = true) :
    visible (c :: rest) = visible (rest.drop (rest.takeWhile isBlank).length) := by
  rw [visible, tokens_cons, tokenStep_blank hc]
  rfl

/-- A blank at the beginning adds no token. -/
theorem visible_blank {c : Char} (hc : isBlank c = true) (t : Text) :
    visible (c :: t) = visible t := by
  rw [visible_of_blank hc]
  cases t with
  | nil => rfl
  | cons d t =>
    by_cases hd : isBlank d = true
    · rw [visible_of_blank hd, List.takeWhile_cons, if_pos hd]
      rfl
    · rw [List.takeWhile_cons, if_neg hd]
      rfl

theorem visible_blanks {blanks : Text} (h : ∀ c ∈ blanks, isBlank c = true) (t : Text) :
    visible (blanks ++ t) = visible t := by
  induction blanks with
  | nil => rfl
  | cons c blanks ih =>
    rw [List.forall_mem_cons] at h
    rw [List.cons_append, visible_blank h.1, ih h.2]

theorem note_ne_whitespace {c : Char} (hc : isBlank c = false) (rest : Text) :
    (tokenStep () c rest).note ≠ .whitespace := by
  rcases tokenStep_cases c rest with
    hblank | ⟨rfl, more, rfl⟩ | ⟨rfl, more, rfl⟩ | hident | ⟨hbare, hopens⟩ | ⟨hbare, hopens⟩
  · rw [hc] at hblank
    cases hblank
  · rw [tokenStep_line]; simp
  · rw [tokenStep_block]; simp
  · rw [tokenStep_identifier hident]; simp
  · rw [tokenStep_number hbare hopens]; simp
  · rw [tokenStep_operator hbare hopens]; simp

/-- The token at a character that is no blank. -/
theorem visible_cons {c : Char} (hc : isBlank c = false) (rest : Text) :
    visible (c :: rest) =
      ⟨(tokenStep () c rest).note, c :: rest.take (tokenStep () c rest).extra⟩ ::
        visible (rest.drop (tokenStep () c rest).extra) := by
  rw [visible, tokens_cons, List.filter_cons, if_pos]
  · rfl
  · exact decide_eq_true (note_ne_whitespace hc rest)

/-! ## Texts without comments -/

/-- No comment begins anywhere in the text. -/
def CommentFree (t : Text) : Prop :=
  ∀ c rest, c :: rest <:+ t → NoOpener c rest

theorem CommentFree.of_suffix {s t : Text} (h : CommentFree t) (hsuffix : s <:+ t) :
    CommentFree s :=
  fun c rest hrest => h c rest (hrest.trans hsuffix)

theorem CommentFree.of_beginning {s t : Text} (h : CommentFree t) (hbegins : s <+: t) :
    CommentFree s := by
  obtain ⟨more, rfl⟩ := hbegins
  rintro c rest ⟨before, rfl⟩
  exact (h c (rest ++ more) ⟨before, by simp⟩).of_append

theorem CommentFree.of_part {s t : Text} (h : CommentFree t) (hpart : s <:+: t) :
    CommentFree s := by
  obtain ⟨before, after, rfl⟩ := hpart
  exact (h.of_beginning ⟨after, rfl⟩).of_suffix ⟨before, rfl⟩

/-- Behind its first character, a token other than a comment holds no slash. -/
theorem ne_slash_of_mem_token {c : Char} {rest : Text}
    (h : (tokenStep () c rest).note ≠ .comment) :
    ∀ d ∈ rest.take (tokenStep () c rest).extra, d ≠ '/' := by
  intro d hd
  rintro rfl
  rcases tokenStep_cases c rest with
    hblank | ⟨rfl, more, rfl⟩ | ⟨rfl, more, rfl⟩ | hident | ⟨hbare, hopens⟩ | ⟨hbare, hopens⟩
  · rw [tokenStep_blank hblank, ← List.prefix_iff_eq_take.mp (List.takeWhile_prefix _)] at hd
    exact absurd (List.mem_takeWhile_imp hd) (by decide)
  · rw [tokenStep_line] at h
    exact h rfl
  · rw [tokenStep_block] at h
    exact h rfl
  · rw [tokenStep_identifier hident, ← List.prefix_iff_eq_take.mp (List.takeWhile_prefix _)] at hd
    exact absurd (List.mem_takeWhile_imp hd) (by decide)
  · rw [tokenStep_number hbare hopens] at hd
    have hpos := numberLength_pos hopens
    obtain ⟨n, hn⟩ := Nat.exists_eq_succ_of_ne_zero (Nat.pos_iff_ne_zero.mp hpos)
    have hmem : '/' ∈ (c :: rest).take (numberLength (c :: rest)) := by
      rw [hn] at hd ⊢
      exact List.mem_cons_of_mem c hd
    exact absurd (isWordPart_of_mem_number _ hmem) (by decide)
  · rw [tokenStep_operator hbare hopens] at hd
    cases hd

theorem note_eq_comment_iff {c : Char} {rest : Text} :
    (tokenStep () c rest).note = .comment ↔ ¬NoOpener c rest := by
  unfold NoOpener
  rcases tokenStep_cases c rest with
    hblank | ⟨rfl, more, rfl⟩ | ⟨rfl, more, rfl⟩ | hident | ⟨hbare, hopens⟩ | ⟨hbare, hopens⟩
  · have hslash : c ≠ '/' := by
      rintro rfl
      exact absurd hblank (by decide)
    rw [tokenStep_blank hblank]
    simp [hslash]
  · rw [tokenStep_line]; simp
  · rw [tokenStep_block]; simp
  · have hslash : c ≠ '/' := by
      rintro rfl
      exact absurd hident (by decide)
    rw [tokenStep_identifier hident]
    simp [hslash]
  · rw [tokenStep_number hbare hopens]
    simpa using hbare.comment
  · rw [tokenStep_operator hbare hopens]
    simpa using hbare.comment

/-- **A text without comment tokens is one in which no comment begins.** -/
theorem commentFree_iff {t : Text} : CommentFree t ↔ ∀ u ∈ tokens t, u.kind ≠ .comment := by
  constructor
  · intro h
    have hpieces : ∀ p ∈ scan tokenStep () t, p.note ≠ .comment :=
      forall_mem_scan (fun _ c rest hsuffix hnote => note_eq_comment_iff.mp hnote
        (h c rest hsuffix)) ()
    intro u hu
    rw [tokens_eq] at hu
    obtain ⟨p, hp, rfl⟩ := List.mem_map.mp hu
    exact hpieces p hp
  · intro h
    induction t using tokenInduction with
    | nil =>
      intro c rest hsuffix
      simp at hsuffix
    | cons c rest ih =>
      set n := (tokenStep () c rest).extra
      rw [tokens_cons, List.forall_mem_cons] at h
      intro d more hsuffix
      rcases List.suffix_cons_iff.mp hsuffix with heq | hsuffix
      · cases heq
        by_contra hopener
        exact h.1 (note_eq_comment_iff.mpr hopener)
      · rcases List.suffix_or_suffix_of_suffix hsuffix (List.drop_suffix n rest) with
          hlater | ⟨front, hfront⟩
        · exact ih h.2 d more hlater
        · cases front with
          | nil => exact ih h.2 d more (hfront ▸ List.suffix_refl _)
          | cons e front =>
            -- the character stands within the token
            obtain ⟨rfl, rfl⟩ := List.cons.inj hfront
            obtain ⟨before, hrest⟩ := hsuffix
            have htake : rest.take n = before ++ e :: front := by
              refine List.append_cancel_right ((List.take_append_drop n rest).trans ?_)
              rw [List.append_assoc]
              exact hrest.symm
            rintro rfl
            have hmem : '/' ∈ rest.take n := by simp [htake]
            exact absurd rfl (ne_slash_of_mem_token h.1 '/' hmem)

/-- Without comments, the visible tokens are those that carry meaning. -/
theorem CommentFree.significant_eq {t : Text} (h : CommentFree t) :
    significant (tokens t) = visible t := by
  apply List.filter_congr
  intro u hu
  have hcomment := commentFree_iff.mp h u hu
  cases hkind : u.kind <;> simp_all [isSignificant]

theorem commentFree_iff_visible {t : Text} :
    CommentFree t ↔ ∀ u ∈ visible t, u.kind ≠ .comment := by
  rw [commentFree_iff]
  constructor
  · exact fun h u hu => h u (List.mem_filter.mp hu).1
  · intro h u hu hcomment
    exact h u (List.mem_filter.mpr ⟨hu, by simp [hcomment]⟩) hcomment

/-- **A text without comments can be cut before a stop that completes no comment sign.** -/
theorem CommentFree.visible_append {t w : Text} (h : CommentFree t) (hw : Stops w)
    (hopener : w.head? ≠ some '/' ∧ w.head? ≠ some '*') :
    visible (t ++ w) = visible t ++ visible w := by
  induction hn : t.length using Nat.strong_induction_on generalizing t with
  | _ n ih =>
    cases t with
    | nil => simp
    | cons c rest =>
      rw [List.length_cons] at hn
      have hlater : ∀ k, visible (rest.drop k ++ w) = visible (rest.drop k) ++ visible w := by
        intro k
        refine ih (rest.drop k).length ?_ ?_ rfl
        · rw [List.length_drop]
          omega
        · exact h.of_suffix ((List.drop_suffix k rest).trans (List.suffix_cons c rest))
      by_cases hblank : isBlank c = true
      · rw [List.cons_append, visible_blank hblank, visible_blank hblank]
        exact hlater 0
      · have hblank : isBlank c = false := Bool.not_eq_true _ ▸ hblank
        have hrest : NoOpener c (rest ++ w) := (h c rest (List.suffix_refl _)).append hopener
        obtain ⟨hsame, hle⟩ := tokenStep_append hw hblank hrest
        rw [List.cons_append, visible_cons hblank, visible_cons hblank, hsame,
          List.take_append_of_le_length hle, List.drop_append_of_le_length hle, List.cons_append,
          hlater]

theorem CommentFree.append {t w : Text} (h : CommentFree t) (hcomments : CommentFree w)
    (hw : Stops w) (hopener : w.head? ≠ some '/' ∧ w.head? ≠ some '*') : CommentFree (t ++ w) := by
  rw [commentFree_iff_visible] at hcomments ⊢
  rw [h.visible_append hw hopener, List.forall_mem_append]
  exact ⟨commentFree_iff_visible.mp h, hcomments⟩

/-! ## Tokens read back -/

/-- What the scanner reads as one token that carries meaning. -/
inductive Lexeme : Token Kind → Prop where
  | identifier {x : Text} (h : IsIdentifier x) : Lexeme ⟨.identifier, x⟩
  | number {c : Char} {rest : Text} (h : opensNumber c rest = true) :
    Lexeme ⟨.number, (c :: rest).take (numberLength (c :: rest))⟩
  | operator {c : Char} (hblank : isBlank c = false) (hident : isIdentStart c = false)
    (hdigit : isAsciiDigit c = false) : Lexeme ⟨.operator, [c]⟩

theorem lexeme_of_mem_tokens {source : Text} {t : Token Kind} (ht : t ∈ tokens source)
    (hsignificant : isSignificant t = true) : Lexeme t := by
  have hpieces : ∀ p ∈ scan tokenStep () source, isSignificant (Token.ofPiece p) = true →
      Lexeme (Token.ofPiece p) := by
    refine forall_mem_scan (fun _ c rest _ hp => ?_) ()
    rcases tokenStep_cases c rest with
      hblank | ⟨rfl, more, rfl⟩ | ⟨rfl, more, rfl⟩ | hident | ⟨hbare, hopens⟩ | ⟨hbare, hopens⟩
    · rw [tokenStep_blank hblank] at hp
      cases hp
    · rw [tokenStep_line] at hp
      cases hp
    · rw [tokenStep_block] at hp
      cases hp
    · have hnote : (tokenStep () c rest).note = .identifier := by
        rw [tokenStep_identifier hident]
      have hword := (isIdentifier_of_tokenStep hnote).2
      rw [Token.ofPiece, hnote]
      exact .identifier hword
    · have hpos := numberLength_pos hopens
      have htext : c :: rest.take (numberLength (c :: rest) - 1) =
          (c :: rest).take (numberLength (c :: rest)) := by
        rw [← List.take_succ_cons, Nat.sub_add_cancel hpos]
      rw [tokenStep_number hbare hopens, Token.ofPiece, htext]
      exact .number hopens
    · have hdigit : isAsciiDigit c = false := by
        rw [opensNumber, Bool.or_eq_false_iff] at hopens
        exact hopens.1
      rw [tokenStep_operator hbare hopens, Token.ofPiece, List.take_zero]
      exact .operator hbare.blank hbare.identifier hdigit
  rw [tokens_eq] at ht
  obtain ⟨p, hp, rfl⟩ := List.mem_map.mp ht
  exact hpieces p hp hsignificant

/-- The character may stand directly behind the token and is not taken into it. -/
def Allows (t : Token Kind) (d : Char) : Prop :=
  match t.kind with
  | .identifier => isIdentChar d = false
  | .number => EndsNumber d
  | .operator => (t.text = ['/'] → d ≠ '/' ∧ d ≠ '*') ∧ (t.text = ['.'] → isAsciiDigit d = false)
  | _ => True

/-- A number begins with a digit, or with a point and a digit. -/
theorem opensNumber_cases {c : Char} {rest : Text} (h : opensNumber c rest = true) :
    isAsciiDigit c = true ∨ c = '.' ∧ ∃ d more, rest = d :: more ∧ isAsciiDigit d = true := by
  rw [opensNumber, Bool.or_eq_true, Bool.and_eq_true] at h
  refine h.imp_right fun hpair => ⟨eq_of_beq hpair.1, ?_⟩
  have hdigit := hpair.2
  cases rest with
  | nil => cases hdigit
  | cons d more => exact ⟨d, more, rfl, hdigit⟩

theorem bare_of_opensNumber {c : Char} {rest : Text} (h : opensNumber c rest = true)
    (tail : Text) : Bare c tail := by
  rcases opensNumber_cases h with hdigit | ⟨rfl, -⟩
  · have hrange := Stylesheet.toNat_of_isAsciiDigit hdigit
    refine ⟨?_, ?_, ?_⟩
    · simp only [isBlank, Bool.or_eq_false_iff, Bool.and_eq_false_iff, decide_eq_false_iff_not,
        beq_eq_false_iff_ne]
      omega
    · by_contra hident
      have := toNat_of_isIdentStart (Bool.not_eq_false _ ▸ hident)
      omega
    · rintro rfl
      exact absurd hdigit (by decide)
  · exact ⟨by decide, by decide, fun hc => absurd hc (by decide)⟩

/-- A point at the beginning of a number has a digit behind it. -/
theorem two_le_numberLength {d : Char} (hd : isAsciiDigit d = true) (more : Text) :
    2 ≤ numberLength ('.' :: d :: more) := by
  have hhex : hexLength ('.' :: d :: more) = 0 :=
    hexLength_eq_zero fun x rest heq => absurd (List.cons.inj heq).1 (by decide)
  have hpoint : isDecimalDigit '.' = false := by decide
  have hmantissa : mantissaLength ('.' :: d :: more) =
      1 + ((more.takeWhile isDecimalDigit).length + 1) := by
    simp [mantissaLength, hpoint, isDecimalDigit_of_isAsciiDigit hd]
  rw [numberLength_decimal hhex, hmantissa]
  omega

theorem opensNumber_append {c : Char} {rest : Text} (h : opensNumber c rest = true) (tail : Text) :
    opensNumber c (rest ++ tail) = true := by
  rcases opensNumber_cases h with hdigit | ⟨rfl, d, more, rfl, hdigit⟩ <;> simp [opensNumber, hdigit]

/-- The characters of a number open one. -/
theorem opensNumber_take {c : Char} {rest : Text} {n : Nat} (h : opensNumber c rest = true)
    (hn : numberLength (c :: rest) = n + 1) : opensNumber c (rest.take n) = true := by
  rcases opensNumber_cases h with hdigit | ⟨rfl, d, more, rfl, hdigit⟩
  · simp [opensNumber, hdigit]
  · have htwo := two_le_numberLength hdigit more
    obtain ⟨k, rfl⟩ : ∃ k, n = k + 1 := ⟨n - 1, by omega⟩
    simp [opensNumber, hdigit]

/-- **A token is read back with anything behind it that it allows.** -/
theorem Lexeme.tokens_append {t : Token Kind} (h : Lexeme t) {tail : Text}
    (hallows : ∀ d ∈ tail.head?, Allows t d) : tokens (t.text ++ tail) = t :: tokens tail := by
  cases h with
  | identifier hx =>
    obtain ⟨c, body, rfl, hstart, hbody⟩ := hx
    have hrun := takeWhile_isIdentChar_append hbody hallows
    rw [List.cons_append, tokens_cons, tokenStep_identifier hstart, hrun, List.take_left,
      List.drop_left]
  | number hopens =>
    rename_i c rest
    obtain ⟨n, hn⟩ := Nat.exists_eq_succ_of_ne_zero (Nat.pos_iff_ne_zero.mp (numberLength_pos hopens))
    have hlength : (rest.take n).length = n := by
      apply List.length_take_of_le
      have hle := numberLength_le (c :: rest)
      rw [hn, List.length_cons] at hle
      exact Nat.le_of_succ_le_succ hle
    have hopens' : opensNumber c (rest.take n ++ tail) = true :=
      opensNumber_append (opensNumber_take hopens hn) tail
    have hsame : numberLength (c :: (rest.take n ++ tail)) = n + 1 := by
      have hsame := numberLength_take_append (mantissaLength_pos hopens)
        (fun d hd => .inr (hallows d hd)) fun d hd => (hallows d hd).identifier
      rwa [hn, List.take_succ_cons] at hsame
    rw [hn, List.take_succ_cons, List.cons_append, tokens_cons,
      tokenStep_number (bare_of_opensNumber hopens _) hopens', hsame, Nat.add_sub_cancel,
      List.take_left' hlength, List.drop_left' hlength]
  | operator hblank hident hdigit =>
    rename_i c
    have hbare : Bare c tail := ⟨hblank, hident, fun hc => by
      cases tail with
      | nil => simp
      | cons d tail =>
        have := (hallows d rfl).1 (by rw [hc])
        simpa using this⟩
    have hopens : opensNumber c tail = false := by
      rw [opensNumber, hdigit, Bool.false_or, Bool.and_eq_false_iff]
      by_cases hc : c = '.'
      · right
        cases tail with
        | nil => rfl
        | cons d tail => simpa using (hallows d rfl).2 (by rw [hc])
      · exact .inl (by simpa using hc)
    rw [List.singleton_append, tokens_cons, tokenStep_operator hbare hopens]
    rfl

end WebTrim.Shader
