import WebTrim.Proofs.Shader.Boundary
import WebTrim.Shader.Spacing

/-!
# Code with as little space as possible

The tokens of compact code are those of the code, if it is ASCII and no number stands next to a
point: a point behind a number, or before one, would become part of it.

* `PointsApart` — no number next to a point.
* `allows_of_not_needsSpace` — **tokens that need no space between them do not run together**.
* `visible_compactFrom` — by induction over the tokens, each is read back behind the one before it.
* `visible_compactCode` — **compact code has the tokens of the code**.
* `head?_compactCode`, `getLast?_compactCode` — it begins with its first token and ends with its last.
-/

set_option autoImplicit false

namespace WebTrim.Shader

open Text

/-! ## Characters -/

/-- All characters are ASCII. -/
def Ascii (t : Text) : Prop :=
  ∀ c ∈ t, c.toNat < 0x80

instance (t : Text) : Decidable (Ascii t) :=
  decidable_of_iff (t.all fun c => c.toNat < 0x80) (by simp [Ascii])

theorem Ascii.of_subset {s t : Text} (h : Ascii t) (hsub : s ⊆ t) : Ascii s :=
  fun c hc => h c (hsub hc)

theorem isDecimalDigit_of_ascii {c : Char} (h : c.toNat < 0x80) :
    isDecimalDigit c = isAsciiDigit c := by
  unfold isDecimalDigit decimalDigit?
  cases hdigit : isAsciiDigit c <;> simp [h]

theorem isIdentChar_eq (c : Char) : isIdentChar c = (isIdentStart c || isAsciiDigit c) := by
  unfold isIdentChar isIdentStart isAsciiAlnum
  cases isAsciiLetter c <;> cases isAsciiDigit c <;> simp

theorem isBlank_of_isIdentChar {c : Char} (h : isIdentChar c = true) : isBlank c = false := by
  rw [isIdentChar_eq, Bool.or_eq_true] at h
  rcases h with h | h
  · exact isBlank_of_isIdentStart h
  · have hrange := Stylesheet.toNat_of_isAsciiDigit h
    simp only [isBlank, Bool.or_eq_false_iff, Bool.and_eq_false_iff, decide_eq_false_iff_not,
      beq_eq_false_iff_ne]
    omega

theorem isBlank_of_isWordPart {c : Char} (hascii : c.toNat < 0x80) (h : isWordPart c = true) :
    isBlank c = false := by
  simp only [isWordPart, isDecimalDigit_of_ascii hascii, Bool.or_eq_true, beq_iff_eq] at h
  rcases h with (((h | h) | rfl) | rfl) | rfl
  · exact isBlank_of_isIdentChar h
  · exact isBlank_of_isIdentChar (by rw [isIdentChar_eq, h, Bool.or_true])
  all_goals decide

/-! ## What a token begins with -/

theorem Lexeme.ne_nil {t : Token Kind} (h : Lexeme t) : t.text ≠ [] := by
  cases h with
  | identifier hx =>
    obtain ⟨c, body, rfl, -⟩ := hx
    simp
  | number hopens =>
    have hpos := numberLength_pos hopens
    simp only [ne_eq, List.take_eq_nil_iff]
    simp only [reduceCtorEq, or_false]
    omega
  | operator => simp

theorem Lexeme.head_cases {t : Token Kind} {d : Char} (h : Lexeme t) (hd : d ∈ t.text.head?) :
    (t.kind = .identifier ∧ isIdentStart d = true) ∨
    (t.kind = .number ∧ (isAsciiDigit d = true ∨ d = '.')) ∨
    (t = ⟨.operator, [d]⟩ ∧ isIdentStart d = false ∧ isAsciiDigit d = false) := by
  cases h with
  | identifier hx =>
    obtain ⟨c, body, rfl, hstart, -⟩ := hx
    cases hd
    exact .inl ⟨rfl, hstart⟩
  | number hopens =>
    obtain ⟨n, hn⟩ := Nat.exists_eq_succ_of_ne_zero (Nat.pos_iff_ne_zero.mp (numberLength_pos hopens))
    rw [hn, List.take_succ_cons] at hd
    cases hd
    exact .inr (.inl ⟨rfl, (opensNumber_cases hopens).imp_right And.left⟩)
  | operator hblank hident hdigit =>
    cases hd
    exact .inr (.inr ⟨rfl, hident, hdigit⟩)

/-- A token holds no blank. -/
theorem Lexeme.not_blank {t : Token Kind} (h : Lexeme t) (hascii : Ascii t.text) :
    ∀ c ∈ t.text, isBlank c = false := by
  intro c hc
  have hnarrow := hascii c hc
  cases h with
  | identifier hx =>
    obtain ⟨d, body, rfl, hstart, hbody⟩ := hx
    rcases List.mem_cons.mp hc with rfl | hc
    · exact isBlank_of_isIdentStart hstart
    · exact isBlank_of_isIdentChar (hbody c hc)
  | number hopens => exact isBlank_of_isWordPart hnarrow (isWordPart_of_mem_number c hc)
  | operator hblank =>
    cases List.mem_singleton.mp hc
    exact hblank

/-! ## Tokens that run together -/

/-- Neither of two neighbours is a number with the other a point. -/
def NotBesidePoint (t u : Token Kind) : Prop :=
  ¬(t.kind = .number ∧ u = ⟨.operator, ['.']⟩) ∧ ¬(t = ⟨.operator, ['.']⟩ ∧ u.kind = .number)

instance (t u : Token Kind) : Decidable (NotBesidePoint t u) :=
  inferInstanceAs (Decidable (_ ∧ _))

/-- No number stands next to a point. -/
def PointsApart (ts : List (Token Kind)) : Prop :=
  ts.IsChain NotBesidePoint

instance (ts : List (Token Kind)) : Decidable (PointsApart ts) :=
  inferInstanceAs (Decidable (ts.IsChain NotBesidePoint))

/-- **Tokens that need no space between them do not run together.** Where nothing separated them, a
slash was not followed by what would complete a comment sign. -/
theorem allows_of_not_needsSpace {b t : Token Kind} {separated : Bool} {d : Char} (hb : Lexeme b)
    (ht : Lexeme t) (hd : d ∈ t.text.head?) (hascii : d.toNat < 0x80)
    (happart : NotBesidePoint b t) (hspace : needsSpace b t separated = false)
    (hjoined : separated = false → b.text = ['/'] → d ≠ '/' ∧ d ≠ '*') : Allows b d := by
  have hhead := ht.head_cases hd
  simp only [needsSpace, isWord, Bool.or_eq_false_iff] at hspace
  cases hb with
  | identifier hx =>
    -- only an operator may follow a word directly
    rcases hhead with ⟨hkind, -⟩ | ⟨hkind, -⟩ | ⟨-, hident, hdigit⟩
    · simp [hkind] at hspace
    · simp [hkind] at hspace
    · show isIdentChar d = false
      rw [isIdentChar_eq, hident, hdigit]
      rfl
  | number hopens =>
    rcases hhead with ⟨hkind, -⟩ | ⟨hkind, -⟩ | ⟨rfl, hident, hdigit⟩
    · simp [hkind] at hspace
    · simp [hkind] at hspace
    · refine ⟨(isDecimalDigit_of_ascii hascii).trans hdigit, hident, ?_⟩
      rintro rfl
      exact happart.1 ⟨rfl, rfl⟩
  | operator hblank hident hdigit =>
    refine ⟨fun hslash => ?_, fun hpoint => ?_⟩
    · cases hslash
      cases separated with
      | false => exact hjoined rfl rfl
      | true =>
        rcases hhead with ⟨-, hstart⟩ | ⟨-, hdigit | rfl⟩ | ⟨rfl, -⟩
        · constructor <;>
          · rintro rfl
            exact absurd hstart (by decide)
        · constructor <;>
          · rintro rfl
            exact absurd hdigit (by decide)
        · decide
        · constructor <;>
          · rintro rfl
            exact absurd hspace.2 (by decide)
    · rcases hhead with ⟨-, hstart⟩ | ⟨hkind, -⟩ | ⟨-, -, hdigit⟩
      · exact isAsciiDigit_of_isIdentStart hstart
      · refine absurd ⟨?_, hkind⟩ happart.2
        rw [Token.mk.injEq]
        exact ⟨rfl, hpoint⟩
      · exact hdigit

/-! ## Reading compact code -/

theorem Lexeme.visible_append {t : Token Kind} (h : Lexeme t) {tail : Text}
    (hallows : ∀ d ∈ tail.head?, Allows t d) : visible (t.text ++ tail) = t :: visible tail := by
  have hkind : t.kind ≠ .whitespace := by cases h <;> simp
  rw [visible, h.tokens_append hallows, List.filter_cons_of_pos (by simpa using hkind)]
  rfl

/-- Every token allows a space behind it. -/
theorem Lexeme.allows_space {t : Token Kind} (h : Lexeme t) : Allows t ' ' := by
  cases h with
  | identifier => exact (by decide : isIdentChar ' ' = false)
  | number => exact ⟨by decide, by decide, by decide⟩
  | operator => exact ⟨fun _ => by decide, fun _ => by decide⟩

/-- The first token of a text, if it carries meaning. -/
theorem lexeme_of_significant {c : Char} {rest : Text} {ts : List (Token Kind)} {t : Token Kind}
    (htokens : tokens (c :: rest) = t :: ts) (h : isSignificant t = true) : Lexeme t := by
  have hmem : t ∈ tokens (c :: rest) := by simp [htokens]
  exact lexeme_of_mem_tokens hmem h

/-- Behind a slash that carries meaning, nothing completes a comment sign. -/
theorem not_opener_of_significant {c : Char} {rest : Text} {n : Nat}
    (hn : (tokenStep () c rest).extra = n)
    (h : isSignificant ⟨(tokenStep () c rest).note, c :: rest.take n⟩ = true)
    (hslash : c :: rest.take n = ['/']) :
    (rest.drop n).head? ≠ some '/' ∧ (rest.drop n).head? ≠ some '*' := by
  obtain ⟨rfl, htake⟩ := List.cons.inj hslash
  have hdrop : rest.drop n = rest := by
    have happend := List.take_append_drop n rest
    rwa [htake, List.nil_append] at happend
  rw [hdrop]
  by_contra hopener
  have hnote := note_eq_comment_iff.mpr fun hno : NoOpener '/' rest => hopener (hno rfl)
  simp [isSignificant, hnote] at h

/-- **Compact code behind a token is read as that token and those of the code.** -/
theorem visible_compactFrom {rest : Text} {b : Token Kind} {separated : Bool} (hb : Lexeme b)
    (hascii : Ascii rest) (hpoints : PointsApart (b :: significant (tokens rest)))
    (hjoined : separated = false → b.text = ['/'] →
      rest.head? ≠ some '/' ∧ rest.head? ≠ some '*') :
    visible (b.text ++ compactFrom (some b) separated (tokens rest)) =
      b :: significant (tokens rest) := by
  induction rest using tokenInduction generalizing b separated with
  | nil =>
    rw [hb.visible_append (by simp [tokens_eq, compactFrom])]
    simp [tokens_eq, compactFrom, significant]
  | cons c rest ih =>
    generalize hn : (tokenStep () c rest).extra = n at ih
    have hlater : Ascii (rest.drop n) :=
      hascii.of_subset fun d hd => List.mem_cons_of_mem c (List.drop_subset n rest hd)
    have htokens := tokens_cons c rest
    rw [hn] at htokens
    rw [htokens] at hpoints ⊢
    rw [compactFrom]
    by_cases ht : isSignificant ⟨(tokenStep () c rest).note, c :: rest.take n⟩ = true
    · have hlexeme := lexeme_of_significant htokens ht
      have hopener := not_opener_of_significant hn ht
      rw [significant, List.filter_cons_of_pos ht, PointsApart, List.isChain_cons_cons] at hpoints
      rw [if_pos ht, significant, List.filter_cons_of_pos ht]
      have hread := ih hlexeme hlater hpoints.2 fun _ : false = false => hopener
      by_cases hspace : needsSpace b ⟨(tokenStep () c rest).note, c :: rest.take n⟩ separated = true
      · rw [Option.any_some, if_pos hspace, List.append_assoc, List.singleton_append,
          hb.visible_append fun d hd => ?_, visible_blank (by decide), hread]
        · rfl
        · cases hd
          exact hb.allows_space
      · rw [Option.any_some, if_neg hspace, List.nil_append, hb.visible_append fun d hd => ?_, hread]
        · rfl
        · have hd : d ∈ (c :: rest.take n).head? := by simpa using hd
          refine allows_of_not_needsSpace hb hlexeme hd ?_ hpoints.1
            (Bool.not_eq_true _ ▸ hspace) fun hsep hslash => ?_
          · cases hd
            exact hascii c List.mem_cons_self
          · cases hd
            simpa using hjoined hsep hslash
    · rw [significant, List.filter_cons_of_neg ht] at hpoints ⊢
      rw [if_neg ht]
      exact ih hb hlater hpoints fun hsep => by cases hsep

/-- **Compact code has the tokens of the code.** -/
theorem visible_compactCode {source : Text} (hascii : Ascii source)
    (hpoints : PointsApart (significant (tokens source))) :
    visible (compactCode source) = significant (tokens source) := by
  unfold compactCode compact
  generalize false = separated
  induction source using tokenInduction generalizing separated with
  | nil => simp [tokens_eq, compactFrom, significant]
  | cons c rest ih =>
    generalize hn : (tokenStep () c rest).extra = n at ih
    have hlater : Ascii (rest.drop n) :=
      hascii.of_subset fun d hd => List.mem_cons_of_mem c (List.drop_subset n rest hd)
    have htokens := tokens_cons c rest
    rw [hn] at htokens
    rw [htokens] at hpoints ⊢
    rw [compactFrom]
    by_cases ht : isSignificant ⟨(tokenStep () c rest).note, c :: rest.take n⟩ = true
    · rw [significant, List.filter_cons_of_pos ht] at hpoints ⊢
      rw [if_pos ht]
      exact visible_compactFrom (lexeme_of_significant htokens ht) hlater hpoints
        fun _ => not_opener_of_significant hn ht
    · rw [significant, List.filter_cons_of_neg ht] at hpoints ⊢
      rw [if_neg ht]
      exact ih hlater hpoints true

/-! ## The ends of compact code -/

/-- Compact code begins with its first token. -/
theorem head?_compactFrom {ts : List (Token Kind)} {separated : Bool}
    (h : ∀ t ∈ significant ts, t.text ≠ []) :
    (compactFrom none separated ts).head? = (significant ts).head?.bind fun t => t.text.head? := by
  induction ts generalizing separated with
  | nil => rfl
  | cons t ts ih =>
    rw [compactFrom]
    by_cases ht : isSignificant t = true
    · rw [significant, List.filter_cons_of_pos ht] at h ⊢
      have hne := h t List.mem_cons_self
      rw [if_pos ht, Option.any_none, if_neg (by simp), List.nil_append, List.head?_append]
      cases htext : t.text with
      | nil => exact absurd htext hne
      | cons c text => simp [htext]
    · rw [significant, List.filter_cons_of_neg ht] at h ⊢
      rw [if_neg ht]
      exact ih h

/-- Compact code ends with its last token. -/
theorem getLast?_compactFrom {ts : List (Token Kind)}
    (h : ∀ t ∈ significant ts, t.text ≠ [] ∧ ∀ c ∈ t.text, isBlank c = false)
    (before : Option (Token Kind)) (separated : Bool) :
    ∀ c ∈ (compactFrom before separated ts).getLast?, isBlank c = false := by
  induction ts generalizing before separated with
  | nil => simp [compactFrom]
  | cons t ts ih =>
    rw [compactFrom]
    by_cases ht : isSignificant t = true
    · rw [significant, List.filter_cons_of_pos ht, List.forall_mem_cons] at h
      rw [if_pos ht]
      intro c hc
      rw [List.getLast?_append] at hc
      cases hlast : (compactFrom (some t) false ts).getLast? with
      | some d =>
        rw [hlast] at hc
        cases hc
        exact ih h.2 (some t) false c hlast
      | none =>
        rw [hlast, Option.none_or, List.getLast?_append_of_ne_nil _ h.1.1] at hc
        exact h.1.2 c (List.mem_of_getLast? hc)
    · rw [significant, List.filter_cons_of_neg ht] at h
      rw [if_neg ht]
      exact ih h before true

theorem mem_compactFrom {ts : List (Token Kind)} {before : Option (Token Kind)} {separated : Bool}
    {c : Char} (h : c ∈ compactFrom before separated ts) :
    c = ' ' ∨ ∃ t ∈ significant ts, c ∈ t.text := by
  induction ts generalizing before separated with
  | nil => simp [compactFrom] at h
  | cons t ts ih =>
    rw [compactFrom] at h
    by_cases ht : isSignificant t = true
    · rw [significant, List.filter_cons_of_pos ht]
      rw [if_pos ht, List.mem_append, List.mem_append] at h
      rcases h with (h | h) | h
      · split at h
        · exact .inl (List.mem_singleton.mp h)
        · cases h
      · exact .inr ⟨t, List.mem_cons_self, h⟩
      · exact (ih h).imp_right fun ⟨u, hu, hc⟩ => ⟨u, List.mem_cons_of_mem t hu, hc⟩
    · rw [significant, List.filter_cons_of_neg ht]
      rw [if_neg ht] at h
      exact ih h

theorem lexeme_of_mem_significant {source : Text} {t : Token Kind}
    (h : t ∈ significant (tokens source)) : Lexeme t :=
  lexeme_of_mem_tokens (List.mem_filter.mp h).1 (List.mem_filter.mp h).2

theorem subset_of_mem_significant {source : Text} {t : Token Kind}
    (h : t ∈ significant (tokens source)) : t.text ⊆ source := by
  intro c hc
  rw [← join_tokens source]
  exact List.mem_flatMap.mpr ⟨t, (List.mem_filter.mp h).1, hc⟩

@[simp] theorem compactCode_nil : compactCode [] = [] := by
  simp [compactCode, compact, tokens_eq, compactFrom]

/-- Code that begins with a character other than a blank keeps it, unless a comment begins there. -/
theorem head?_compactCode {c : Char} {rest : Text} (hblank : isBlank c = false)
    (h : NoOpener c rest) : (compactCode (c :: rest)).head? = some c := by
  have hne : ∀ t ∈ significant (tokens (c :: rest)), t.text ≠ [] :=
    fun t ht => (lexeme_of_mem_significant ht).ne_nil
  have hnote : (tokenStep () c rest).note ≠ .comment := fun hnote => note_eq_comment_iff.mp hnote h
  have hfirst : isSignificant
      ⟨(tokenStep () c rest).note, c :: rest.take (tokenStep () c rest).extra⟩ = true := by
    simp [isSignificant, hnote, note_ne_whitespace hblank]
  rw [compactCode, compact, head?_compactFrom hne, tokens_cons, significant,
    List.filter_cons_of_pos hfirst]
  rfl

/-- Compact code holds no blank but spaces. -/
theorem mem_compactCode {source : Text} (hascii : Ascii source) {c : Char}
    (h : c ∈ compactCode source) : c = ' ' ∨ isBlank c = false ∧ c ∈ source := by
  refine (mem_compactFrom h).imp_right fun ⟨t, ht, hc⟩ => ?_
  have hsub := subset_of_mem_significant ht
  exact ⟨(lexeme_of_mem_significant ht).not_blank (hascii.of_subset hsub) c hc, hsub hc⟩

/-- Compact code does not end with a blank. -/
theorem getLast?_compactCode {source : Text} (hascii : Ascii source) :
    ∀ c ∈ (compactCode source).getLast?, isBlank c = false := by
  refine getLast?_compactFrom (fun t ht => ?_) none false
  have hlexeme := lexeme_of_mem_significant ht
  exact ⟨hlexeme.ne_nil, hlexeme.not_blank (hascii.of_subset (subset_of_mem_significant ht))⟩

end WebTrim.Shader
