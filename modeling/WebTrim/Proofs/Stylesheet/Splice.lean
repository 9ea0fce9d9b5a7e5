import WebTrim.Proofs.Calc.Call
import WebTrim.Proofs.Color.Fold
import WebTrim.Proofs.Token

/-!
# Folding touches code only

Folding a stylesheet puts literals in the place of calls. A call ends with a bracket and a literal
holds no quote, slash or backslash, so wherever a call stands in the code, also behind a backslash
that escapes its first letter, the scanner is in the same situation after the literal as it was after
the call. The strings and comments behind it are cut as before.

* `Splices` — a text with literals in the place of some calls.
* `IsCode` — a text that the scanner takes for code, given what follows it; `Splices.isCode`: it stays
  code.
* `Takes` — the string or comment that the scanner takes in front of a text; `Takes.splices`: it is the
  same in front of a text with literals.
* `Cut` — a token list that the scanner cuts; `cut_tokens`, `Cut.splices`.
* `fold_touches_code_only` — **folding keeps strings and comments and only makes a stylesheet
  smaller**.
-/

set_option autoImplicit false

namespace WebTrim

open Text Stylesheet

namespace Stylesheet

/-! ## Literals in the place of calls -/

/-- The literal may stand in the place of the call. -/
structure Replaces (literal call : Text) : Prop where
  nonempty : literal ≠ []
  quiet : ∀ c ∈ literal, c ∉ ['\\', '/', '*', '"', '\'']
  newline : call.head? ≠ some '\n'
  closed : ∃ front, call = front ++ [')']
  smaller : byteLength literal < byteLength call

/-- The second text is the first with literals in the place of some calls. -/
inductive Splices : Text → Text → Prop where
  | nil : Splices [] []
  | keep (c : Char) {t u : Text} (h : Splices t u) : Splices (c :: t) (c :: u)
  | replace {literal call t u : Text} (hliteral : Replaces literal call) (h : Splices t u) :
      Splices (call ++ t) (literal ++ u)

namespace Splices

variable {s t u v : Text}

theorem refl (t : Text) : Splices t t := by
  induction t with
  | nil => exact .nil
  | cons c t ih => exact .keep c ih

theorem append (h : Splices s t) (h' : Splices u v) : Splices (s ++ u) (t ++ v) := by
  induction h with
  | nil => exact h'
  | keep c _ ih => exact .keep c ih
  | replace hliteral _ ih =>
    rw [List.append_assoc, List.append_assoc]
    exact .replace hliteral ih

theorem of_replaces {literal call : Text} (h : Replaces literal call) : Splices call literal := by
  have := Splices.replace h .nil
  rwa [List.append_nil, List.append_nil] at this

theorem shrinks (h : Splices t u) : ShrinksTo t u := by
  induction h with
  | nil => exact .refl _
  | keep c _ ih => exact (ShrinksTo.refl [c]).append ih
  | replace hliteral _ ih => exact (ShrinksTo.of_lt hliteral.smaller).append ih

/-- Nothing comes of nothing. -/
theorem eq_nil (h : Splices [] u) : u = [] := by
  generalize hnil : ([] : Text) = t at h
  cases h with
  | nil => rfl
  | keep => cases hnil
  | replace hliteral =>
    obtain ⟨front, rfl⟩ := hliteral.closed
    simp at hnil

/-- A newline stays at the beginning of a text. -/
theorem head?_newline (h : Splices t u) (ht : t.head? = some '\n') : u.head? = some '\n' := by
  cases h with
  | nil => cases ht
  | keep c h => exact ht
  | @replace literal call t u hliteral h =>
    obtain ⟨front, rfl⟩ := hliteral.closed
    refine absurd ?_ hliteral.newline
    cases front <;> exact ht

/-- A star comes to the beginning of a text only from there. -/
theorem head?_star (h : Splices t u) (hu : u.head? = some '*') : t.head? = some '*' := by
  cases h with
  | nil => exact hu
  | keep c h => exact hu
  | @replace literal call t u hliteral h =>
    obtain ⟨c, rest, rfl⟩ := List.exists_cons_of_ne_nil hliteral.nonempty
    cases hu
    exact absurd (by simp) (hliteral.quiet '*' List.mem_cons_self)

end Splices

/-! ## Code -/

/-- Does the scanner take the text for code if `rest` follows? If `escaped`, a backslash stands before
the text and escapes its first character. -/
def IsCode (rest : Text) : (escaped : Bool) → Text → Prop
  | false, [] => True
  | true, [] => rest = []
  | true, _ :: t => IsCode rest false t
  | false, c :: t =>
    if c = '\\' then IsCode rest true t
    else c ≠ '"' ∧ c ≠ '\'' ∧ (c = '/' → (t ++ rest).head? ≠ some '*') ∧ IsCode rest false t

section IsCode

variable {rest t : Text} {escaped : Bool}

theorem isCode_cons {c : Char} (hc : c ≠ '\\') :
    IsCode rest false (c :: t) ↔
      c ≠ '"' ∧ c ≠ '\'' ∧ (c = '/' → (t ++ rest).head? ≠ some '*') ∧ IsCode rest false t := by
  rw [IsCode, if_neg hc]

/-- A character stays code if the text behind it stays code and no comment begins with it. -/
theorem IsCode.keep {rest' t' : Text} {c : Char} (h : IsCode rest escaped (c :: t))
    (ht : ∀ {escaped}, IsCode rest escaped t → IsCode rest' escaped t')
    (hstar : (t' ++ rest').head? = some '*' → (t ++ rest).head? = some '*') :
    IsCode rest' escaped (c :: t') := by
  cases escaped with
  | true => exact @ht false h
  | false =>
    by_cases hc : c = '\\'
    · subst hc
      exact @ht true h
    · obtain ⟨hdouble, hsingle, hslash, htail⟩ := (isCode_cons hc).mp h
      exact (isCode_cons hc).mpr ⟨hdouble, hsingle, fun heq hnext => hslash heq (hstar hnext), ht htail⟩

/-- Behind a character that is no backslash nothing is escaped. -/
theorem IsCode.behind {front : Text} {c : Char} (hc : c ≠ '\\')
    (h : IsCode rest escaped (front ++ c :: t)) : IsCode rest false t := by
  induction front generalizing escaped with
  | nil =>
    cases escaped with
    | true => exact h
    | false => exact ((isCode_cons hc).mp h).2.2.2
  | cons d front ih =>
    cases escaped with
    | true => exact ih h
    | false =>
      by_cases hd : d = '\\'
      · subst hd
        exact @ih true h
      · exact ih ((isCode_cons hd).mp h).2.2.2

/-- A literal is code wherever it stands, and nothing behind it is escaped. -/
theorem IsCode.literal {literal : Text} (hne : literal ≠ [])
    (hquiet : ∀ c ∈ literal, c ∉ ['\\', '/', '*', '"', '\'']) (h : IsCode rest false t)
    (escaped : Bool) : IsCode rest escaped (literal ++ t) := by
  have hplain : ∀ l : Text, (∀ c ∈ l, c ∉ ['\\', '/', '*', '"', '\'']) →
      IsCode rest false (l ++ t) := by
    intro l hl
    induction l with
    | nil => exact h
    | cons c l ih =>
      obtain ⟨hc, hl⟩ := List.forall_mem_cons.mp hl
      simp only [List.mem_cons, List.not_mem_nil, or_false, not_or] at hc
      exact (isCode_cons hc.1).mpr ⟨hc.2.2.2.1, hc.2.2.2.2, fun hslash => absurd hslash hc.2.1, ih hl⟩
  cases escaped with
  | false => exact hplain literal hquiet
  | true =>
    obtain ⟨c, l, rfl⟩ := List.exists_cons_of_ne_nil hne
    exact hplain l (List.forall_mem_cons.mp hquiet).2

/-- **Code stays code.** The induction carries whether the first character is escaped: the call and
the literal in its place end with a character that escapes nothing. -/
theorem Splices.isCode {u rest' : Text} (h : Splices t u) (hrest : Splices rest rest')
    (hcode : IsCode rest escaped t) : IsCode rest' escaped u := by
  induction h generalizing escaped with
  | nil =>
    cases escaped with
    | false => trivial
    | true =>
      have hnil : rest = [] := hcode
      subst hnil
      exact hrest.eq_nil
  | keep c h ih => exact hcode.keep ih (h.append hrest).head?_star
  | @replace literal call t u hliteral h ih =>
    obtain ⟨front, rfl⟩ := hliteral.closed
    rw [List.append_assoc] at hcode
    exact .literal hliteral.nonempty hliteral.quiet (ih (hcode.behind (by decide))) escaped

end IsCode

/-! ## One step of the scanner -/

theorem tokenStep_comment (more : Text) :
    tokenStep () '/' ('*' :: more) = ⟨1 + lengthThrough ['*', '/'] more, .comment, ()⟩ :=
  rfl

theorem tokenStep_quote {c : Char} (hc : c = '"' ∨ c = '\'') (rest : Text) :
    tokenStep () c rest = ⟨stringLength c rest, .string, ()⟩ := by
  rcases hc with rfl | rfl <;> rfl

theorem tokenStep_plain {c : Char} {rest : Text} (hslash : c ≠ '\\') (hdouble : c ≠ '"')
    (hsingle : c ≠ '\'') (hcomment : c = '/' → rest.head? ≠ some '*') :
    tokenStep () c rest = ⟨0, .code, ()⟩ := by
  have hopens : ¬(c = '/' ∧ rest.head? = some '*') := fun h => hcomment h.1 h.2
  simp only [tokenStep, hslash, hopens, hdouble, hsingle, or_self, if_false]

/-- All that the scanner can do. -/
theorem tokenStep_cases (c : Char) (rest : Text) :
    c = '\\' ∨ (c ≠ '\\' ∧ c ≠ '"' ∧ c ≠ '\'' ∧ (c = '/' → rest.head? ≠ some '*')) ∨
      (c = '/' ∧ ∃ more, rest = '*' :: more) ∨ c = '"' ∨ c = '\'' := by
  by_cases hcomment : c = '/' ∧ rest.head? = some '*'
  · exact .inr (.inr (.inl ⟨hcomment.1, List.head?_eq_some_iff.mp hcomment.2⟩))
  · by_cases hslash : c = '\\'
    · exact .inl hslash
    · by_cases hquote : c = '"' ∨ c = '\''
      · exact .inr (.inr (.inr hquote))
      · rw [not_or] at hquote
        exact .inr (.inl ⟨hslash, hquote.1, hquote.2, fun h h' => hcomment ⟨h, h'⟩⟩)

/-- What the scanner takes for code extends the code behind it. -/
theorem isCode_step {c : Char} {rest t after : Text} (h : (tokenStep () c rest).note = .code)
    (hrest : rest.drop (tokenStep () c rest).extra = t ++ after) (hcode : IsCode after false t) :
    IsCode after false (c :: rest.take (tokenStep () c rest).extra ++ t) := by
  rcases tokenStep_cases c rest with rfl | ⟨hslash, hdouble, hsingle, hcomment⟩ |
    ⟨rfl, more, rfl⟩ | hquote
  · cases rest with
    | nil =>
      obtain ⟨rfl, rfl⟩ := List.append_eq_nil_iff.mp hrest.symm
      exact rfl
    | cons d rest => exact hcode
  · rw [tokenStep_plain hslash hdouble hsingle hcomment] at hrest ⊢
    have hrest : rest = t ++ after := hrest
    exact (isCode_cons hslash).mpr ⟨hdouble, hsingle, hrest ▸ hcomment, hcode⟩
  · cases h
  · rw [tokenStep_quote hquote] at h
    cases h

/-- The scanner takes the text for code if `rest` follows. -/
def ScansAsCode (t rest : Text) : Prop :=
  ∃ pieces, (∀ p ∈ pieces, p.note = Kind.code) ∧
    scan tokenStep () (t ++ rest) = pieces ++ scan tokenStep () rest

theorem ScansAsCode.nil (rest : Text) : ScansAsCode [] rest :=
  ⟨[], by simp, rfl⟩

theorem ScansAsCode.step {c : Char} {t more rest : Text} (h : ScansAsCode more rest)
    (hstep : tokenStep () c (t ++ (more ++ rest)) = ⟨t.length, .code, ()⟩) :
    ScansAsCode (c :: (t ++ more)) rest := by
  obtain ⟨pieces, hpieces, hscan⟩ := h
  refine ⟨⟨c :: t, .code⟩ :: pieces, List.forall_mem_cons.mpr ⟨rfl, hpieces⟩, ?_⟩
  rw [List.cons_append, List.append_assoc, scan_cons, hstep, List.take_left, List.drop_left, hscan]
  rfl

/-- **Code is scanned as code.** Behind a backslash the induction speaks of the text with it. -/
theorem scansAsCode_of_isCode (rest t : Text) :
    (IsCode rest false t → ScansAsCode t rest) ∧
      (IsCode rest true t → ScansAsCode ('\\' :: t) rest) := by
  induction t with
  | nil =>
    refine ⟨fun _ => .nil rest, fun h => ?_⟩
    have hnil : rest = [] := h
    subst hnil
    exact ⟨[⟨['\\'], .code⟩], by simp, by rw [List.append_nil, scan_cons]; rfl⟩
  | cons c t ih =>
    refine ⟨fun h => ?_, fun h => ?_⟩
    · by_cases hc : c = '\\'
      · subst hc
        exact ih.2 h
      · obtain ⟨hdouble, hsingle, hslash, htail⟩ := (isCode_cons hc).mp h
        exact (ih.1 htail).step (t := []) (tokenStep_plain hc hdouble hsingle hslash)
    · exact (ih.1 h).step (t := [c]) rfl

/-! ## Strings and comments -/

section StringLength

variable {quote : Char}

theorem stringLength_newline (hquote : quote ≠ '\n') (t : Text) :
    stringLength quote ('\n' :: t) = 0 := by
  cases t <;> simp [stringLength, hquote.symm]

theorem stringLength_plain {c : Char} (hslash : c ≠ '\\') (hquote : c ≠ quote) (hline : c ≠ '\n')
    (t : Text) : stringLength quote (c :: t) = 1 + stringLength quote t := by
  cases t <;> simp [stringLength, hslash, hquote, hline]

theorem stringLength_closing (hquote : quote ≠ '\n') (hslash : quote ≠ '\\') (t : Text) :
    stringLength quote (quote :: t) = 1 := by
  cases t <;> simp [stringLength, hquote, hslash]

/-- How far a string goes depends on its own text. What stands behind it counts only if the string is
not closed: then it ends at a newline or at the end of the text. -/
theorem stringLength_take_append (hquote : quote ≠ '\n') (hslash : quote ≠ '\\') {t other : Text}
    (hempty : t.drop (stringLength quote t) = [] → other = [])
    (hline : (t.drop (stringLength quote t)).head? = some '\n' → other.head? = some '\n') :
    stringLength quote (t.take (stringLength quote t) ++ other) = stringLength quote t := by
  fun_induction stringLength quote t with
  | case1 =>
    rw [hempty rfl]
    rfl
  | case2 =>
    obtain ⟨more, rfl⟩ := List.head?_eq_some_iff.mp (hline rfl)
    exact stringLength_newline hquote more
  | case3 c hc =>
    rw [hempty rfl]
    simp [stringLength, hc]
  | case4 d rest ih =>
    rw [Nat.add_comm] at hempty hline ⊢
    simp only [List.drop_succ_cons, List.take_succ_cons, List.cons_append] at hempty hline ⊢
    rw [stringLength, if_pos rfl, ih hempty hline, Nat.add_comm]
  | case5 d rest => exact stringLength_closing hquote hslash other
  | case6 d rest =>
    obtain ⟨more, rfl⟩ := List.head?_eq_some_iff.mp (hline rfl)
    exact stringLength_newline hquote more
  | case7 c d rest hbackslash hclosing hnewline ih =>
    rw [Nat.add_comm] at hempty hline ⊢
    simp only [List.drop_succ_cons, List.take_succ_cons, List.cons_append] at hempty hline ⊢
    rw [stringLength_plain hbackslash hclosing hnewline, ih hempty hline, Nat.add_comm]

end StringLength

/-- The scanner takes the token in front of `after`. -/
def Takes (token : Token Kind) (after : Text) : Prop :=
  ∃ c rest, token = ⟨(tokenStep () c rest).note, c :: rest.take (tokenStep () c rest).extra⟩ ∧
    after = rest.drop (tokenStep () c rest).extra

namespace Takes

variable {token : Token Kind} {after after' : Text}

theorem scan_eq (h : Takes token after) :
    scan tokenStep () (token.text ++ after) =
      ⟨token.text, token.kind⟩ :: scan tokenStep () after := by
  obtain ⟨c, rest, rfl, rfl⟩ := h
  rw [List.cons_append, List.take_append_drop, scan_cons]

/-- A string or a comment is taken in front of every text that is empty or begins with a newline if the
text after it does. -/
theorem of_after (h : Takes token after) (hkind : token.kind ≠ .code)
    (hempty : after = [] → after' = [])
    (hline : after.head? = some '\n' → after'.head? = some '\n') : Takes token after' := by
  obtain ⟨c, rest, rfl, rfl⟩ := h
  suffices hstep : tokenStep () c (rest.take (tokenStep () c rest).extra ++ after') =
      tokenStep () c rest by
    refine ⟨c, rest.take (tokenStep () c rest).extra ++ after', ?_, ?_⟩
    · rw [hstep, take_append_of_short hempty]
    · rw [hstep, drop_append_of_short hempty]
  rcases tokenStep_cases c rest with rfl | ⟨hslash, hdouble, hsingle, hcomment⟩ |
    ⟨rfl, more, rfl⟩ | hquote
  · exact absurd rfl hkind
  · rw [tokenStep_plain hslash hdouble hsingle hcomment] at hkind
    exact absurd rfl hkind
  · simp only [tokenStep_comment, Nat.add_comm 1, List.drop_succ_cons, List.take_succ_cons,
      List.cons_append] at hempty ⊢
    rw [lengthThrough_take_append hempty]
  · have hquote' : c ≠ '\n' ∧ c ≠ '\\' := by
      rcases hquote with rfl | rfl <;> decide
    simp only [tokenStep_quote hquote] at hempty hline ⊢
    rw [stringLength_take_append hquote'.1 hquote'.2 hempty hline]

/-- **A string or a comment is taken in front of the new text as well.** -/
theorem splices (h : Takes token after) (hkind : token.kind ≠ .code) (hafter : Splices after after') :
    Takes token after' := by
  refine h.of_after hkind (fun hnil => ?_) hafter.head?_newline
  subst hnil
  exact hafter.eq_nil

end Takes

/-! ## Token lists -/

/-- The scanner cuts the text of the tokens into the tokens, where a token of code may stand for
several pieces. -/
inductive Cut : List (Token Kind) → Prop where
  | nil : Cut []
  | code {t : Text} {ts : List (Token Kind)} (hcode : IsCode (Token.join ts) false t) (h : Cut ts) :
      Cut (⟨.code, t⟩ :: ts)
  | inert {token : Token Kind} {ts : List (Token Kind)} (hkind : token.kind ≠ .code)
      (htakes : Takes token (Token.join ts)) (h : Cut ts) : Cut (token :: ts)

/-- A piece of code is merged with the code behind it. -/
theorem Cut.merge {pieces : List (Token Kind)} (h : Cut (Token.mergeRuns .code pieces)) {t : Text}
    (ht : ∀ u after, Token.join (Token.mergeRuns .code pieces) = u ++ after → IsCode after false u →
      IsCode after false (t ++ u)) :
    Cut (Token.mergeRuns .code (⟨.code, t⟩ :: pieces)) := by
  have halone := ht [] _ rfl trivial
  rw [List.append_nil] at halone
  rw [Token.mergeRuns]
  generalize Token.mergeRuns .code pieces = ts at h ht halone
  cases h with
  | nil => exact .code halone .nil
  | code hcode h => exact .code (ht _ _ (Token.join_cons _ _) hcode) h
  | inert hkind htakes h =>
    simp only [true_and, if_neg hkind]
    exact .code halone (.inert hkind htakes h)

/-- **The tokens of a stylesheet are cut by the scanner.** -/
theorem cut_tokens (css : Text) : Cut (tokens css) := by
  rw [tokens_eq]
  fun_induction scan tokenStep () css with
  | case1 => exact .nil
  | case2 state c rest step ih =>
    have hjoin : Token.join (Token.mergeRuns Kind.code
        ((scan tokenStep step.next (rest.drop step.extra)).map Token.ofPiece)) =
        rest.drop step.extra := by
      rw [Token.join_mergeRuns, Token.join_map_ofPiece, scan_text]
    rw [List.map_cons]
    by_cases hkind : step.note = .code
    · rw [hkind]
      exact ih.merge fun t after hsplit => isCode_step hkind (hjoin.symm.trans hsplit)
    · rw [Token.mergeRuns_cons_of_ne hkind]
      exact .inert hkind ⟨c, rest, rfl, hjoin⟩ ih

/-- The strings and comments among the tokens are those of their text. -/
theorem Cut.filter_eq {ts : List (Token Kind)} (h : Cut ts) :
    ((scan tokenStep () (Token.join ts)).map Token.ofPiece).filter (fun t => t.kind ≠ .code) =
      ts.filter fun t => t.kind ≠ .code := by
  induction h with
  | nil => simp
  | @code t ts hcode _ ih =>
    obtain ⟨pieces, hpieces, hscan⟩ := (scansAsCode_of_isCode (Token.join ts) t).1 hcode
    have hcodes : (pieces.map Token.ofPiece).filter (fun t => t.kind ≠ .code) = [] := by
      simpa [Token.ofPiece] using hpieces
    rw [Token.join_cons, hscan, List.map_append, List.filter_append, hcodes, ih]
    simp
  | inert hkind htakes _ ih =>
    rw [Token.join_cons, htakes.scan_eq, List.map_cons, List.filter_cons, List.filter_cons, ih]
    rfl

/-- A token with literals in the place of calls: strings and comments stay. -/
inductive Spliced : Token Kind → Token Kind → Prop where
  | code {t u : Text} (h : Splices t u) : Spliced ⟨.code, t⟩ ⟨.code, u⟩
  | inert {token : Token Kind} (hkind : token.kind ≠ .code) : Spliced token token

theorem splices_join {ts us : List (Token Kind)} (h : List.Forall₂ Spliced ts us) :
    Splices (Token.join ts) (Token.join us) := by
  induction h with
  | nil => exact .nil
  | @cons t u ts us hhead _ ih =>
    rw [Token.join_cons, Token.join_cons]
    cases hhead with
    | code hsplices => exact hsplices.append ih
    | inert hkind => exact (Splices.refl _).append ih

/-- **The new tokens are cut by the scanner**, and the strings and comments among them are the old
ones. -/
theorem Cut.splices {ts us : List (Token Kind)} (h : Cut ts) (hus : List.Forall₂ Spliced ts us) :
    Cut us ∧ us.filter (fun t => t.kind ≠ .code) = ts.filter fun t => t.kind ≠ .code := by
  induction hus with
  | nil => exact ⟨.nil, rfl⟩
  | @cons t u ts us hhead hus ih =>
    have hjoin := splices_join hus
    cases hhead with
    | code hsplices =>
      cases h with
      | code hcode h =>
        obtain ⟨hcut, hfilter⟩ := ih h
        exact ⟨.code (hsplices.isCode hjoin hcode) hcut, hfilter⟩
      | inert hkind => exact absurd rfl hkind
    | inert hkind =>
      cases h with
      | code => exact absurd rfl hkind
      | inert _ htakes h =>
        obtain ⟨hcut, hfilter⟩ := ih h
        refine ⟨.inert hkind (htakes.splices hkind hjoin) hcut, ?_⟩
        rw [List.filter_cons, List.filter_cons, hfilter]

/-- The strings and comments of a stylesheet, in order. -/
def inertTokens (css : Text) : List (Token Kind) :=
  (tokens css).filter fun t => t.kind ≠ .code

theorem inertTokens_join {ts : List (Token Kind)} (h : Cut ts) :
    inertTokens (Token.join ts) = ts.filter fun t => t.kind ≠ .code := by
  rw [inertTokens, tokens_eq, Token.filter_mergeRuns, h.filter_eq]

/-- A step that puts literals in the place of calls keeps strings and comments. -/
theorem inertTokens_mapCodeM {ε : Type} {f : Text → Except ε Text}
    (hf : ∀ t u, f t = .ok u → Splices t u) {css out : Text} (h : mapCodeM f css = .ok out) :
    inertTokens out = inertTokens css ∧ ShrinksTo css out := by
  obtain ⟨texts, htexts, rfl⟩ := exists_of_map_eq_ok h
  have hus : ∀ (ts : List (Token Kind)) (texts : List Text),
      List.Forall₂ (fun t text => (if t.kind = .code then f t.text else .ok t.text) = .ok text)
        ts texts → ∃ us, List.Forall₂ Spliced ts us ∧ Token.join us = texts.flatten := by
    intro ts texts hforall
    induction hforall with
    | nil => exact ⟨[], .nil, rfl⟩
    | @cons t text ts texts hhead _ ih =>
      obtain ⟨us, hus, hjoin⟩ := ih
      obtain ⟨kind, old⟩ := t
      by_cases hkind : kind = .code
      · subst hkind
        exact ⟨⟨.code, text⟩ :: us, .cons (.code (hf _ _ hhead)) hus, by simp [hjoin]⟩
      · rw [if_neg hkind] at hhead
        cases hhead
        exact ⟨⟨kind, old⟩ :: us, .cons (.inert hkind) hus, by simp [hjoin]⟩
  obtain ⟨us, hspliced, hjoin⟩ := hus _ _ (forall₂_of_mapM_eq_ok htexts)
  obtain ⟨hcut, hfilter⟩ := (cut_tokens css).splices hspliced
  have hsplices := splices_join hspliced
  rw [join_tokens] at hsplices
  rw [← hjoin]
  exact ⟨(inertTokens_join hcut).trans hfilter, hsplices.shrinks⟩

end Stylesheet

/-! ## Folding -/

/-- A text is spliced if all its pieces are. -/
theorem splices_of_rewrittenM {σ β ε : Type} {step : σ → Char → Text → Step σ β}
    {out : Piece β → Except ε Text}
    (hout : ∀ s c rest literal,
      out ⟨c :: rest.take (step s c rest).extra, (step s c rest).note⟩ = .ok literal →
        Splices (c :: rest.take (step s c rest).extra) literal)
    {state : σ} {t u : Text} (h : rewrittenM step out state t = .ok u) : Splices t u := by
  obtain ⟨n, hn⟩ : ∃ n, t.length = n := ⟨_, rfl⟩
  induction n using Nat.strong_induction_on generalizing state t u with
  | h n ih =>
    cases t with
    | nil =>
      rw [rewrittenM_nil] at h
      cases h
      exact .nil
    | cons c rest =>
      rw [rewrittenM_of_scan (scan_cons step state c rest)] at h
      obtain ⟨literal, hliteral, hrest⟩ := exists_of_bind_eq_ok h
      obtain ⟨v, hv, rfl⟩ := exists_of_map_eq_ok hrest
      have hshort : (rest.drop (step state c rest).extra).length < n := by
        rw [← hn, List.length_drop, List.length_cons]
        omega
      have := (hout state c rest literal hliteral).append (ih _ hshort hv rfl)
      rwa [List.cons_append, List.take_append_drop] at this

namespace Calc

/-- The literal of a call may stand in its place. -/
theorem replaces_literal {call : Call} {before : Option Char} {literal : Text}
    (h : call.Stands before) (hsome : call.literal? = .ok (some literal)) :
    Replaces literal call.text where
  nonempty := by
    obtain ⟨c, rest, rfl, -⟩ := exists_cons_of_literal? (Call.literal?_eq_some hsome).1
    exact List.cons_ne_nil c rest
  quiet := by
    intro c hc hmem
    have hchar := isLiteralChar_of_literal? (Call.literal?_eq_some hsome).1 c hc
    simp only [List.mem_cons, List.not_mem_nil, or_false] at hmem
    rcases hmem with rfl | rfl | rfl | rfl | rfl <;> exact absurd hchar (by decide)
  newline := by
    obtain ⟨name, hname, hlength, hletters⟩ := h.opening.exists_name
    cases name with
    | nil => cases hlength
    | cons c name =>
      rw [Call.text, hname]
      rintro ⟨⟩
      exact absurd (hletters _ List.mem_cons_self) (by decide)
  closed := ⟨call.opening ++ call.body, rfl⟩
  smaller := (Call.literal?_eq_some hsome).2

theorem Folds.splices {before : Option Char} {t u : Text} (h : Folds before t u) : Splices t u := by
  induction h with
  | nil => exact .nil
  | @plain before c _ _ _ _ ih => exact .keep c ih
  | unclosed => exact .refl _
  | @kept before call after out _ _ _ ih =>
    rw [Call.text_append]
    exact (Splices.refl call.opening).append ih
  | folded hstands hsome _ ih => exact .replace (replaces_literal hstands hsome) ih

end Calc

namespace Color

/-- Conversions write a number sign and hexadecimal digits. -/
def WritesHex {ε : Type} (conv : Text → Except ε (Option Text)) : Prop :=
  ∀ body color, conv body = .ok (some color) →
    ∃ digits, color = '#' :: digits ∧ ∀ c ∈ digits, isHexDigit c = true

theorem splices_of_foldCallsWith {ε : Type} {conv : Text → Except ε (Option Text)}
    (hconv : WritesHex conv) {t u : Text} (h : foldCallsWith conv t = .ok u) : Splices t u := by
  refine splices_of_rewrittenM (fun before c rest literal hliteral => ?_) h
  rcases foldPiece_cases hliteral with rfl | ⟨body, hnote, hcolor, hsmaller⟩
  · exact .refl _
  · obtain ⟨digits, rfl, hdigits⟩ := hconv body literal hcolor
    obtain ⟨opening, hopening, htext⟩ := exists_of_callMatcher (Prod.ext rfl hnote)
    refine .of_replaces ⟨List.cons_ne_nil _ _, ?_, ?_, ⟨opening ++ body, htext⟩, hsmaller⟩
    · refine List.forall_mem_cons.mpr ⟨by decide, fun d hd hmem => ?_⟩
      have hhex := hdigits d hd
      simp only [List.mem_cons, List.not_mem_nil, or_false] at hmem
      rcases hmem with rfl | rfl | rfl | rfl | rfl <;> exact absurd hhex (by decide)
    · rintro ⟨⟩
      -- no call begins at a newline
      have hplain : callMatcher before '\n' rest = (0, none) := callMatcher_plain (by decide)
      simp only [Matcher.step, hplain] at hnote
      cases hnote

end Color

/-- **Folding keeps strings and comments and only makes a stylesheet smaller.** The tokens of a
stylesheet are lossless: their texts concatenate to it, and the recorded places are the sums of the
lengths before them, so that each token begins where the one before it ends, its text standing there.
If folding its calls has a result, the strings and comments of the result are those of the stylesheet,
in the same order, and it is the stylesheet itself or strictly smaller. This holds of colours too, of
which it is used only that they are written with a number sign and hexadecimal digits. -/
theorem fold_touches_code_only (css : Text) :
    (Token.join (tokens css) = css ∧
      (placedTokens css).map Placed.start = Token.starts 0 (tokens css) ∧
      (∀ p ∈ placedTokens css, (css.drop p.start).take p.text.length = p.text) ∧
      (placedTokens css).IsChain fun p q => q.start = p.start + p.text.length) ∧
    (∀ out, Calc.foldStylesheet css = .ok out →
      inertTokens out = inertTokens css ∧ (out = css ∨ byteLength out < byteLength css)) ∧
    (∀ {ε : Type} (conv : Text → Except ε (Option Text)), Color.WritesHex conv →
      ∀ out, Color.foldStylesheetWith conv css = .ok out →
        inertTokens out = inertTokens css ∧ (out = css ∨ byteLength out < byteLength css)) ∧
    ∀ out, Color.foldStylesheet css = .ok out →
      inertTokens out = inertTokens css ∧ (out = css ∨ byteLength out < byteLength css) := by
  have hplaces : Placed.Contiguous 0 (placedTokens css) :=
    (Placed.contiguous_scan tokenStep () 0 css).mergeRuns Kind.code
  refine ⟨⟨join_tokens css, hplaces, ?_, hplaces.isChain⟩, fun out hout => ?_,
    fun conv hconv out hout => ?_, fun out hout => ?_⟩
  · have hslices := hplaces.slice []
    rwa [List.nil_append, ← tokens, join_tokens] at hslices
  · exact inertTokens_mapCodeM (fun t u h => (Calc.foldFrom_eq_ok_iff.mp h).splices) hout
  · exact inertTokens_mapCodeM (fun t u h => Color.splices_of_foldCallsWith hconv h) hout
  · refine inertTokens_mapCodeM (fun t u h => ?_) hout
    exact Color.splices_of_foldCallsWith (fun _ _ => Color.exists_of_convert) h

/-- A string or a comment, and code behind it. -/
theorem mapCodeM_pair {ε : Type} {f : Text → Except ε Text} {css s t u : Text} {kind : Kind}
    (hkind : kind ≠ .code) (htokens : tokens css = [⟨kind, s⟩, ⟨.code, t⟩]) (hf : f t = .ok u) :
    mapCodeM f css = .ok (s ++ u) := by
  rw [mapCodeM, htokens, List.mapM_cons, List.mapM_cons, List.mapM_nil]
  simp only [if_neg hkind, if_true, hf]
  show Except.ok [s, u].flatten = _
  simp

/-- A sum behind a string that holds one, and a colour in front of a comment that holds one. -/
theorem fold_touches_code_only_beside :
    let white : Text → Except Crash (Option Text) := fun _ => .ok (some "#fff".toList)
    Calc.foldStylesheet "'calc(1+2)'calc(1+1)".toList = .ok "'calc(1+2)'2".toList ∧
      inertTokens "'calc(1+2)'2".toList = inertTokens "'calc(1+2)'calc(1+1)".toList ∧
      Color.WritesHex white ∧
      Color.foldStylesheetWith white "oklch(1 0 0)/*oklch(1 0 0)*/".toList =
        .ok "#fff/*oklch(1 0 0)*/".toList ∧
      inertTokens "#fff/*oklch(1 0 0)*/".toList =
        inertTokens "oklch(1 0 0)/*oklch(1 0 0)*/".toList := by
  intro white
  have hcalc : Calc.foldStylesheet "'calc(1+2)'calc(1+1)".toList = .ok "'calc(1+2)'2".toList := by
    have htokens : tokens "'calc(1+2)'calc(1+1)".toList =
        [⟨.string, "'calc(1+2)'".toList⟩, ⟨.code, "calc(1+1)".toList⟩] := by
      decide +kernel
    have hsum : Calc.foldCalls "calc(1+1)".toList = .ok "2".toList := by
      have hstands : (Calc.callOf "1+1").Stands none := Calc.stands_callOf rfl rfl
      have hfolded := Calc.foldFrom_folded hstands Calc.literal?_sum.1 []
      rw [Calc.foldFrom_nil] at hfolded
      exact hfolded
    exact mapCodeM_pair (by decide) htokens hsum
  have hwhite : Color.WritesHex white := by
    rintro body color ⟨⟩
    have hdigits : "fff".toList.all isHexDigit = true := by decide
    exact ⟨"fff".toList, rfl, List.all_eq_true.mp hdigits⟩
  have hcolor : Color.foldStylesheetWith white "oklch(1 0 0)/*oklch(1 0 0)*/".toList =
      .ok "#fff/*oklch(1 0 0)*/".toList := by decide +kernel
  refine ⟨hcalc, ?_, hwhite, hcolor, ?_⟩
  · exact ((fold_touches_code_only _).2.1 _ hcalc).1
  · exact ((fold_touches_code_only _).2.2.1 white hwhite _ hcolor).1

end WebTrim
