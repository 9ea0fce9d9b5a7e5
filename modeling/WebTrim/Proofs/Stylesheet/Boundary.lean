import WebTrim.Proofs.Calc.Call
import WebTrim.Proofs.Color.Fold
import WebTrim.Proofs.Stylesheet.LeadingToken

/-!
# Where a folded literal ends

A call ends with a bracket, so that whatever follows begins a token. The literal in its place ends
where the syntax says.

* `Calc.isLiteral_of_literal?`, `Color.isLiteral_of_convert` — folding writes literals.
* `Boundary` — which texts after a literal are and are not part of its token.
* `WritesLiterals.boundary` — where the literal of a replaced call ends, for calls of both kinds.
* `folded_literal_boundary` — **folding does not look at what follows a call**, and when the literal
  stays a token of its own.
* `sum_fused_with_name` — a number and the name after it become a dimension.
-/

set_option autoImplicit false

namespace WebTrim

open Text Stylesheet

/-! ## What folding writes -/

namespace Calc

/-- The number in the literal of a dimension. -/
def Dimension.decimal (d : Dimension) (places : Nat) : Decimal where
  negative := d.value < 0
  whole := (decimalNumeral places (scaled d.value places)).whole
  fraction := (decimalNumeral places (scaled d.value places)).fraction

theorem Dimension.wellFormed_decimal (d : Dimension) (places : Nat) :
    (d.decimal places).WellFormed where
  wholeDigits _ hc := isAsciiDigit_of_isDigit (isDigit_of_mem_whole hc)
  fractionDigits _ hc := isAsciiDigit_of_isDigit (isDigit_of_mem_fraction hc)
  nonempty := (wellFormed_decimalNumeral places _).digits

theorem Dimension.text_decimal (d : Dimension) (places : Nat) :
    signText d.value ++ (d.numeral places).text = (d.decimal places).text ++ d.shown.unit := by
  have hfraction : (d.decimal places).fraction = [] ↔ places = 0 := by
    rw [← List.length_eq_zero_iff, decimal, length_fraction_decimalNumeral]
  have hsign : (d.decimal places).sign = signText d.value := by
    simp [Decimal.sign, decimal, signText]
  rw [text_numeral, ← text_decimalNumeral, Decimal.text, hsign]
  by_cases hplaces : places = 0
  · rw [if_pos (hfraction.mpr hplaces)]
    simp [Numeral.text, decimal, decimalNumeral, hplaces]
  · rw [if_neg fun h => hplaces (hfraction.mp h)]
    simp [Numeral.text, decimal, decimalNumeral, hplaces]

theorem isLiteral_of_literal? {t s : Text} (h : literal? t = .ok (some s)) : IsLiteral s := by
  obtain ⟨d, places, hvalue, -, rfl, -⟩ := exists_of_literal? h
  rw [Dimension.text_decimal]
  exact .number (d.wellFormed_decimal places)
    (d.wellFormed_numeral (isUnitChar_of_value hvalue) places).unit

/-- What stands in place of a call that is replaced. -/
theorem exists_of_foldPiece {p : Piece (Option Call)} {literal : Text}
    (h : foldPiece p = .ok literal) (hne : literal ≠ p.text) :
    ∃ call, p.note = some call ∧ call.literal? = .ok (some literal) := by
  unfold foldPiece at h
  split at h
  · cases h
    exact absurd rfl hne
  · next call hnote =>
    obtain ⟨found, hfound, hgetD⟩ := exists_of_map_eq_ok h
    cases found with
    | none => exact absurd hgetD.symm hne
    | some found =>
      cases hgetD
      exact ⟨call, hnote, hfound⟩

end Calc

theorem Color.isLiteral_of_convert {t color : Text} (h : Color.convert t = .ok (some color)) :
    IsLiteral color := by
  obtain ⟨digits, rfl, hdigits⟩ := Color.exists_of_convert h
  exact .color hdigits

/-! ## What follows a literal -/

namespace Stylesheet

/-- The token that begins with a literal, if `after` follows the call in the text and `out` follows
the literal in the folded text. -/
structure Boundary (literal after out : Text) : Prop where
  /-- A character that cannot extend the literal ends its token. -/
  separate : (∀ c ∈ after.head?, canExtend c = false ∧
      (c = '+' → literal.getLast? ≠ some 'e' ∧ literal.getLast? ≠ some 'E')) →
    leadingLength (literal ++ out) = leadingLength literal
  /-- A letter, a digit or another character of names becomes part of the token. -/
  fused : ∀ c ∈ out.head?, isIdentChar c = true → c ≠ '-' → '%' ∉ literal →
    literal.length < leadingLength (literal ++ out)

theorem isAsciiLetter_of_canExtend {c : Char} (h : canExtend c = false) :
    isAsciiLetter c = false := by
  by_contra hletter
  have := isIdentChar_of_isAsciiLetter (Bool.not_eq_false _ ▸ hletter)
  rw [(canExtend_eq_false h).1] at this
  cases this

/-- A literal has this boundary if the character after it stays. -/
theorem IsLiteral.boundary {literal after out : Text} (h : IsLiteral literal)
    (hout : (∀ c ∈ after.head?, isAsciiLetter c = false) → out.head? = after.head?) :
    Boundary literal after out where
  separate hafter := by
    refine h.leadingLength_append ?_
    rw [hout fun c hc => isAsciiLetter_of_canExtend (hafter c hc).1]
    exact hafter
  fused c hc hident hhyphen hpercent := by
    obtain ⟨rest, rfl⟩ : ∃ rest, out = c :: rest := ⟨out.tail, (List.cons_head?_tail hc).symm⟩
    exact h.length_lt_leadingLength hident hhyphen hpercent rest

end Stylesheet

/-- A call of a text is replaced by a literal, and `after` follows it. -/
def Replaced {α : Type} (m : Matcher α) (out : Piece (Option α) → Except Crash Text)
    (t literal after : Text) : Prop :=
  ∃ front p back, m.pieces t = front ++ p :: back ∧ out p = .ok literal ∧ literal ≠ p.text ∧
    after = back.flatMap Piece.text

/-- Calls are replaced by literals. A call begins with a letter, so that other characters stay. -/
structure WritesLiterals {α : Type} (m : Matcher α) (out : Piece (Option α) → Except Crash Text) :
    Prop where
  pass : ∀ before c rest, isAsciiLetter c = false →
    scan m.step before (c :: rest) = ⟨[c], none⟩ :: scan m.step (some c) rest
  keep : ∀ c, out ⟨[c], none⟩ = .ok [c]
  isLiteral : ∀ p literal, out p = .ok literal → literal ≠ p.text → IsLiteral literal

section WritesLiterals

variable {α : Type} {m : Matcher α} {out : Piece (Option α) → Except Crash Text} {t u : Text}

theorem WritesLiterals.head?_eq (h : WritesLiterals m out) {before : Option Char}
    (hrewritten : rewrittenM m.step out before t = .ok u)
    (ht : ∀ c ∈ t.head?, isAsciiLetter c = false) : u.head? = t.head? := by
  cases t with
  | nil =>
    rw [rewrittenM_nil] at hrewritten
    cases hrewritten
    rfl
  | cons c t =>
    rw [rewrittenM_of_scan (h.pass before c t (ht c rfl)), h.keep] at hrewritten
    obtain ⟨rest, -, rfl⟩ := exists_of_map_eq_ok hrewritten
    rfl

/-- **Where the literal of a replaced call ends.** -/
theorem WritesLiterals.boundary (h : WritesLiterals m out)
    (hrewritten : rewrittenM m.step out none t = .ok u) {literal after : Text}
    (hreplaced : Replaced m out t literal after) :
    ∃ v w, u = v ++ literal ++ w ∧ Boundary literal after w := by
  obtain ⟨front, p, back, hpieces, hliteral, hne, rfl⟩ := hreplaced
  obtain ⟨v, w, next, rfl, hw⟩ := exists_of_rewrittenM hrewritten hpieces hliteral
  exact ⟨v, w, rfl, (h.isLiteral p literal hliteral hne).boundary (h.head?_eq hw)⟩

end WritesLiterals

namespace Calc

theorem writesLiterals : WritesLiterals callMatcher foldPiece where
  pass _ _ _ h := scan_plain (plain_of_isAsciiLetter h)
  keep _ := rfl
  isLiteral p literal hliteral hne := by
    obtain ⟨call, -, hsome⟩ := exists_of_foldPiece hliteral hne
    exact isLiteral_of_literal? (Call.literal?_eq_some hsome).1

/-- A call at the beginning of a text is replaced whatever follows it. -/
theorem foldCalls_call {call : Call} {literal : Text} (h : call.Stands none)
    (hsome : call.literal? = .ok (some literal)) (after : Text) :
    foldCalls (call.text ++ after) = (foldCalls after).map (literal ++ ·) := by
  have hword : opensWord (some ')') = opensWord none := by decide
  rw [foldCalls_eq, foldCalls_eq, foldFrom_folded h hsome, foldFrom_of_opensWord hword]

theorem replaced_call {call : Call} {literal : Text} (h : call.Stands none)
    (hsome : call.literal? = .ok (some literal)) (after : Text) :
    Replaced callMatcher foldPiece (call.text ++ after) literal after := by
  have hne : call.literal? ≠ .ok none := by simp [hsome]
  refine ⟨[], ⟨call.text, some call⟩, _, scan_taken h hne after, ?_, ?_,
    (scan_text _ _ after).symm⟩
  · simp only [foldPiece, hsome]
    rfl
  · rintro rfl
    exact Nat.lt_irrefl _ (Call.literal?_eq_some hsome).2

end Calc

namespace Color

theorem writesLiterals : WritesLiterals callMatcher (foldPiece convert) where
  pass before c rest h := by
    rw [scan_cons]
    simp [Matcher.step, callMatcher_plain h]
  keep _ := rfl
  isLiteral p literal hliteral hne := by
    obtain ⟨body, -, hsome⟩ := exists_of_foldPiece hliteral hne
    exact isLiteral_of_convert hsome

/-- A call at the beginning of a text is replaced whatever follows it. -/
theorem foldCalls_call {opening body color : Text} (hopening : Spelling "oklch(".toList opening)
    (hinside : '(' ∉ body) (hclosing : ')' ∉ body) (hcolor : convert body = .ok (some color))
    (hsmaller : byteLength color < byteLength (opening ++ body ++ [')'])) (after : Text) :
    foldCalls (opening ++ body ++ ')' :: after) = (foldCalls after).map (color ++ ·) := by
  have hmatcher : ∀ c rest, callMatcher (some ')') c rest = callMatcher none c rest :=
    fun c rest => by
      have hword : Calc.opensWord (some ')') = Calc.opensWord none := by decide
      unfold callMatcher
      rw [hword]
  have hpiece : foldPiece convert ⟨opening ++ body ++ [')'], some body⟩ = .ok color := by
    simp only [foldPiece, List.contains_eq_mem, hinside, decide_false, hcolor, if_pos hsmaller]
    rfl
  have hfold : foldCalls (opening ++ body ++ ')' :: after) =
      rewrittenM callMatcher.step (foldPiece convert) none (opening ++ body ++ ')' :: after) := rfl
  rw [hfold, rewrittenM_of_scan (scan_call rfl hopening hclosing after), hpiece, rewrittenM,
    Matcher.scan_of_same hmatcher]
  rfl

end Color

/-! ## The boundary -/

/-- **Folding does not look at what follows a call.** Before every text `after`, a call that can be
replaced is replaced. Its literal stays a token of its own if `after` begins with a character that
cannot extend it, and letters, digits and other characters of names become part of its token. -/
theorem folded_literal_boundary (after : Text) :
    (∀ (call : Calc.Call) (literal : Text), call.Stands none →
      call.literal? = .ok (some literal) →
      Calc.foldCalls (call.text ++ after) = (Calc.foldCalls after).map (literal ++ ·)) ∧
    (∀ opening body color : Text, Spelling "oklch(".toList opening → '(' ∉ body → ')' ∉ body →
      Color.convert body = .ok (some color) →
      byteLength color < byteLength (opening ++ body ++ [')']) →
      Color.foldCalls (opening ++ body ++ ')' :: after) =
        (Color.foldCalls after).map (color ++ ·)) ∧
    (∀ t u literal : Text, Calc.foldCalls t = .ok u →
      Replaced Calc.callMatcher Calc.foldPiece t literal after →
      ∃ v w, u = v ++ literal ++ w ∧ Boundary literal after w) ∧
    (∀ t u literal : Text, Color.foldCalls t = .ok u →
      Replaced Color.callMatcher (Color.foldPiece Color.convert) t literal after →
      ∃ v w, u = v ++ literal ++ w ∧ Boundary literal after w) := by
  refine ⟨?_, ?_, fun t u literal hfold hreplaced => ?_, fun t u literal hfold hreplaced => ?_⟩
  · intro call literal hstands hsome
    exact Calc.foldCalls_call hstands hsome after
  · intro opening body color hopening hinside hclosing hcolor hsmaller
    exact Color.foldCalls_call hopening hinside hclosing hcolor hsmaller after
  · exact Calc.writesLiterals.boundary hfold hreplaced
  · exact Color.writesLiterals.boundary hfold hreplaced

theorem Calc.foldCalls_sum_name : Calc.foldCalls "calc(1+1)em".toList = .ok "2em".toList := by
  have hname : Calc.foldCalls "em".toList = .ok "em".toList := by cbv
  have hcall := Calc.foldCalls_call (Calc.stands_callOf rfl rfl) Calc.literal?_sum.1 "em".toList
  rw [hname] at hcall
  exact hcall

theorem folded_literal_boundary_sum :
    Calc.foldCalls "calc(1+1)em".toList = .ok "2em".toList ∧
      Replaced Calc.callMatcher Calc.foldPiece "calc(1+1)em".toList "2".toList "em".toList ∧
      ∃ v w, "2em".toList = v ++ "2".toList ++ w ∧ Boundary "2".toList "em".toList w := by
  have hreplaced := Calc.replaced_call (Calc.stands_callOf rfl rfl) Calc.literal?_sum.1 "em".toList
  refine ⟨Calc.foldCalls_sum_name, hreplaced, ?_⟩
  exact (folded_literal_boundary "em".toList).2.2.1 _ _ _ Calc.foldCalls_sum_name hreplaced

/-- A sum before the name `em` is folded, and its value takes the name for its unit. -/
theorem sum_fused_with_name :
    Calc.foldCalls "calc(1+1)em".toList = .ok "2em".toList ∧
      leadingLength "2".toList = 1 ∧ leadingLength "2em".toList = 3 :=
  ⟨Calc.foldCalls_sum_name, by decide, by cbv⟩

end WebTrim
