import WebTrim.Proofs.Calc.Call

/-!
# Folding a folded text

A call is kept if it holds another call. That one may be folded, and what is then inside of the
outer call may have a value.

* `Apart` — no letter and no bracket follows a folded call, so that its literal begins no call.
* `Folds.refold` — folding again changes nothing exactly if every kept call stays one.
* `refold_iff` — **when folding a folded text changes nothing**.
-/

set_option autoImplicit false

namespace WebTrim.Calc

open Text

/-- The pieces of a text that stands after the character `before`. -/
def piecesFrom (before : Option Char) (t : Text) : List (Piece (Option Call)) :=
  scan callMatcher.step before t

/-- Neither a letter nor an opening bracket follows a call that is folded. -/
def Apart : List (Piece (Option Call)) → Prop
  | [] => True
  | p :: pieces =>
    (∀ call ∈ p.note, call.literal? ≠ .ok none →
      ∀ c ∈ (pieces.flatMap Piece.text).head?, isAsciiLetter c = false ∧ c ≠ '(') ∧ Apart pieces

/-- A call that is kept is kept again when the calls inside are folded. -/
def Call.Stays (call : Call) : Prop :=
  call.literal? = .ok none →
    ∃ body, foldCalls call.body = .ok body ∧ (Call.mk call.opening body).literal? = .ok none

/-- A folded text begins like the text up to a literal. -/
theorem Folds.exists_common {before : Option Char} {t u : Text} (h : Folds before t u) :
    ∃ common t' u', t = common ++ t' ∧ u = common ++ u' ∧
      ((t' = [] ∧ u' = []) ∨ ∃ c rest, u' = c :: rest ∧ (c = '-' ∨ isNumeralChar c = true)) := by
  induction h with
  | nil => exact ⟨[], [], [], rfl, rfl, .inl ⟨rfl, rfl⟩⟩
  | @plain before c rest out _ _ ih =>
    obtain ⟨common, t', u', rfl, rfl, hend⟩ := ih
    exact ⟨c :: common, t', u', rfl, rfl, hend⟩
  | @unclosed before opening inside _ =>
    exact ⟨opening ++ inside, [], [], by simp, by simp, .inl ⟨rfl, rfl⟩⟩
  | @kept before call after out _ _ _ ih =>
    obtain ⟨common, t', u', ht, rfl, hend⟩ := ih
    refine ⟨call.opening ++ common, t', u', ?_, by simp, hend⟩
    rw [Call.text_append, ht, List.append_assoc]
  | @folded before call literal after out _ hsome _ _ =>
    obtain ⟨c, rest, rfl, hc⟩ := exists_cons_of_literal? (Call.literal?_eq_some hsome).1
    exact ⟨[], _, _, rfl, rfl, .inr ⟨c, rest ++ out, rfl, hc⟩⟩

/-! ## Names of calls in a folded text -/

theorem Opening.isAsciiLetter_or {opening : Text} (h : Opening opening) :
    ∀ c ∈ opening, isAsciiLetter c = true ∨ c = '(' := by
  obtain ⟨name, rfl, -, hletters⟩ := h.exists_name
  intro c hc
  rcases List.mem_append.mp hc with hc | hc
  · exact .inl (hletters c hc)
  · exact .inr (List.mem_singleton.mp hc)

/-- The character at which a literal begins stands in no name of a call. -/
theorem isAsciiLetter_of_literal_head {c : Char} (h : c = '-' ∨ isNumeralChar c = true) :
    isAsciiLetter c = false ∧ c ≠ '(' := by
  have hrange : c.toNat ≤ 57 ∧ c ≠ '(' := by
    rcases h with rfl | hc
    · decide
    · have := toNat_of_isNumeralChar hc
      refine ⟨by omega, ?_⟩
      rintro rfl
      exact absurd hc (by decide)
  refine ⟨?_, hrange.2⟩
  by_contra hletter
  have := Stylesheet.toNat_of_isAsciiLetter (Bool.not_eq_false _ ▸ hletter)
  omega

/-- A name that ends in a text after `front` begins in it only if a part of the name does. -/
theorem Opening.le_front {opening inside back : Text} (h : Opening opening) (front : Text)
    (htext : front ++ back = opening ++ inside)
    (hback : ∀ c ∈ back.head?, isAsciiLetter c = false ∧ c ≠ '(') :
    ∃ more, front = opening ++ more ∧ inside = more ++ back := by
  rcases List.append_eq_append_iff.mp htext with ⟨part, hopening, hrest⟩ | ⟨more, hfront, hinside⟩
  · cases part with
    | nil => exact ⟨[], by simpa using hopening.symm, by simpa using hrest.symm⟩
    | cons c part =>
      obtain ⟨hletter, hbracket⟩ := hback c (by rw [hrest]; rfl)
      rcases h.isAsciiLetter_or c (by simp [hopening]) with hc | hc
      · rw [hletter] at hc
        cases hc
      · exact absurd hc hbracket
  · exact ⟨more, hfront, hinside⟩

/-- What stands before a text counts only if the text begins with a letter. -/
theorem Opening.opensWord_eq {opening inside : Text} (h : Opening opening)
    {before before' : Option Char}
    (hword : opensWord before' = opensWord before ∨
      ∀ c ∈ (opening ++ inside).head?, isAsciiLetter c = false) :
    opensWord before' = opensWord before := by
  obtain ⟨name, rfl, hlength, hletters⟩ := h.exists_name
  cases name with
  | nil => cases hlength
  | cons c name =>
    refine hword.resolve_right fun hhead => ?_
    have hc := hhead c rfl
    rw [hletters c List.mem_cons_self] at hc
    cases hc

theorem Plain.of_opensWord {before before' : Option Char} {t : Text} (h : Plain before t)
    (hword : opensWord before' = opensWord before ∨ ∀ c ∈ t.head?, isAsciiLetter c = false) :
    Plain before' t := by
  rintro opening inside hopening rfl
  exact (hopening.opensWord_eq hword).trans (h opening inside hopening rfl)

/-- A folded text has no new names of calls. -/
theorem Plain.of_folds {before : Option Char} {c : Char} {rest out : Text}
    (h : Plain before (c :: rest)) (hfolds : Folds (some c) rest out) :
    Plain before (c :: out) := by
  intro opening inside hopening htext
  obtain ⟨common, t', u', rfl, rfl, hend⟩ := hfolds.exists_common
  have hback : ∀ d ∈ u'.head?, isAsciiLetter d = false ∧ d ≠ '(' := by
    rcases hend with ⟨-, rfl⟩ | ⟨d, more, rfl, hd⟩
    · simp
    · intro e he
      cases he
      exact isAsciiLetter_of_literal_head hd
  obtain ⟨more, hfront, -⟩ := hopening.le_front (c :: common) htext hback
  exact h opening (more ++ t') hopening (by rw [← List.append_assoc, ← hfront]; rfl)

/-- A folded text begins with the same character as before, or with a literal. -/
theorem Folds.head? {before : Option Char} {t u : Text} (h : Folds before t u)
    (ht : ∀ c ∈ t.head?, isAsciiLetter c = false ∧ c ≠ '(') :
    ∀ c ∈ u.head?, isAsciiLetter c = false ∧ c ≠ '(' := by
  obtain ⟨common, t', u', rfl, rfl, hend⟩ := h.exists_common
  cases common with
  | nil =>
    rcases hend with ⟨-, rfl⟩ | ⟨d, more, rfl, hd⟩
    · simp
    · intro e he
      cases he
      exact isAsciiLetter_of_literal_head hd
  | cons c common => exact ht

/-- No call begins in a literal, unless what follows continues a name. -/
theorem foldFrom_literal {literal out : Text} (hliteral : ∀ c ∈ literal, c ≠ '(')
    (hout : ∀ c ∈ out.head?, isAsciiLetter c = false ∧ c ≠ '(') (before : Option Char) :
    foldFrom before (literal ++ out) =
      (foldFrom (literal.getLast?.or before) out).map (literal ++ ·) := by
  induction literal generalizing before with
  | nil =>
    simp only [List.nil_append, List.getLast?_nil, Option.none_or]
    cases foldFrom before out <;> rfl
  | cons c literal ih =>
    have hplain : Plain before (c :: (literal ++ out)) := by
      intro opening inside hopening htext
      obtain ⟨more, hfront, -⟩ := hopening.le_front (c :: literal) htext hout
      obtain ⟨name, rfl, -, -⟩ := hopening.exists_name
      exact absurd rfl (hliteral '(' (by rw [hfront]; simp))
    have hlast : literal.getLast?.or (some c) = (c :: literal).getLast?.or before := by
      rw [List.getLast?_cons]
      cases literal.getLast? <;> rfl
    rw [List.cons_append, foldFrom_plain hplain, ih (List.forall_mem_cons.mp hliteral).2, hlast]
    cases foldFrom ((c :: literal).getLast?.or before) out <;> rfl

/-! ## Folding again -/

theorem literal_append_ne {call : Call} {literal after out : Text} {before : Option Char}
    (hsome : call.literal? = .ok (some literal)) (h : Folds before after out) :
    literal ++ out ≠ call.text ++ after := by
  intro heq
  have hliteral := (Call.literal?_eq_some hsome).2
  have hout := h.shrinks.byteLength_le
  have := congrArg byteLength heq
  simp only [byteLength_append] at this
  omega

/-- A text that begins with a call that is not kept changes. -/
theorem foldFrom_ne_of_moves {call : Call} {before : Option Char} (h : call.Stands before)
    (hmoves : call.literal? ≠ .ok none) {after : Text} :
    foldFrom before (call.text ++ after) ≠ .ok (call.text ++ after) := by
  intro hsame
  cases hliteral : call.literal? with
  | error e =>
    rw [foldFrom_crash h hliteral] at hsame
    cases hsame
  | ok found =>
    cases found with
    | none => exact hmoves hliteral
    | some literal =>
      rw [foldFrom_folded h hliteral] at hsame
      obtain ⟨out, hout, heq⟩ := exists_of_map_eq_ok hsame
      exact literal_append_ne hliteral (foldFrom_eq_ok_iff.mp hout) heq

theorem forall_stays_cons {text : Text} {call : Call} {pieces : List (Piece (Option Call))} :
    (∀ found ∈ (⟨text, some call⟩ :: pieces).filterMap Piece.note, found.Stays) ↔
      call.Stays ∧ ∀ found ∈ pieces.filterMap Piece.note, found.Stays :=
  List.forall_mem_cons

/-- **Folding again changes nothing exactly if every kept call stays one.** -/
theorem Folds.refold {before : Option Char} {t u : Text} (h : Folds before t u)
    (hapart : Apart (piecesFrom before t)) {before' : Option Char}
    (hword : opensWord before' = opensWord before ∨ ∀ c ∈ t.head?, isAsciiLetter c = false) :
    foldFrom before' u = .ok u ↔
      ∀ call ∈ (piecesFrom before t).filterMap Piece.note, call.Stays := by
  induction h generalizing before' with
  | nil before => simp [foldFrom_nil, piecesFrom]
  | @plain before c rest out hplain hrest ih =>
    have hpieces : piecesFrom before (c :: rest) = ⟨[c], none⟩ :: piecesFrom (some c) rest :=
      scan_plain hplain
    have hout : Plain before' (c :: out) := (hplain.of_folds hrest).of_opensWord hword
    rw [hpieces] at hapart ⊢
    rw [foldFrom_plain hout, map_eq_ok_iff List.cons_injective, ih hapart.2 (.inl rfl)]
    rfl
  | @unclosed before opening inside hunclosed =>
    have hpieces : piecesFrom before (opening ++ inside) = [⟨opening ++ inside, none⟩] :=
      scan_unclosed hunclosed
    have hbefore := (hunclosed.opening.opensWord_eq hword).trans hunclosed.opensWord
    rw [hpieces, foldFrom_unclosed ⟨hbefore, hunclosed.opening, hunclosed.unclosed⟩]
    simp
  | @kept before call after out hstands hnone hrest ih =>
    have hpieces : piecesFrom before (call.text ++ after) =
        ⟨call.opening, some call⟩ :: piecesFrom (some '(') (call.body ++ ')' :: after) :=
      scan_kept hstands hnone after
    obtain ⟨body, rest, rfl, hbody, hafter⟩ := hrest.exists_closing hstands.body
    rw [Call.text_append] at hword
    -- The call that stands in the folded text.
    have hstands' : (Call.mk call.opening body).Stands before' :=
      ⟨(hstands.opening.opensWord_eq hword).trans hstands.opensWord, hstands.opening,
        (hbody.openAfter_eq 0).trans hstands.body⟩
    have htext : call.opening ++ (body ++ ')' :: rest) = (Call.mk call.opening body).text ++ rest :=
      (Call.text_append ⟨call.opening, body⟩ rest).symm
    have hfold : foldCalls call.body = .ok body :=
      foldFrom_eq_ok_iff.mpr (hbody.of_opensWord rfl)
    rw [hpieces] at hapart ⊢
    rw [htext, forall_stays_cons]
    by_cases hliteral : (Call.mk call.opening body).literal? = .ok none
    · have hstays : call.Stays := fun _ => ⟨body, hfold, hliteral⟩
      rw [foldFrom_kept hstands' hliteral, ← htext, map_eq_ok_iff (List.append_right_injective _),
        ih hapart.2 (.inl rfl)]
      exact ⟨fun h => ⟨hstays, h⟩, fun h => h.2⟩
    · have hmoves : ¬ call.Stays := fun hstays => by
        obtain ⟨body', hfold', hnone'⟩ := hstays hnone
        cases hfold.symm.trans hfold'
        exact hliteral hnone'
      exact iff_of_false (foldFrom_ne_of_moves hstands' hliteral) fun h => hmoves h.1
  | @folded before call literal after out hstands hsome hrest ih =>
    have hne : call.literal? ≠ .ok none := by
      rw [hsome]
      simp
    have hpieces : piecesFrom before (call.text ++ after) =
        ⟨call.text, some call⟩ :: piecesFrom (some ')') after := scan_taken hstands hne after
    rw [hpieces] at hapart ⊢
    have hhead : ∀ c ∈ after.head?, isAsciiLetter c = false ∧ c ≠ '(' := by
      have hback := hapart.1 call rfl hne
      rwa [piecesFrom, scan_text] at hback
    have hliteral : ∀ c ∈ literal, c ≠ '(' := fun c hc =>
      (isLiteralChar_bracket (isLiteralChar_of_literal? (Call.literal?_eq_some hsome).1 c hc)).1
    have hstays : call.Stays := fun hnone => absurd hnone hne
    rw [foldFrom_literal hliteral (hrest.head? hhead),
      map_eq_ok_iff (List.append_right_injective _), ih hapart.2 (.inr fun c hc => (hhead c hc).1),
      forall_stays_cons]
    exact ⟨fun h => ⟨hstays, h⟩, fun h => h.2⟩

/-! ## Calls inside calls -/

theorem value_third : value ['1', '/', '3', '+', '2'] = .ok ⟨7 / 3, []⟩ := by
  have htokens : tokens ['1', '/', '3', '+', '2'] =
      .ok [⟨.number ['1'], 0⟩, ⟨.slash, 1⟩, ⟨.number ['3'], 2⟩, ⟨.plus, 3⟩, ⟨.number ['2'], 4⟩] := by
    simp +decide [tokens, tokensFrom_cons, tokensFrom_nil, numeralAt?, splitWhile,
      Symbol.ofChar?, Numeral.text, Except.map]
  have hone : readNumber ['1'] = .ok ⟨1, []⟩ := rfl
  have htwo : readNumber ['2'] = .ok ⟨2, []⟩ := rfl
  have hthree : readNumber ['3'] = .ok ⟨3, []⟩ := rfl
  rw [value, htokens]
  simp [parse_eq_bind, taken_expression, taken_term, taken_factor, taken_moreFactors,
    taken_moreTerms, chain_terms.nil, chain_factors.nil, Symbol.additive?, Symbol.multiplicative?,
    Operator.apply, hone, htwo, hthree, Except.bind, Except.map]
  norm_num

theorem literal?_third : (callOf "1/3+2").literal? = .ok none := by
  have hzero : (7 / 3 : Rat) ≠ 0 := by norm_num
  have hplaces : decimalPlaces? (7 / 3 : Rat).den = none := by decide +kernel
  show (literal? ['1', '/', '3', '+', '2']).map _ = _
  rw [literal?_of_value value_third (by decide), Dimension.text?, if_neg hzero,
    numberText?_of_none hplaces]
  rfl

theorem literal?_nested {body : String}
    (h : search (fun _ rest => startsFunction rest) none body.toList = true) :
    (callOf body).literal? = .ok none := by
  show (literal? body.toList).map _ = _
  rw [literal?, if_pos h]
  rfl

/-- **When folding a folded text changes nothing.** If no letter and no bracket follows a folded
call, that is the case exactly if every call that is kept is also kept when the calls inside it are
folded. -/
theorem refold_iff {t u : Text} (h : foldCalls t = .ok u) (hapart : Apart (callMatcher.pieces t)) :
    foldCalls u = .ok u ↔
      ∀ call ∈ callMatcher.findAll t, call.literal? = .ok none →
        ∃ body, foldCalls call.body = .ok body ∧
          (Call.mk call.opening body).literal? = .ok none :=
  (foldFrom_eq_ok_iff.mp h).refold hapart (.inl rfl)

/-- The call `calc(1/3+calc(1+1))` stays a call, since its value has no finite decimal form. -/
theorem refold_iff_third :
    foldCalls "calc(1/3+calc(1+1))".toList = .ok "calc(1/3+2)".toList ∧
      Apart (callMatcher.pieces "calc(1/3+calc(1+1))".toList) ∧
      foldCalls "calc(1/3+2)".toList = .ok "calc(1/3+2)".toList := by
  have houter : (callOf "1/3+calc(1+1)").literal? = .ok none := literal?_nested (by decide)
  have hbody (before : Option Char) (rest : Text) :
      foldFrom before ("1/3+calc(1+1)".toList ++ rest) =
        (foldFrom (some ')') rest).map ("1/3+2".toList ++ ·) := by
    show foldFrom before ('1' :: '/' :: '3' :: '+' :: ((callOf "1+1").text ++ rest)) = _
    rw [foldFrom_plain (plain_of_isAsciiLetter rfl), foldFrom_plain (plain_of_isAsciiLetter rfl),
      foldFrom_plain (plain_of_isAsciiLetter rfl), foldFrom_plain (plain_of_isAsciiLetter rfl),
      foldFrom_folded (stands_callOf rfl rfl) literal?_sum.1]
    cases foldFrom (some ')') rest <;> rfl
  have hpieces : callMatcher.pieces "calc(1/3+calc(1+1))".toList =
      [⟨"calc(".toList, some (callOf "1/3+calc(1+1)")⟩, ⟨['1'], none⟩, ⟨['/'], none⟩, ⟨['3'], none⟩,
        ⟨['+'], none⟩, ⟨"calc(1+1)".toList, some (callOf "1+1")⟩, ⟨[')'], none⟩] := by
    have hinner : (callOf "1+1").literal? ≠ .ok none := by
      rw [literal?_sum.1]
      simp
    show scan callMatcher.step none ((callOf "1/3+calc(1+1)").text ++ []) = _
    rw [scan_kept (stands_callOf rfl rfl) houter]
    show _ :: scan callMatcher.step (some '(')
      ('1' :: '/' :: '3' :: '+' :: ((callOf "1+1").text ++ [')'])) = _
    rw [scan_plain (plain_of_isAsciiLetter rfl), scan_plain (plain_of_isAsciiLetter rfl),
      scan_plain (plain_of_isAsciiLetter rfl), scan_plain (plain_of_isAsciiLetter rfl),
      scan_taken (stands_callOf rfl rfl) hinner, scan_plain (plain_of_isAsciiLetter rfl), scan_nil]
    rfl
  have hfold : foldCalls "calc(1/3+calc(1+1))".toList = .ok "calc(1/3+2)".toList := by
    show foldFrom none ((callOf "1/3+calc(1+1)").text ++ []) = _
    rw [foldFrom_kept (stands_callOf rfl rfl) houter]
    show (foldFrom (some '(') ("1/3+calc(1+1)".toList ++ [')'])).map _ = _
    rw [hbody, foldFrom_plain (plain_of_isAsciiLetter rfl), foldFrom_nil]
    rfl
  have hapart : Apart (callMatcher.pieces "calc(1/3+calc(1+1))".toList) := by
    have hone : isAsciiLetter '1' = false := by decide
    have hbracket : isAsciiLetter ')' = false := by decide
    rw [hpieces]
    simp [Apart, hone, hbracket]
  refine ⟨hfold, hapart, (refold_iff hfold hapart).mpr ?_⟩
  have hfound : callMatcher.findAll "calc(1/3+calc(1+1))".toList =
      [callOf "1/3+calc(1+1)", callOf "1+1"] := by
    rw [Matcher.findAll, hpieces]
    rfl
  rw [hfound]
  simp only [List.forall_mem_cons]
  refine ⟨fun _ => ⟨"1/3+2".toList, ?_, literal?_third⟩, fun hnone => ?_, by simp⟩
  · have hfolded := hbody none []
    rwa [foldFrom_nil, List.append_nil] at hfolded
  · rw [literal?_sum.1] at hnone
    cases hnone

/-- The sum in `calc(1+calc(1+1))` is folded only when the text is folded again. -/
theorem nested_sum_folded_later :
    foldCalls "calc(1+calc(1+1))".toList = .ok "calc(1+2)".toList ∧
      foldCalls "calc(1+2)".toList = .ok "3".toList := by
  refine ⟨?_, ?_⟩
  · show foldFrom none ((callOf "1+calc(1+1)").text ++ []) = _
    rw [foldFrom_kept (stands_callOf rfl rfl) (literal?_nested (by decide))]
    show (foldFrom (some '(') ('1' :: '+' :: ((callOf "1+1").text ++ [')']))).map _ = _
    rw [foldFrom_plain (plain_of_isAsciiLetter rfl), foldFrom_plain (plain_of_isAsciiLetter rfl),
      foldFrom_folded (stands_callOf rfl rfl) literal?_sum.1,
      foldFrom_plain (plain_of_isAsciiLetter rfl), foldFrom_nil]
    rfl
  · show foldFrom none ((callOf "1+2").text ++ []) = _
    rw [foldFrom_folded (stands_callOf rfl rfl) literal?_sum.2, foldFrom_nil]
    rfl

end WebTrim.Calc
