import WebTrim.Calc.Fold
import WebTrim.Proofs.Calc.Literal
import WebTrim.Proofs.Failure
import WebTrim.Proofs.Text.Size
import WebTrim.Proofs.Text.Word

/-!
# Calls and how they are folded

At each place a text has a plain character, a call that is never closed, or a call with its closing
bracket. A closed call is kept or replaced by its literal.

* `openAfter` — how many brackets are open after a text.
* `Folds` — folding as a relation, one rule for each of these cases.
* `foldFrom_eq_ok_iff` — **folding computes exactly this relation**.
* `Folds.shrinks`, `Folds.openAfter_eq` — a folded text is no larger, and its brackets balance as
  before.
* `foldFrom_closing` — up to a closing bracket a text is folded on its own.
-/

set_option autoImplicit false

namespace WebTrim.Calc

open Text

/-! ## Brackets -/

/-- The number of open brackets after a text if `depth` are open before it. There is none if a
bracket is closed that was not opened. -/
def openAfter (depth : Nat) : Text → Option Nat
  | [] => some depth
  | c :: rest =>
    if c = '(' then openAfter (depth + 1) rest
    else if c = ')' then
      match depth with
      | 0 => none
      | depth + 1 => openAfter depth rest
    else openAfter depth rest

@[simp] theorem openAfter_opening (depth : Nat) (t : Text) :
    openAfter depth ('(' :: t) = openAfter (depth + 1) t :=
  rfl

@[simp] theorem openAfter_closing (depth : Nat) (t : Text) :
    openAfter (depth + 1) (')' :: t) = openAfter depth t :=
  rfl

theorem openAfter_cons {c : Char} (hopening : c ≠ '(') (hclosing : c ≠ ')') (depth : Nat)
    (t : Text) : openAfter depth (c :: t) = openAfter depth t := by
  conv_lhs => unfold openAfter
  rw [if_neg hopening, if_neg hclosing]

theorem openAfter_append (depth : Nat) (s t : Text) :
    openAfter depth (s ++ t) = (openAfter depth s).bind fun depth => openAfter depth t := by
  induction s generalizing depth with
  | nil => rfl
  | cons c s ih =>
    rw [List.cons_append]
    by_cases hopening : c = '('
    · subst hopening
      exact ih (depth + 1)
    by_cases hclosing : c = ')'
    · subst hclosing
      cases depth with
      | zero => rfl
      | succ depth => exact ih depth
    rw [openAfter_cons hopening hclosing, openAfter_cons hopening hclosing, ih]

/-- Brackets that were open before stay open. -/
theorem openAfter_add {depth depth' : Nat} {t : Text} (h : openAfter depth t = some depth')
    (more : Nat) : openAfter (depth + more) t = some (depth' + more) := by
  induction t generalizing depth with
  | nil =>
    cases h
    rfl
  | cons c t ih =>
    by_cases hopening : c = '('
    · subst hopening
      have := ih h
      rw [openAfter_opening, ← this]
      congr 1
      omega
    by_cases hclosing : c = ')'
    · subst hclosing
      cases depth with
      | zero => cases h
      | succ depth =>
        have := ih h
        rw [show depth + 1 + more = depth + more + 1 by omega, openAfter_closing, this]
    rw [openAfter_cons hopening hclosing] at h ⊢
    exact ih h

theorem openAfter_of_plain {t : Text} (h : ∀ c ∈ t, c ≠ '(' ∧ c ≠ ')') (depth : Nat) :
    openAfter depth t = some depth := by
  induction t with
  | nil => rfl
  | cons c t ih =>
    obtain ⟨⟨hopening, hclosing⟩, hrest⟩ := List.forall_mem_cons.mp h
    rw [openAfter_cons hopening hclosing, ih hrest]

/-- The bracket after a text that closes all others is found. -/
theorem closingIndex?_append {depth : Nat} {body : Text} (h : openAfter depth body = some 0)
    (after : Text) : closingIndex? depth (body ++ ')' :: after) = some body.length := by
  induction body generalizing depth with
  | nil =>
    cases h
    rfl
  | cons c body ih =>
    rw [List.cons_append]
    unfold closingIndex?
    by_cases hopening : c = '('
    · subst hopening
      rw [if_pos rfl, ih h]
      rfl
    rw [if_neg hopening]
    by_cases hclosing : c = ')'
    · subst hclosing
      cases depth with
      | zero => cases h
      | succ depth =>
        rw [if_pos rfl]
        show (closingIndex? depth (body ++ ')' :: after)).map (· + 1) = _
        rw [ih h]
        rfl
    · rw [openAfter_cons hopening hclosing] at h
      rw [if_neg hclosing, ih h]
      rfl

theorem exists_of_closingIndex? {depth n : Nat} {t : Text} (h : closingIndex? depth t = some n) :
    ∃ body after, t = body ++ ')' :: after ∧ body.length = n ∧ openAfter depth body = some 0 := by
  induction t generalizing depth n with
  | nil => cases h
  | cons c t ih =>
    unfold closingIndex? at h
    by_cases hopening : c = '('
    · subst hopening
      rw [if_pos rfl] at h
      obtain ⟨m, hm, rfl⟩ := Option.map_eq_some_iff.mp h
      obtain ⟨body, after, rfl, rfl, hbody⟩ := ih hm
      exact ⟨'(' :: body, after, rfl, rfl, hbody⟩
    rw [if_neg hopening] at h
    by_cases hclosing : c = ')'
    · subst hclosing
      rw [if_pos rfl] at h
      cases depth with
      | zero =>
        cases h
        exact ⟨[], t, rfl, rfl, rfl⟩
      | succ depth =>
        obtain ⟨m, hm, rfl⟩ := Option.map_eq_some_iff.mp h
        obtain ⟨body, after, rfl, rfl, hbody⟩ := ih hm
        exact ⟨')' :: body, after, rfl, rfl, hbody⟩
    · rw [if_neg hclosing] at h
      obtain ⟨m, hm, rfl⟩ := Option.map_eq_some_iff.mp h
      obtain ⟨body, after, rfl, rfl, hbody⟩ := ih hm
      exact ⟨c :: body, after, rfl, rfl, (openAfter_cons hopening hclosing _ _).trans hbody⟩

/-- A text that closes more brackets than it opens closes the last `depth + 1` ones somewhere. -/
theorem exists_closing {depth less less' : Nat} {t : Text}
    (h : openAfter (depth + 1 + less) t = some less') (hless : less' ≤ less) :
    ∃ body after, t = body ++ ')' :: after ∧ openAfter depth body = some 0 ∧
      openAfter less after = some less' := by
  induction t generalizing depth with
  | nil =>
    cases h
    omega
  | cons c t ih =>
    by_cases hopening : c = '('
    · subst hopening
      rw [openAfter_opening, show depth + 1 + less + 1 = depth + 1 + 1 + less by omega] at h
      obtain ⟨body, after, rfl, hbody, hafter⟩ := ih h
      exact ⟨'(' :: body, after, rfl, hbody, hafter⟩
    by_cases hclosing : c = ')'
    · subst hclosing
      rw [show depth + 1 + less = depth + less + 1 by omega, openAfter_closing] at h
      cases depth with
      | zero => exact ⟨[], t, rfl, rfl, by rwa [Nat.zero_add] at h⟩
      | succ depth =>
        obtain ⟨body, after, rfl, hbody, hafter⟩ := ih h
        exact ⟨')' :: body, after, rfl, hbody, hafter⟩
    · rw [openAfter_cons hopening hclosing] at h
      obtain ⟨body, after, rfl, hbody, hafter⟩ := ih h
      exact ⟨c :: body, after, rfl, (openAfter_cons hopening hclosing _ _).trans hbody, hafter⟩

/-! ## What stands at a place -/

/-- The name of a call with its bracket. -/
def Opening (opening : Text) : Prop :=
  Spelling "calc(".toList opening

/-- A name of four letters and a bracket. -/
theorem Opening.exists_name {opening : Text} (h : Opening opening) :
    ∃ name, opening = name ++ ['('] ∧ name.length = 4 ∧ ∀ c ∈ name, isAsciiLetter c = true := by
  have hspelling : Spelling ("calc".toList ++ ['(']) opening := h
  obtain ⟨name, last, rfl, hname, hlast⟩ := hspelling.exists_concat
  refine ⟨name, ?_, hname.length_eq.symm, fun c hc => ?_⟩
  · rcases eq_or_isAsciiLetter_of_matchesLetter hlast (by decide) (by decide)
      with rfl | ⟨hletter, -⟩
    · rfl
    · cases hletter
  · obtain ⟨letter, hletter, hmatch⟩ := hname.exists_letter c hc
    have hword : ∀ l ∈ ['c', 'a', 'l', 'c'], l.toNat < 0x80 ∧ (l ≠ 'i' ∧ l ≠ 'k' ∧ l ≠ 's') ∧
        isAsciiLetter l = true := by
      simp only [List.forall_mem_cons]
      exact ⟨by decide, by decide, by decide, by decide, List.forall_mem_nil _⟩
    obtain ⟨hnarrow, hplain, hascii⟩ := hword letter hletter
    rcases eq_or_isAsciiLetter_of_matchesLetter hmatch hnarrow hplain with rfl | ⟨-, hc⟩
    · exact hascii
    · exact hc

/-- No call begins here. -/
def Plain (before : Option Char) (t : Text) : Prop :=
  ∀ opening inside, Opening opening → t = opening ++ inside → opensWord before = false

/-- A call begins here that is not closed. -/
structure Unclosed (before : Option Char) (opening inside : Text) : Prop where
  opensWord : opensWord before = true
  opening : Opening opening
  unclosed : closingIndex? 0 inside = none

/-- A call can stand here. -/
structure Call.Stands (call : Call) (before : Option Char) : Prop where
  opensWord : opensWord before = true
  opening : Opening call.opening
  body : openAfter 0 call.body = some 0

/-- At each place a text is at its end, or has a plain character, an unclosed call or a call. -/
theorem place_cases (before : Option Char) (t : Text) :
    t = [] ∨ (∃ c rest, t = c :: rest ∧ Plain before (c :: rest)) ∨
      (∃ opening inside, t = opening ++ inside ∧ Unclosed before opening inside) ∨
      ∃ call after, t = Call.text call ++ after ∧ call.Stands before := by
  cases t with
  | nil => exact .inl rfl
  | cons c rest =>
    refine .inr ?_
    by_cases hplain : Plain before (c :: rest)
    · exact .inl ⟨c, rest, rfl, hplain⟩
    refine .inr ?_
    unfold Plain at hplain
    simp only [not_forall, Bool.not_eq_false] at hplain
    obtain ⟨opening, inside, hopening, htext, hword⟩ := hplain
    rw [htext]
    cases hclosing : closingIndex? 0 inside with
    | none => exact .inl ⟨opening, inside, rfl, hword, hopening, hclosing⟩
    | some n =>
      obtain ⟨body, after, rfl, -, hbody⟩ := exists_of_closingIndex? hclosing
      exact .inr ⟨⟨opening, body⟩, after, by simp [Call.text], hword, hopening, hbody⟩

/-! ## What the scanner takes -/

theorem scan_plain {before : Option Char} {c : Char} {rest : Text} (h : Plain before (c :: rest)) :
    scan callMatcher.step before (c :: rest) =
      ⟨[c], none⟩ :: scan callMatcher.step (some c) rest := by
  have hmatcher : callMatcher before c rest = (0, none) := by
    unfold callMatcher
    cases hdrop : dropWord? "calc(".toList (c :: rest) with
    | none => rfl
    | some inside =>
      obtain ⟨opening, hopening, htext⟩ := dropWord?_eq_some_iff.mp hdrop
      simp [h opening inside hopening htext]
  show scan callMatcher.step before ([] ++ c :: rest) = ⟨[] ++ [c], none⟩ :: _
  refine Matcher.scan_append fun d rest' hcons => ?_
  cases hcons
  exact hmatcher

/-- What the matcher does at a call. -/
theorem callMatcher_opening {before : Option Char} {c : Char} {rest opening inside : Text}
    (hword : opensWord before = true) (hopening : Opening opening)
    (htext : c :: rest = opening ++ inside) :
    callMatcher before c rest =
      match closingIndex? 0 inside with
      | none => (rest.length, none)
      | some n =>
        match (Call.mk opening (inside.take n)).literal? with
        | .ok none => (4, some ⟨opening, inside.take n⟩)
        | _ => (5 + n, some ⟨opening, inside.take n⟩) := by
  have hdrop : dropWord? "calc(".toList (c :: rest) = some inside :=
    dropWord?_eq_some_iff.mpr ⟨opening, hopening, htext⟩
  have htake : (c :: rest).take "calc(".length = opening := by
    rw [htext]
    exact List.take_left' hopening.length_eq.symm
  unfold callMatcher
  simp only [hdrop, hword, htake]
  rfl

theorem scan_unclosed {before : Option Char} {opening inside : Text}
    (h : Unclosed before opening inside) :
    scan callMatcher.step before (opening ++ inside) = [⟨opening ++ inside, none⟩] := by
  obtain ⟨c, rest, hcons⟩ : ∃ c rest, opening ++ inside = c :: rest := by
    obtain ⟨name, rfl, -, -⟩ := h.opening.exists_name
    cases name <;> exact ⟨_, _, rfl⟩
  have hmatcher := callMatcher_opening h.opensWord h.opening hcons.symm
  rw [h.unclosed] at hmatcher
  rw [hcons, scan_cons]
  simp [Matcher.step, hmatcher]

theorem Call.text_append (call : Call) (after : Text) :
    call.text ++ after = call.opening ++ (call.body ++ ')' :: after) := by
  simp [Call.text]

theorem callMatcher_call {call : Call} {before : Option Char} {c : Char} {rest after : Text}
    (h : call.Stands before) (htext : c :: rest = call.text ++ after) :
    callMatcher before c rest =
      match call.literal? with
      | .ok none => (4, some call)
      | _ => (5 + call.body.length, some call) := by
  rw [Call.text_append] at htext
  rw [callMatcher_opening h.opensWord h.opening htext, closingIndex?_append h.body]
  simp only [List.take_left]

theorem scan_kept {call : Call} {before : Option Char} (h : call.Stands before)
    (hnone : call.literal? = .ok none) (after : Text) :
    scan callMatcher.step before (call.text ++ after) =
      ⟨call.opening, some call⟩ ::
        scan callMatcher.step (some '(') (call.body ++ ')' :: after) := by
  obtain ⟨name, hname, hlength, -⟩ := h.opening.exists_name
  have htext : call.text ++ after = name ++ '(' :: (call.body ++ ')' :: after) := by
    rw [Call.text_append, hname, List.append_assoc, List.singleton_append]
  rw [htext, hname]
  refine Matcher.scan_append fun c rest hcons => ?_
  rw [callMatcher_call h (hcons.trans htext.symm), hnone, hlength]

theorem scan_taken {call : Call} {before : Option Char} (h : call.Stands before)
    (hsome : call.literal? ≠ .ok none) (after : Text) :
    scan callMatcher.step before (call.text ++ after) =
      ⟨call.text, some call⟩ :: scan callMatcher.step (some ')') after := by
  have htext : call.text ++ after = (call.opening ++ call.body) ++ ')' :: after := by
    simp [Call.text]
  have hlength : (call.opening ++ call.body).length = 5 + call.body.length := by
    have hopening : call.opening.length = 5 := h.opening.length_eq.symm
    rw [List.length_append, hopening]
  rw [htext]
  refine Matcher.scan_append fun c rest hcons => ?_
  rw [callMatcher_call h (hcons.trans htext.symm), hlength]
  split
  · next hnone => exact absurd hnone hsome
  · rfl

/-! ## Folding from a place on -/

/-- The text with its calls folded, if it is scanned after the character `before`. -/
def foldFrom (before : Option Char) (t : Text) : Except Crash Text :=
  rewrittenM callMatcher.step foldPiece before t

theorem foldCalls_eq (t : Text) : foldCalls t = foldFrom none t :=
  rfl

section FoldFrom

variable {before : Option Char} {call : Call}

theorem foldFrom_nil (before : Option Char) : foldFrom before [] = .ok [] :=
  rewrittenM_nil _ _ _

theorem foldFrom_plain {c : Char} {rest : Text} (h : Plain before (c :: rest)) :
    foldFrom before (c :: rest) = (foldFrom (some c) rest).map (c :: ·) :=
  rewrittenM_of_scan (scan_plain h)

theorem foldFrom_unclosed {opening inside : Text} (h : Unclosed before opening inside) :
    foldFrom before (opening ++ inside) = .ok (opening ++ inside) := by
  rw [foldFrom, rewrittenM, scan_unclosed h]
  simp [foldPiece, Except.map, pure, Except.pure, bind, Except.bind]

theorem foldFrom_kept (h : call.Stands before) (hnone : call.literal? = .ok none) (after : Text) :
    foldFrom before (call.text ++ after) =
      (foldFrom (some '(') (call.body ++ ')' :: after)).map (call.opening ++ ·) := by
  rw [foldFrom, rewrittenM_of_scan (scan_kept h hnone after)]
  simp only [foldPiece, hnone]
  rfl

theorem foldFrom_folded (h : call.Stands before) {literal : Text}
    (hsome : call.literal? = .ok (some literal)) (after : Text) :
    foldFrom before (call.text ++ after) = (foldFrom (some ')') after).map (literal ++ ·) := by
  have hne : call.literal? ≠ .ok none := by
    rw [hsome]
    simp
  rw [foldFrom, rewrittenM_of_scan (scan_taken h hne after)]
  simp only [foldPiece, hsome]
  rfl

theorem foldFrom_crash (h : call.Stands before) {crash : Crash}
    (herror : call.literal? = .error crash) (after : Text) :
    foldFrom before (call.text ++ after) = .error crash := by
  have hne : call.literal? ≠ .ok none := by
    rw [herror]
    simp
  rw [foldFrom, rewrittenM_of_scan (scan_taken h hne after)]
  simp only [foldPiece, herror]
  rfl

/-- What stands before a text counts only at its beginning. -/
theorem foldFrom_of_opensWord {before' : Option Char} (hword : opensWord before' = opensWord before)
    (t : Text) : foldFrom before' t = foldFrom before t := by
  have hmatcher : ∀ c rest, callMatcher before' c rest = callMatcher before c rest :=
    fun c rest => by
      unfold callMatcher
      rw [hword]
  rw [foldFrom, foldFrom, rewrittenM, rewrittenM, Matcher.scan_of_same hmatcher]

end FoldFrom

/-! ## Folding as a relation -/

/-- Induction along the places at which the scanner stops. -/
theorem fold_induction {motive : Option Char → Text → Prop} (nil : ∀ before, motive before [])
    (plain : ∀ before c rest, Plain before (c :: rest) → motive (some c) rest →
      motive before (c :: rest))
    (unclosed : ∀ before opening inside, Unclosed before opening inside →
      motive before (opening ++ inside))
    (kept : ∀ before (call : Call) after, call.Stands before → call.literal? = .ok none →
      motive (some '(') (call.body ++ ')' :: after) → motive before (call.text ++ after))
    (folded : ∀ before (call : Call) after literal, call.Stands before →
      call.literal? = .ok (some literal) → motive (some ')') after →
      motive before (call.text ++ after))
    (crash : ∀ before (call : Call) after crash, call.Stands before →
      call.literal? = .error crash → motive before (call.text ++ after))
    (before : Option Char) (t : Text) : motive before t := by
  obtain ⟨n, hn⟩ : ∃ n, t.length = n := ⟨_, rfl⟩
  induction n using Nat.strong_induction_on generalizing before t with
  | h n ih =>
    rcases place_cases before t with rfl | ⟨c, rest, rfl, hplain⟩ |
      ⟨opening, inside, rfl, hunclosed⟩ | ⟨call, after, rfl, hstands⟩
    · exact nil before
    · exact plain before c rest hplain (ih _ (by rw [← hn]; simp) _ _ rfl)
    · exact unclosed before opening inside hunclosed
    · have hlength : call.opening.length = 5 := hstands.opening.length_eq.symm
      rw [Call.text_append, List.length_append] at hn
      cases hliteral : call.literal? with
      | error e => exact crash before call after e hstands hliteral
      | ok literal =>
        cases literal with
        | none => exact kept before call after hstands hliteral (ih _ (by omega) _ _ rfl)
        | some literal =>
          refine folded before call after literal hstands hliteral (ih _ ?_ _ _ rfl)
          simp only [List.length_append, List.length_cons] at hn
          omega

/-- How a text is folded that stands after the character `before`. -/
inductive Folds : Option Char → Text → Text → Prop where
  | nil (before : Option Char) : Folds before [] []
  | plain {before : Option Char} {c : Char} {rest out : Text} (h : Plain before (c :: rest))
      (hrest : Folds (some c) rest out) : Folds before (c :: rest) (c :: out)
  | unclosed {before : Option Char} {opening inside : Text} (h : Unclosed before opening inside) :
      Folds before (opening ++ inside) (opening ++ inside)
  | kept {before : Option Char} {call : Call} {after out : Text} (h : call.Stands before)
      (hnone : call.literal? = .ok none)
      (hrest : Folds (some '(') (call.body ++ ')' :: after) out) :
      Folds before (call.text ++ after) (call.opening ++ out)
  | folded {before : Option Char} {call : Call} {literal after out : Text}
      (h : call.Stands before) (hsome : call.literal? = .ok (some literal))
      (hrest : Folds (some ')') after out) : Folds before (call.text ++ after) (literal ++ out)

/-- **Folding computes the relation.** -/
theorem foldFrom_eq_ok_iff {before : Option Char} {t u : Text} :
    foldFrom before t = .ok u ↔ Folds before t u := by
  constructor
  · intro h
    induction before, t using fold_induction generalizing u with
    | nil before =>
      rw [foldFrom_nil] at h
      cases h
      exact .nil before
    | plain before c rest hplain ih =>
      rw [foldFrom_plain hplain] at h
      obtain ⟨out, hout, rfl⟩ := exists_of_map_eq_ok h
      exact .plain hplain (ih hout)
    | unclosed before opening inside hunclosed =>
      rw [foldFrom_unclosed hunclosed] at h
      cases h
      exact .unclosed hunclosed
    | kept before call after hstands hnone ih =>
      rw [foldFrom_kept hstands hnone] at h
      obtain ⟨out, hout, rfl⟩ := exists_of_map_eq_ok h
      exact .kept hstands hnone (ih hout)
    | folded before call after literal hstands hsome ih =>
      rw [foldFrom_folded hstands hsome] at h
      obtain ⟨out, hout, rfl⟩ := exists_of_map_eq_ok h
      exact .folded hstands hsome (ih hout)
    | crash before call after crash hstands herror =>
      rw [foldFrom_crash hstands herror] at h
      cases h
  · intro h
    induction h with
    | nil before => exact foldFrom_nil before
    | plain hplain _ ih => rw [foldFrom_plain hplain, ih]; rfl
    | unclosed hunclosed => exact foldFrom_unclosed hunclosed
    | kept hstands hnone _ ih => rw [foldFrom_kept hstands hnone, ih]; rfl
    | folded hstands hsome _ ih => rw [foldFrom_folded hstands hsome, ih]; rfl

theorem Call.literal?_eq_some {call : Call} {literal : Text}
    (h : call.literal? = .ok (some literal)) :
    Calc.literal? call.body = .ok (some literal) ∧ byteLength literal < byteLength call.text := by
  obtain ⟨found, hfound, hfilter⟩ := exists_of_map_eq_ok h
  obtain ⟨rfl, hsmaller⟩ := Option.filter_eq_some_iff.mp hfilter
  exact ⟨hfound, of_decide_eq_true hsmaller⟩

theorem isLiteralChar_bracket {c : Char} (h : isLiteralChar c = true) : c ≠ '(' ∧ c ≠ ')' := by
  constructor <;> rintro rfl <;> exact absurd h (by decide)

theorem Opening.openAfter_append {opening : Text} (h : Opening opening) (depth : Nat) (t : Text) :
    openAfter depth (opening ++ t) = openAfter (depth + 1) t := by
  obtain ⟨name, rfl, -, hletters⟩ := h.exists_name
  have hplain : ∀ c ∈ name, c ≠ '(' ∧ c ≠ ')' := fun c hc => by
    constructor <;> rintro rfl <;> exact absurd (hletters _ hc) (by decide)
  rw [List.append_assoc, Calc.openAfter_append, openAfter_of_plain hplain]
  rfl

theorem Call.openAfter_text {call : Call} {before : Option Char} (h : call.Stands before)
    (depth : Nat) (after : Text) :
    openAfter depth (call.text ++ after) = openAfter depth after := by
  have hbody : openAfter (depth + 1) call.body = some (depth + 1) := by
    have := openAfter_add h.body (depth + 1)
    rwa [Nat.zero_add] at this
  rw [Call.text_append, h.opening.openAfter_append, openAfter_append, hbody]
  rfl

namespace Folds

variable {before : Option Char} {t u : Text}

/-- **A folded text is the text itself or a smaller one.** -/
theorem shrinks (h : Folds before t u) : ShrinksTo t u := by
  induction h with
  | nil => exact .refl _
  | plain _ _ ih => exact (ShrinksTo.refl [_]).append ih
  | unclosed _ => exact .refl _
  | @kept before call after out _ _ _ ih =>
    rw [Call.text_append]
    exact (ShrinksTo.refl call.opening).append ih
  | folded _ hsome _ ih => exact (ShrinksTo.of_lt (Call.literal?_eq_some hsome).2).append ih

/-- **A folded text opens and closes as many brackets.** -/
theorem openAfter_eq (h : Folds before t u) (depth : Nat) :
    openAfter depth u = openAfter depth t := by
  induction h generalizing depth with
  | nil | unclosed => rfl
  | @plain before c rest out _ _ ih =>
    show openAfter depth ([c] ++ out) = openAfter depth ([c] ++ rest)
    rw [openAfter_append, openAfter_append]
    simp only [ih]
  | @kept before call after out _ _ _ ih =>
    rw [Call.text_append, openAfter_append, openAfter_append]
    simp only [ih]
  | @folded before call literal after out hstands hsome _ ih =>
    have hliteral : ∀ c ∈ literal, c ≠ '(' ∧ c ≠ ')' := fun c hc =>
      isLiteralChar_bracket (isLiteralChar_of_literal? (Call.literal?_eq_some hsome).1 c hc)
    rw [Call.openAfter_text hstands, openAfter_append, openAfter_of_plain hliteral]
    exact ih depth

/-- What stands before a text counts only at its beginning. -/
theorem of_opensWord (h : Folds before t u) {before' : Option Char}
    (hword : opensWord before' = opensWord before) : Folds before' t u := by
  rw [← foldFrom_eq_ok_iff, foldFrom_of_opensWord hword]
  exact foldFrom_eq_ok_iff.mpr h

end Folds

/-! ## Folding up to a closing bracket -/

/-- The name of a call does not reach over a closing bracket. -/
theorem Plain.append_closing {before : Option Char} {t : Text} (h : Plain before t) (after : Text) :
    Plain before (t ++ ')' :: after) := by
  intro opening inside hopening htext
  obtain ⟨name, hname, -, hletters⟩ := hopening.exists_name
  have hbracket : ')' ∉ opening := by
    intro hmem
    rw [hname, List.mem_append, List.mem_singleton] at hmem
    rcases hmem with hmem | hmem
    · exact absurd (hletters _ hmem) (by decide)
    · cases hmem
  rcases List.append_eq_append_iff.mp htext with ⟨more, rfl, htail⟩ | ⟨more, rfl, -⟩
  · cases more with
    | nil => exact h t [] (by simpa using hopening) (by simp)
    | cons c more =>
      cases htail
      exact absurd (List.mem_append_right t List.mem_cons_self) hbracket
  · exact h opening more hopening rfl

theorem exists_openAfter_tail {depth depth' : Nat} {c : Char} {rest : Text}
    (h : openAfter depth (c :: rest) = some depth') :
    ∃ between, openAfter between rest = some depth' := by
  rw [← List.singleton_append, openAfter_append, Option.bind_eq_some_iff] at h
  obtain ⟨between, -, hrest⟩ := h
  exact ⟨between, hrest⟩

/-- **A text that closes every bracket is folded on its own** if a closing bracket follows. -/
theorem foldFrom_closing {before : Option Char} {t : Text} {depth : Nat}
    (h : openAfter depth t = some 0) (after : Text) :
    foldFrom before (t ++ ')' :: after) =
      (foldFrom before t).bind fun u => (foldFrom (some ')') after).map fun v => u ++ ')' :: v := by
  induction before, t using fold_induction generalizing depth with
  | nil before =>
    have hplain : Plain before [] := fun opening inside hopening hnil => by
      obtain ⟨name, rfl, -, -⟩ := hopening.exists_name
      cases name <;> cases hnil
    rw [List.nil_append, foldFrom_plain (hplain.append_closing after), foldFrom_nil]
    rfl
  | plain before c rest hplain ih =>
    obtain ⟨between, hrest⟩ := exists_openAfter_tail h
    have happend : Plain before (c :: (rest ++ ')' :: after)) := hplain.append_closing after
    rw [List.cons_append, foldFrom_plain happend, foldFrom_plain hplain, ih hrest]
    cases foldFrom (some c) rest with
    | error e => rfl
    | ok u => cases foldFrom (some ')') after <;> rfl
  | unclosed before opening inside hunclosed =>
    rw [hunclosed.opening.openAfter_append, show depth + 1 = 0 + 1 + depth by omega] at h
    obtain ⟨body, rest, rfl, hbody, -⟩ := exists_closing h (Nat.zero_le _)
    have := hunclosed.unclosed
    rw [closingIndex?_append hbody] at this
    cases this
  | kept before call rest hstands hnone ih =>
    rw [Call.text_append, hstands.opening.openAfter_append] at h
    have hbody := ih h
    rw [List.append_assoc, List.cons_append] at hbody
    rw [List.append_assoc, foldFrom_kept hstands hnone, foldFrom_kept hstands hnone, hbody]
    cases foldFrom (some '(') (call.body ++ ')' :: rest) with
    | error e => rfl
    | ok u =>
      cases foldFrom (some ')') after with
      | error e => rfl
      | ok v => simp [Except.map, Except.bind]
  | folded before call rest literal hstands hsome ih =>
    rw [Call.openAfter_text hstands] at h
    rw [List.append_assoc, foldFrom_folded hstands hsome, foldFrom_folded hstands hsome, ih h]
    cases foldFrom (some ')') rest with
    | error e => rfl
    | ok u =>
      cases foldFrom (some ')') after with
      | error e => rfl
      | ok v => simp [Except.map, Except.bind]
  | crash before call rest crash hstands herror =>
    rw [List.append_assoc, foldFrom_crash hstands herror, foldFrom_crash hstands herror]
    rfl

/-- What is folded up to a closing bracket, and what after it. -/
theorem Folds.exists_closing {before : Option Char} {t after out : Text}
    (h : Folds before (t ++ ')' :: after) out) (hopen : openAfter 0 t = some 0) :
    ∃ u v, out = u ++ ')' :: v ∧ Folds before t u ∧ Folds (some ')') after v := by
  rw [← foldFrom_eq_ok_iff, foldFrom_closing hopen] at h
  cases ht : foldFrom before t with
  | error e =>
    rw [ht] at h
    cases h
  | ok u =>
    rw [ht] at h
    obtain ⟨v, hv, rfl⟩ := exists_of_map_eq_ok h
    exact ⟨u, v, rfl, foldFrom_eq_ok_iff.mp ht, foldFrom_eq_ok_iff.mp hv⟩

/-! ## Some calls -/

theorem plain_of_isAsciiLetter {before : Option Char} {c : Char} {rest : Text}
    (h : isAsciiLetter c = false) : Plain before (c :: rest) := by
  intro opening inside hopening htext
  obtain ⟨name, rfl, hlength, hletters⟩ := hopening.exists_name
  cases name with
  | nil => cases hlength
  | cons d name =>
    cases htext
    rw [hletters _ List.mem_cons_self] at h
    cases h

theorem opening_calc : Opening "calc(".toList := by
  show Spelling ['c', 'a', 'l', 'c', '('] ['c', 'a', 'l', 'c', '(']
  exact .cons rfl (.cons rfl (.cons rfl (.cons rfl (.cons rfl .nil))))

theorem literal?_of_value {t : Text} {d : Dimension} (hvalue : value t = .ok d)
    (hfunctions : search (fun _ rest => startsFunction rest) none t = false) :
    literal? t = d.text? := by
  rw [literal?, hfunctions, if_neg Bool.false_ne_true, hvalue]

/-- A call with brackets as they are mostly written. -/
def callOf (body : String) : Call :=
  ⟨"calc(".toList, body.toList⟩

theorem stands_callOf {body : String} {before : Option Char} (hword : opensWord before = true)
    (hbody : openAfter 0 body.toList = some 0) : (callOf body).Stands before :=
  ⟨hword, opening_calc, hbody⟩

theorem literal?_sum :
    (callOf "1+1").literal? = .ok (some "2".toList) ∧
      (callOf "1+2").literal? = .ok (some "3".toList) := by
  have hone : value ['1', '+', '1'] = .ok ⟨2, []⟩ := by
    simp +decide [value, tokens, tokensFrom_cons, tokensFrom_nil, numeralAt?, splitWhile,
      Symbol.ofChar?, Numeral.text, Except.map]
    cbv
  have htwo : value ['1', '+', '2'] = .ok ⟨3, []⟩ := by
    simp +decide [value, tokens, tokensFrom_cons, tokensFrom_nil, numeralAt?, splitWhile,
      Symbol.ofChar?, Numeral.text, Except.map]
    cbv
  refine ⟨?_, ?_⟩
  · show (literal? ['1', '+', '1']).map _ = _
    rw [literal?_of_value hone (by decide)]
    rfl
  · show (literal? ['1', '+', '2']).map _ = _
    rw [literal?_of_value htwo (by decide)]
    rfl

end WebTrim.Calc
