import Mathlib.Data.List.TakeWhile
import WebTrim.Proofs.Script.Literal
import WebTrim.Proofs.Text.Scan

/-!
# What the scanner of scripts depends on

The scanner looks ahead and it looks behind. How far a comment or a regular expression reaches
depends on its own text and on the one character after it; whether a slash may begin a regular
expression does not depend on what stands inside literals.

* `regexLength?_take_append` — the extent of a regular expression.
* `regexAllowed_append` — nothing behind a quote, a backtick or a brace matters.
* `Reads` — what the scanner can read at a character of code.
* `map_toToken_placedAtoms` — the tokens do not depend on where the text begins.
* `atoms_take`, `atoms_segment`, … — the tokens of code and of templates, one equation for each
  thing that is read.
* `forall_mem_atoms` — what holds of everything that is read holds of every token.
-/

set_option autoImplicit false

namespace WebTrim.Script

open Text

/-! ## Looking ahead -/

theorem takeWhile_append_cons {p : Char → Bool} {c : Char} (hc : p c = false) (t s : Text) :
    (t ++ c :: s).takeWhile p = t.takeWhile p := by
  induction t with
  | nil => simp [hc]
  | cons d t ih => simp [List.takeWhile_cons, ih]

theorem regexLength?_close (rest : Text) :
    regexLength? false ('/' :: rest) = some (1 + (rest.takeWhile isLetter).length) := by
  cases rest <;> simp [regexLength?]

theorem regexLength?_step {inClass : Bool} {c : Char} (hslash : c ≠ '\\') (hline : c ≠ '\n')
    (hopen : ¬(c = '/' ∧ !inClass)) (rest : Text) :
    regexLength? inClass (c :: rest) =
      (regexLength? (decide (if inClass then c ≠ ']' else c = '[')) rest).map (1 + ·) := by
  cases rest with
  | nil => exact if_neg hopen
  | cons d rest => rw [regexLength?, if_neg hslash, if_neg hline, if_neg hopen]

/-- A regular expression is a body, closed by a slash, and flags. Whatever stands after the body, it
is closed there. -/
theorem regexLength?_eq_some {inClass : Bool} {t : Text} {n : Nat}
    (h : regexLength? inClass t = some n) :
    ∃ body rest, t = body ++ rest ∧ n = body.length + (rest.takeWhile isLetter).length ∧
      ∀ other, regexLength? inClass (body ++ other) =
        some (body.length + (other.takeWhile isLetter).length) := by
  fun_induction regexLength? inClass t generalizing n with
  | case1 => cases h
  | case2 inClass c hclose =>
    obtain ⟨rfl, hclass⟩ := hclose
    obtain rfl : inClass = false := by simpa using hclass
    cases h
    exact ⟨['/'], [], rfl, rfl, regexLength?_close⟩
  | case3 => cases h
  | case4 inClass d rest ih =>
    obtain ⟨m, hm, rfl⟩ := Option.map_eq_some_iff.mp h
    obtain ⟨body, after, rfl, rfl, hother⟩ := ih hm
    refine ⟨'\\' :: d :: body, after, rfl, ?_, fun other => ?_⟩
    · simp only [List.length_cons]
      omega
    · rw [List.cons_append, List.cons_append, regexLength?, if_pos rfl, hother, Option.map_some]
      simp only [List.length_cons, Option.some.injEq]
      omega
  | case5 => cases h
  | case6 inClass c d rest hslash hline hclose =>
    obtain ⟨rfl, hclass⟩ := hclose
    obtain rfl : inClass = false := by simpa using hclass
    cases h
    exact ⟨['/'], d :: rest, rfl, rfl, regexLength?_close⟩
  | case7 inClass c d rest hslash hline hopen inClass' =>
    rename_i ih
    obtain ⟨m, hm, rfl⟩ := Option.map_eq_some_iff.mp h
    obtain ⟨body, after, hrest, rfl, hother⟩ := ih hm
    refine ⟨c :: body, after, by rw [hrest]; rfl, ?_, fun other => ?_⟩
    · simp only [List.length_cons]
      omega
    · rw [List.cons_append, regexLength?_step hslash hline hopen, hother, Option.map_some]
      simp only [List.length_cons, Option.some.injEq]
      omega

theorem regexLength?_le {inClass : Bool} {t : Text} {n : Nat} (h : regexLength? inClass t = some n) :
    n ≤ t.length := by
  obtain ⟨body, rest, rfl, rfl, -⟩ := regexLength?_eq_some h
  rw [List.length_append]
  exact Nat.add_le_add_left (List.takeWhile_sublist _).length_le _

theorem regexLength?_pos {inClass : Bool} {t : Text} {n : Nat}
    (h : regexLength? inClass t = some n) : 0 < n := by
  obtain ⟨body, rest, -, rfl, hother⟩ := regexLength?_eq_some h
  cases body with
  | nil => cases hother []
  | cons c body =>
    rw [List.length_cons]
    omega

/-- **How far a regular expression reaches depends on its text and on the one character after it.** -/
theorem regexLength?_take_append {inClass : Bool} {t s : Text} {n : Nat}
    (h : regexLength? inClass t = some n) (hs : s.head? = (t.drop n).head?) :
    regexLength? inClass (t.take n ++ s) = some n := by
  obtain ⟨body, rest, rfl, rfl, hother⟩ := regexLength?_eq_some h
  rw [List.drop_length_add_append] at hs
  rw [List.take_length_add_append, List.append_assoc, hother, takeWhile_take_append hs]

/-- A regular expression that ends within `run` is closed there, whatever stands after it. -/
theorem regexLength?_run {inClass : Bool} {run s : Text} {n : Nat}
    (h : regexLength? inClass (run ++ s) = some n) (hn : n ≤ run.length) (s' : Text) :
    regexLength? inClass (run ++ s') ≠ none := by
  obtain ⟨body, rest, hsplit, hlength, hother⟩ := regexLength?_eq_some h
  have hbody_run : body <+: run :=
    List.prefix_of_prefix_length_le ⟨rest, hsplit.symm⟩ (List.prefix_append run s) (by omega)
  obtain ⟨more, rfl⟩ := hbody_run
  rw [List.append_assoc, hother]
  exact Option.some_ne_none _

/-! ## Looking behind -/

/-- A character at which a look behind ends: no blank, no character of a word and no sign that may
stand twice. -/
def IsBarrier (c : Char) : Prop :=
  isBlank c = false ∧ isScriptWordChar c = false ∧ c ≠ '+' ∧ c ≠ '-'

instance (c : Char) : Decidable (IsBarrier c) :=
  inferInstanceAs (Decidable (_ ∧ _))

/-- **Nothing behind a barrier matters** to whether a slash may begin a regular expression. -/
theorem regexAllowed_append {c : Char} (hc : IsBarrier c) (near far far' : Text) :
    regexAllowed (near ++ c :: far) = regexAllowed (near ++ c :: far') := by
  obtain ⟨hblank, hword, hplus, hminus⟩ := hc
  have hdrop : ∀ x, (near ++ c :: x).dropWhile isBlank = near.dropWhile isBlank ++ c :: x := by
    intro x
    rw [List.dropWhile_append]
    split
    · rename_i hnil
      rw [List.isEmpty_iff.mp hnil]
      simp [hblank]
    · rfl
  unfold regexAllowed
  rw [hdrop, hdrop]
  cases near.dropWhile isBlank with
  | nil => simp [hplus, hminus, hword]
  | cons d near =>
    have hhead : ∀ x, (near ++ c :: x).head? = (near ++ [c]).head? := by
      intro x
      cases near <;> rfl
    have hrun : ∀ x, (d :: (near ++ c :: x)).takeWhile isScriptWordChar =
        (d :: near).takeWhile isScriptWordChar :=
      fun x => takeWhile_append_cons hword (d :: near) x
    simp only [List.cons_append, hhead far, hhead far', hrun far, hrun far']

/-! ## What is read in code -/

/-- The two quotes. -/
def IsQuote (c : Char) : Prop :=
  c = '"' ∨ c = '\''

theorem IsQuote.ne_backslash {c : Char} (h : IsQuote c) : c ≠ '\\' := by
  rcases h with rfl | rfl <;> decide

/-- After a slash, text that makes it no comment. -/
def NoComment (rest : Text) : Prop :=
  rest.head? ≠ some '/' ∧ rest.head? ≠ some '*'

/-- A character with which neither a literal nor a hole begins or ends. -/
def IsPlain (c : Char) : Prop :=
  c ≠ '"' ∧ c ≠ '\'' ∧ c ≠ '`' ∧ c ≠ '{' ∧ c ≠ '}'

/-- What can be read at a character of code. -/
inductive Reads (behind : Text) : Char → Text → CodeStep → Prop where
  | lineComment (rest : Text) :
      Reads behind '/' ('/' :: rest) (.take .comment (1 + (rest.takeWhile (· ≠ '\n')).length))
  | blockComment (rest : Text) :
      Reads behind '/' ('*' :: rest) (.take .comment (1 + lengthThrough ['*', '/'] rest))
  | string {quote : Char} (rest : Text) : IsQuote quote →
      Reads behind quote rest (.take .string (stringLength quote rest))
  | template (rest : Text) : Reads behind '`' rest .openTemplate
  | openBrace (rest : Text) : Reads behind '{' rest .openBrace
  | closeBrace (rest : Text) : Reads behind '}' rest .closeBrace
  | regex {rest : Text} {n : Nat} : NoComment rest → regexAllowed behind = true →
      regexLength? false rest = some n → Reads behind '/' rest (.take .code n)
  | openSlash {rest : Text} : NoComment rest → regexAllowed behind = true →
      regexLength? false rest = none → Reads behind '/' rest (.take .code 0)
  | plain {c : Char} {rest : Text} : IsPlain c →
      (c = '/' → NoComment rest ∧ regexAllowed behind = false) →
      Reads behind c rest (.take .code 0)

theorem Reads.codeStep {behind rest : Text} {c : Char} {step : CodeStep}
    (h : Reads behind c rest step) : codeStep behind c rest = step := by
  cases h with
  | lineComment rest => rfl
  | blockComment rest => rfl
  | string rest hquote =>
    rcases hquote with rfl | rfl <;> simp [Script.codeStep]
  | template => rfl
  | openBrace => rfl
  | closeBrace => rfl
  | regex hcomment hallowed hlength =>
    simp [Script.codeStep, hcomment.1, hcomment.2, hallowed, hlength]
  | openSlash hcomment hallowed hlength =>
    simp [Script.codeStep, hcomment.1, hcomment.2, hallowed, hlength]
  | plain hplain hslash =>
    obtain ⟨hdouble, hsingle, htick, hopen, hclose⟩ := hplain
    by_cases hc : c = '/'
    · obtain ⟨hcomment, hallowed⟩ := hslash hc
      simp [Script.codeStep, hc, hcomment.1, hcomment.2, hallowed]
    · simp [Script.codeStep, hc, hdouble, hsingle, htick, hopen, hclose]

/-- Something is read at every character of code. -/
theorem exists_reads (behind : Text) (c : Char) (rest : Text) :
    ∃ step, Reads behind c rest step := by
  by_cases hplain : IsPlain c
  · by_cases hslash : c = '/'
    · subst hslash
      by_cases hline : rest.head? = some '/'
      · obtain ⟨tail, rfl⟩ := List.head?_eq_some_iff.mp hline
        exact ⟨_, .lineComment tail⟩
      by_cases hblock : rest.head? = some '*'
      · obtain ⟨tail, rfl⟩ := List.head?_eq_some_iff.mp hblock
        exact ⟨_, .blockComment tail⟩
      by_cases hallowed : regexAllowed behind = true
      · cases hlength : regexLength? false rest with
        | none => exact ⟨_, .openSlash ⟨hline, hblock⟩ hallowed hlength⟩
        | some n => exact ⟨_, .regex ⟨hline, hblock⟩ hallowed hlength⟩
      · exact ⟨_, .plain hplain fun _ => ⟨⟨hline, hblock⟩, by simpa using hallowed⟩⟩
    · exact ⟨_, .plain hplain fun h => absurd h hslash⟩
  · by_cases hquote : c = '"' ∨ c = '\''
    · exact ⟨_, .string rest hquote⟩
    · obtain rfl | rfl | rfl : c = '`' ∨ c = '{' ∨ c = '}' := by
        unfold IsPlain at hplain
        grind
      · exact ⟨_, .template rest⟩
      · exact ⟨_, .openBrace rest⟩
      · exact ⟨_, .closeBrace rest⟩

theorem reads_of_codeStep {behind rest : Text} {c : Char} {step : CodeStep}
    (h : codeStep behind c rest = step) : Reads behind c rest step := by
  obtain ⟨step', hread⟩ := exists_reads behind c rest
  rw [← h, hread.codeStep]
  exact hread

/-! ## The tokens of code and of templates -/

/-- The backtick that opens or closes a template. -/
def backtick : Token Kind := ⟨.operator, ['`']⟩

/-! A segment ends with its template, at a hole, or with the text. -/

section Segments

variable {holes : List Nat} {behind t rest : Text} {start : Nat}

theorem placedAtoms_endTemplate (h : t.drop (segmentLength t) = '`' :: rest) :
    placedAtoms true holes behind start t =
      ⟨⟨.segment, t.take (segmentLength t)⟩, start⟩ ::
        ⟨⟨.operator, ['`']⟩, start + segmentLength t⟩ ::
          placedAtoms false holes ('`' :: (t.take (segmentLength t)).reverse ++ behind)
            (start + segmentLength t + 1) rest := by
  rw [placedAtoms.eq_def]
  simp only [if_true]
  split <;> simp_all

theorem placedAtoms_openHole (h : t.drop (segmentLength t) = '$' :: '{' :: rest) :
    placedAtoms true holes behind start t =
      ⟨⟨.segment, t.take (segmentLength t)⟩, start⟩ ::
        ⟨⟨.operator, ['$', '{']⟩, start + segmentLength t⟩ ::
          placedAtoms false (0 :: holes) ('{' :: '$' :: (t.take (segmentLength t)).reverse ++ behind)
            (start + segmentLength t + 2) rest := by
  rw [placedAtoms.eq_def]
  simp only [if_true]
  split <;> simp_all

theorem placedAtoms_rest (h : t.drop (segmentLength t) = []) :
    placedAtoms true holes behind start t = [⟨⟨.segment, t⟩, start⟩] := by
  rw [placedAtoms.eq_def]
  simp only [if_true]
  split <;> simp_all

theorem drop_segment_eq_nil (htick : ∀ rest, t.drop (segmentLength t) = '`' :: rest → False)
    (hhole : ∀ rest, t.drop (segmentLength t) = '$' :: '{' :: rest → False) :
    t.drop (segmentLength t) = [] := by
  rcases endsSegment_drop t with hnil | ⟨rest, hrest⟩ | ⟨rest, hrest⟩
  · exact hnil
  · exact absurd hrest (htick rest)
  · exact absurd hrest (hhole rest)

end Segments

/-- The tokens do not depend on where the text begins. -/
theorem map_toToken_placedAtoms (inTemplate : Bool) (holes : List Nat) (behind : Text) (start : Nat)
    (t : Text) :
    (placedAtoms inTemplate holes behind start t).map Placed.toToken =
      atoms inTemplate holes behind t := by
  unfold atoms
  generalize 0 = other
  fun_induction placedAtoms inTemplate holes behind start t generalizing other with
  | case1 holes behind start t n segment rest hdrop ih =>
    rw [placedAtoms_endTemplate hdrop]
    simp only [List.map_cons, ih (other + segmentLength t + 1)]
    rfl
  | case2 holes behind start t n segment rest hdrop ih =>
    rw [placedAtoms_openHole hdrop]
    simp only [List.map_cons, ih (other + segmentLength t + 2)]
    rfl
  | case3 holes behind start t n htick hhole =>
    rw [placedAtoms_rest (drop_segment_eq_nil htick hhole)]
    rfl
  | case4 inTemplate holes behind start hcode => simp [placedAtoms.eq_def, hcode]
  | case5 inTemplate holes behind start hcode c rest kind n hstep text ih =>
    rw [placedAtoms.eq_def _ _ _ other]
    simpa [hcode, hstep, text] using ih (other + (n + 1))
  | case6 inTemplate holes behind start hcode c rest hstep ih
  | case8 inTemplate behind start hcode c rest hstep outer ih
  | case9 inTemplate behind start hcode c rest hstep depth outer ih
  | case10 inTemplate behind start hcode c rest hstep ih =>
    rw [placedAtoms.eq_def _ _ _ other]
    simp [hcode, hstep, ih (other + 1)]
  | case7 inTemplate holes behind start hcode c rest hstep holes' ih =>
    rw [placedAtoms.eq_def _ _ _ other]
    simp [hcode, hstep, ih (other + 1), holes']

@[simp] theorem atoms_nil (holes : List Nat) (behind : Text) : atoms false holes behind [] = [] := by
  rw [atoms, placedAtoms]
  simp

/-- One brace more is open in the innermost hole. -/
def deepen : List Nat → List Nat
  | depth :: outer => (depth + 1) :: outer
  | [] => []

/-- One brace less is open in the innermost hole. -/
def shallow : List Nat → List Nat
  | (depth + 1) :: outer => depth :: outer
  | _ => []

section Atoms

variable {holes : List Nat} {behind : Text}

theorem atoms_take {c : Char} {rest : Text} {kind : Kind} {n : Nat}
    (h : codeStep behind c rest = .take kind n) :
    atoms false holes behind (c :: rest) =
      ⟨kind, c :: rest.take n⟩ ::
        atoms false holes ((c :: rest.take n).reverse ++ behind) (rest.drop n) := by
  rw [atoms, placedAtoms.eq_def]
  simp [h, map_toToken_placedAtoms]

theorem atoms_closedString {quote : Char} (hquote : IsQuote quote) {body : Text}
    (hbody : SafeBody quote body) (rest : Text) :
    atoms false holes behind (quote :: (body ++ quote :: rest)) =
      ⟨.string, quote :: (body ++ [quote])⟩ ::
        atoms false holes (quote :: (body.reverse ++ quote :: behind)) rest := by
  have hlength := stringLength_closed hquote.ne_backslash hbody rest
  have hread : Reads behind quote (body ++ quote :: rest) _ := .string _ hquote
  have htake : (body ++ quote :: rest).take (body.length + 1) = body ++ [quote] := by
    rw [List.append_cons]
    exact List.take_left' (by simp)
  have hdrop : (body ++ quote :: rest).drop (body.length + 1) = rest := by
    rw [List.append_cons]
    exact List.drop_left' (by simp)
  rw [atoms_take hread.codeStep, hlength, htake, hdrop]
  simp

theorem atoms_openString {quote : Char} (hquote : IsQuote quote) {rest : Text}
    (hlength : stringLength quote rest = rest.length) :
    atoms false holes behind (quote :: rest) = [⟨.string, quote :: rest⟩] := by
  have hread : Reads behind quote rest _ := .string _ hquote
  rw [atoms_take hread.codeStep, hlength, List.take_length, List.drop_length, atoms_nil]

theorem atoms_template (rest : Text) :
    atoms false holes behind ('`' :: rest) =
      ⟨.operator, ['`']⟩ :: atoms true holes ('`' :: behind) rest := by
  rw [atoms, placedAtoms.eq_def, ← map_toToken_placedAtoms _ _ _ 1]
  rfl

theorem atoms_openBrace (rest : Text) :
    atoms false holes behind ('{' :: rest) =
      ⟨.code, ['{']⟩ :: atoms false (deepen holes) ('{' :: behind) rest := by
  rw [atoms, placedAtoms.eq_def, ← map_toToken_placedAtoms _ _ _ 1]
  rfl

theorem atoms_endHole (rest : Text) :
    atoms false (0 :: holes) behind ('}' :: rest) =
      ⟨.operator, ['}']⟩ :: atoms true holes ('}' :: behind) rest := by
  rw [atoms, placedAtoms.eq_def, ← map_toToken_placedAtoms _ _ _ 1]
  rfl

theorem atoms_closeBrace (h : holes.head? ≠ some 0) (rest : Text) :
    atoms false holes behind ('}' :: rest) =
      ⟨.code, ['}']⟩ :: atoms false (shallow holes) ('}' :: behind) rest := by
  rw [atoms, placedAtoms.eq_def, ← map_toToken_placedAtoms _ _ _ 1]
  cases holes with
  | nil => rfl
  | cons depth outer =>
    cases depth with
    | zero => exact absurd rfl h
    | succ depth => rfl

theorem atoms_segment {body : Text} (hbody : SafeBody '`' body) (rest : Text) :
    atoms true holes behind (body ++ '`' :: rest) =
      ⟨.segment, body⟩ :: ⟨.operator, ['`']⟩ ::
        atoms false holes ('`' :: body.reverse ++ behind) rest := by
  have hlength := segmentLength_append hbody (.inr (.inl ⟨rest, rfl⟩))
  have hdrop : (body ++ '`' :: rest).drop (segmentLength (body ++ '`' :: rest)) = '`' :: rest := by
    rw [hlength, List.drop_left]
  rw [atoms, placedAtoms_endTemplate hdrop, List.map_cons, List.map_cons, map_toToken_placedAtoms,
    hlength, List.take_left]

theorem atoms_hole {body : Text} (hbody : SafeBody '`' body) (rest : Text) :
    atoms true holes behind (body ++ '$' :: '{' :: rest) =
      ⟨.segment, body⟩ :: ⟨.operator, ['$', '{']⟩ ::
        atoms false (0 :: holes) ('{' :: '$' :: body.reverse ++ behind) rest := by
  have hlength := segmentLength_append hbody (.inr (.inr ⟨rest, rfl⟩))
  have hdrop : (body ++ '$' :: '{' :: rest).drop (segmentLength (body ++ '$' :: '{' :: rest)) =
      '$' :: '{' :: rest := by
    rw [hlength, List.drop_left]
  rw [atoms, placedAtoms_openHole hdrop, List.map_cons, List.map_cons, map_toToken_placedAtoms,
    hlength, List.take_left]

theorem atoms_rest {t : Text} (h : t.drop (segmentLength t) = []) :
    atoms true holes behind t = [⟨.segment, t⟩] := by
  rw [atoms, placedAtoms_rest h]
  rfl

/-- Nothing is lost: the tokens concatenate to the text. -/
theorem join_atoms (inTemplate : Bool) (holes : List Nat) (behind t : Text) :
    Token.join (atoms inTemplate holes behind t) = t := by
  unfold atoms
  generalize 0 = start
  fun_induction placedAtoms inTemplate holes behind start t with
  | case1 holes behind start t n segment rest hdrop ih =>
    rw [List.map_cons, List.map_cons, Token.join_cons, Token.join_cons, ih, List.singleton_append,
      ← hdrop]
    exact List.take_append_drop n t
  | case2 holes behind start t n segment rest hdrop ih =>
    rw [List.map_cons, List.map_cons, Token.join_cons, Token.join_cons, ih]
    simp only [List.cons_append, List.nil_append]
    rw [← hdrop]
    exact List.take_append_drop n t
  | case3 => simp
  | case4 => rfl
  | case5 inTemplate holes behind start hcode c rest kind n hstep text ih =>
    rw [List.map_cons, Token.join_cons, ih]
    simp [text]
  | case6 inTemplate holes behind start hcode c rest hstep ih
  | case7 inTemplate holes behind start hcode c rest hstep holes' ih
  | case8 inTemplate behind start hcode c rest hstep outer ih
  | case9 inTemplate behind start hcode c rest hstep depth outer ih
  | case10 inTemplate behind start hcode c rest hstep ih =>
    rw [List.map_cons, Token.join_cons, ih]
    rfl

/-- What holds of everything that one step reads holds of every token. -/
theorem forall_mem_atoms {P : Token Kind → Prop}
    (hsegment : ∀ t : Text, P ⟨.segment, t.take (segmentLength t)⟩)
    (hoperator : ∀ text ≠ [], P ⟨.operator, text⟩) (hbrace : ∀ c, P ⟨.code, [c]⟩)
    (htake : ∀ {behind rest : Text} {c : Char} {kind : Kind} {n : Nat},
      Reads behind c rest (.take kind n) → P ⟨kind, c :: rest.take n⟩)
    (inTemplate : Bool) (holes : List Nat) (behind t : Text) :
    ∀ a ∈ atoms inTemplate holes behind t, P a := by
  unfold atoms
  generalize 0 = start
  fun_induction placedAtoms inTemplate holes behind start t with
  | case1 holes behind start t n segment rest hdrop ih
  | case2 holes behind start t n segment rest hdrop ih =>
    rw [List.map_cons, List.map_cons, List.forall_mem_cons, List.forall_mem_cons]
    exact ⟨hsegment t, hoperator _ (List.cons_ne_nil _ _), ih⟩
  | case3 holes behind start t n htick hhole =>
    -- the segment reaches to the end of the text
    have hend := drop_segment_eq_nil htick hhole
    have ht := hsegment t
    rw [List.take_of_length_le (List.drop_eq_nil_iff.mp hend)] at ht
    rw [List.map_singleton, List.forall_mem_singleton]
    exact ht
  | case4 => exact List.forall_mem_nil _
  | case5 inTemplate holes behind start hcode c rest kind n hstep text ih =>
    rw [List.map_cons, List.forall_mem_cons]
    exact ⟨htake (reads_of_codeStep hstep), ih⟩
  | case6 inTemplate holes behind start hcode c rest hstep ih
  | case8 inTemplate behind start hcode c rest hstep outer ih =>
    rw [List.map_cons, List.forall_mem_cons]
    exact ⟨hoperator _ (List.cons_ne_nil _ _), ih⟩
  | case7 inTemplate holes behind start hcode c rest hstep holes' ih
  | case9 inTemplate behind start hcode c rest hstep depth outer ih
  | case10 inTemplate behind start hcode c rest hstep ih =>
    rw [List.map_cons, List.forall_mem_cons]
    exact ⟨hbrace c, ih⟩

/-- The first token of code begins with the first character and is no segment. -/
theorem atoms_cons (holes : List Nat) (behind : Text) (c : Char) (rest : Text) :
    ∃ t ts text, atoms false holes behind (c :: rest) = t :: ts ∧ t.kind ≠ .segment ∧
      t.text = c :: text := by
  obtain ⟨step, hread⟩ := exists_reads behind c rest
  have hstep := hread.codeStep
  cases hread with
  | template => exact ⟨_, _, [], atoms_template rest, by decide, rfl⟩
  | openBrace => exact ⟨_, _, [], atoms_openBrace rest, by decide, rfl⟩
  | closeBrace =>
    match holes with
    | 0 :: outer => exact ⟨_, _, [], atoms_endHole rest, by decide, rfl⟩
    | [] => exact ⟨_, _, [], atoms_closeBrace (by simp) rest, by decide, rfl⟩
    | (depth + 1) :: outer => exact ⟨_, _, [], atoms_closeBrace (by simp) rest, by decide, rfl⟩
  | lineComment | blockComment | string | regex | openSlash | plain =>
    exact ⟨_, _, _, atoms_take hstep, by simp, rfl⟩

end Atoms

end WebTrim.Script
