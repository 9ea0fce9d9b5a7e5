import Mathlib.Data.List.Forall2
import WebTrim.Proofs.Script.Token
import WebTrim.Proofs.Token

/-!
# Replacing literals of a script

Some literals of a script get a new body that is safe for their delimiter. The new script has the
tokens that were put in, exactly if no slash that was passed over for want of a close on its line is
closed by a new body.

* `Rewrites` — a token stays, or its literal gets a safe body.
* `SlashesOpen` — the condition on slashes.
* `Outcome` — the tokens of the new script are those put in, or a slash begins a longer run of code
  than before.
* `outcome_take`, `outcome_closedString`, `outcome_segment`, … — one lemma for each thing the
  scanner reads.
* `preserved_of_rewrites` — **hence for every script**.
* `Diverges.skeleton_ne` — where a slash was closed, the tokens differ outside literals.
-/

set_option autoImplicit false

namespace WebTrim.Script

open Text

/-! ## Tokens put in place of others -/

/-- A token stays, or it is a literal that gets a safe body. -/
inductive Rewrites : Token Kind → Token Kind → Prop where
  | same (t : Token Kind) : Rewrites t t
  | segment (text : Text) {body : Text} : SafeBody '`' body →
      Rewrites ⟨.segment, text⟩ ⟨.segment, body⟩
  | string {quote : Char} {text old body closing : Text} : IsQuote quote →
      Quoted.ofText text = ⟨[quote], old, closing⟩ → SafeBody quote body →
      Rewrites ⟨.string, text⟩ ⟨.string, quote :: (body ++ closing)⟩

/-- A token without the body of its literal: its kind and, if it is no literal, its text. -/
def skeleton (t : Token Kind) : Kind × Option Text :=
  (t.kind, if (literalBody? t).isSome then none else some t.text)

namespace Rewrites

variable {t u : Token Kind}

theorem kind_eq (h : Rewrites t u) : u.kind = t.kind := by
  cases h <;> rfl

theorem eq_of_ne (h : Rewrites t u) (hstring : t.kind ≠ .string) (hsegment : t.kind ≠ .segment) :
    u = t := by
  cases h with
  | same => rfl
  | segment => exact absurd rfl hsegment
  | string => exact absurd rfl hstring

theorem eq_of_code (h : Rewrites t u) (hcode : t.kind = .code) : u = t :=
  h.eq_of_ne (by simp [hcode]) (by simp [hcode])

theorem skeleton_eq (h : Rewrites t u) : skeleton u = skeleton t := by
  cases h <;> rfl

/-- No new body changes how a token of code begins. -/
theorem text_cons {c : Char} {text : Text} (h : Rewrites t u) (hkind : t.kind ≠ .segment)
    (htext : t.text = c :: text) : ∃ text', u.text = c :: text' := by
  cases h with
  | same => exact ⟨text, htext⟩
  | segment => exact absurd rfl hkind
  | string _ hquoted _ =>
    simp only at htext
    have hopening := Quoted.opening_ofText c text
    rw [← htext, hquoted] at hopening
    cases hopening
    exact ⟨_, rfl⟩

end Rewrites

section Lists

variable {ts us : List (Token Kind)}

theorem takeWhile_code_of_rewrites (h : ts.Forall₂ Rewrites us) :
    us.takeWhile (·.kind = .code) = ts.takeWhile (·.kind = .code) := by
  induction h with
  | nil => rfl
  | @cons t u ts us htu _ ih =>
    by_cases hcode : t.kind = .code
    · rw [htu.eq_of_code hcode, List.takeWhile_cons, List.takeWhile_cons, ih]
    · simp [htu.kind_eq, hcode]

theorem skeletons_of_rewrites (h : ts.Forall₂ Rewrites us) : us.map skeleton = ts.map skeleton := by
  induction h with
  | nil => rfl
  | cons htu _ ih => rw [List.map_cons, List.map_cons, ih, htu.skeleton_eq]

/-- Neighbouring code tokens are merged alike. -/
theorem mergeRuns_rewrites (h : ts.Forall₂ Rewrites us) :
    (Token.mergeRuns .code ts).Forall₂ Rewrites (Token.mergeRuns .code us) := by
  induction h with
  | nil => exact .nil
  | @cons t u ts us htu _ ih =>
    rw [Token.mergeRuns, Token.mergeRuns]
    generalize Token.mergeRuns .code ts = merged, Token.mergeRuns .code us = merged' at ih ⊢
    cases ih with
    | nil => exact .cons htu .nil
    | @cons t' u' merged merged' htu' hmerged =>
      simp only [htu.kind_eq, htu'.kind_eq]
      split
      · rename_i hrun
        rw [htu.eq_of_code hrun.1, htu'.eq_of_code hrun.2]
        exact .cons (.same _) hmerged
      · exact .cons htu (.cons htu' hmerged)

theorem head?_join_of_rewrites {holes : List Nat} {behind t : Text}
    (h : (atoms false holes behind t).Forall₂ Rewrites us) : (Token.join us).head? = t.head? := by
  cases t with
  | nil =>
    rw [atoms_nil] at h
    cases h
    rfl
  | cons c rest =>
    obtain ⟨first, more, text, hatoms, hkind, htext⟩ := atoms_cons holes behind c rest
    rw [hatoms] at h
    cases h with
    | cons hfirst _ =>
      obtain ⟨text', htext'⟩ := hfirst.text_cons hkind htext
      rw [Token.join_cons, htext']
      rfl

end Lists

/-! ## Slashes -/

/-- Of each slash at which a regular expression may begin, but none is closed on its line, the same
is true with the new tokens after it. -/
def SlashesOpen (behind : Text) : List (Token Kind) → List (Token Kind) → Prop
  | t :: ts, _ :: us =>
    (t = ⟨.code, ['/']⟩ → regexAllowed behind = true →
      regexLength? false (Token.join us) = none) ∧
    SlashesOpen (t.text.reverse ++ behind) ts us
  | _, _ => True

instance decidableSlashesOpen :
    (behind : Text) → (ts us : List (Token Kind)) → Decidable (SlashesOpen behind ts us)
  | _, [], [] => .isTrue trivial
  | _, [], _ :: _ => .isTrue trivial
  | _, _ :: _, [] => .isTrue trivial
  | behind, t :: ts, _ :: us =>
    have := decidableSlashesOpen (t.text.reverse ++ behind) ts us
    inferInstanceAs (Decidable (_ ∧ _))

/-- At some slash the new tokens go on with a longer run of code than those put in. -/
def Diverges (ts new : List (Token Kind)) : Prop :=
  ∃ before after text more, ts.Forall₂ Rewrites (before ++ ⟨.code, ['/']⟩ :: after) ∧
    new = before ++ ⟨.code, '/' :: text⟩ :: more ∧
    (Token.join (after.takeWhile (·.kind = .code))).length < text.length

/-- The new tokens are those put in if the slashes stay open, and diverge from them otherwise. -/
def Outcome (behind : Text) (ts us new : List (Token Kind)) : Prop :=
  SlashesOpen behind ts us ∧ new = us ∨ ¬SlashesOpen behind ts us ∧ Diverges ts new

theorem Outcome.nil (behind : Text) : Outcome behind [] [] [] :=
  .inl ⟨trivial, rfl⟩

theorem Outcome.cons {behind : Text} {t u : Token Kind} {ts us new : List (Token Kind)}
    (htu : Rewrites t u)
    (ht : t = ⟨.code, ['/']⟩ → regexAllowed behind = true →
      regexLength? false (Token.join us) = none)
    (h : Outcome (t.text.reverse ++ behind) ts us new) :
    Outcome behind (t :: ts) (u :: us) (u :: new) := by
  rcases h with ⟨hopen, rfl⟩ | ⟨hclosed, before, after, text, more, hrewrites, rfl, hlonger⟩
  · exact .inl ⟨⟨ht, hopen⟩, rfl⟩
  · exact .inr ⟨fun hopen => hclosed hopen.2,
      u :: before, after, text, more, .cons htu hrewrites, rfl, hlonger⟩

/-- The texts behind two places count the same for every slash to come. -/
def SameBehind (behind behind' : Text) : Prop :=
  ∀ near, regexAllowed (near ++ behind) = regexAllowed (near ++ behind')

theorem SameBehind.append {behind behind' : Text} (h : SameBehind behind behind') (near : Text) :
    SameBehind (near ++ behind) (near ++ behind') := by
  intro nearer
  rw [← List.append_assoc, ← List.append_assoc]
  exact h (nearer ++ near)

theorem SameBehind.barrier {c : Char} (hc : IsBarrier c) (far far' : Text) :
    SameBehind (c :: far) (c :: far') :=
  fun near => regexAllowed_append hc near far far'

/-! ## One step -/

/-- What is to be shown of a text: scanned behind texts that count the same, the text of the tokens
put in gives these tokens or diverges from them. -/
def Preserved (inTemplate : Bool) (holes : List Nat) (t : Text) : Prop :=
  ∀ behind behind' us, (inTemplate = false → SameBehind behind behind') →
    (atoms inTemplate holes behind t).Forall₂ Rewrites us →
    Outcome behind (atoms inTemplate holes behind t) us
      (atoms inTemplate holes behind' (Token.join us))

section Steps

variable {holes : List Nat} {behind behind' : Text} {us : List (Token Kind)}

/-- A comment, a regular expression or another character of code is taken again. -/
theorem outcome_take {c : Char} {rest : Text} {kind : Kind} {n : Nat}
    (hkind : kind = .code ∨ kind = .comment)
    (hstep : codeStep behind c rest = .take kind n)
    (hagain : ∀ vs, us = ⟨kind, c :: rest.take n⟩ :: vs →
      (Token.join vs).head? = (rest.drop n).head? →
      codeStep behind' c (rest.take n ++ Token.join vs) = .take kind n ∧
        ((⟨kind, c :: rest.take n⟩ : Token Kind) = ⟨.code, ['/']⟩ → regexAllowed behind = true →
          regexLength? false (Token.join vs) = none))
    (ih : Preserved false holes (rest.drop n)) (hbehind : SameBehind behind behind')
    (hrewrites : (atoms false holes behind (c :: rest)).Forall₂ Rewrites us) :
    Outcome behind (atoms false holes behind (c :: rest)) us
      (atoms false holes behind' (Token.join us)) := by
  rw [atoms_take hstep] at hrewrites ⊢
  cases hrewrites with
  | @cons _ u _ vs htu hvs =>
    obtain rfl : u = ⟨kind, c :: rest.take n⟩ :=
      htu.eq_of_ne (by rcases hkind with rfl | rfl <;> simp) (by rcases hkind with rfl | rfl <;> simp)
    have hhead := head?_join_of_rewrites hvs
    have hshort : rest.drop n = [] → Token.join vs = [] := by
      intro hnil
      rw [hnil] at hhead
      simpa using hhead
    obtain ⟨hstep', hslash⟩ := hagain vs rfl hhead
    rw [Token.join_cons, List.cons_append, atoms_take hstep', take_append_of_short hshort,
      drop_append_of_short hshort]
    exact .cons (.same _) hslash
      (ih _ _ vs (fun _ => hbehind.append (c :: rest.take n).reverse) hvs)

/-- A backtick or a brace is a token of its own, and the scanner goes on in a known state. -/
theorem outcome_single {inTemplate : Bool} {holes' : List Nat} {c : Char} {rest : Text} {kind : Kind}
    (hkind : kind = .code ∨ kind = .operator) (hslash : c ≠ '/') (hbarrier : IsBarrier c)
    (hatoms : ∀ behind rest, atoms false holes behind (c :: rest) =
      ⟨kind, [c]⟩ :: atoms inTemplate holes' (c :: behind) rest)
    (ih : Preserved inTemplate holes' rest)
    (hrewrites : (atoms false holes behind (c :: rest)).Forall₂ Rewrites us) :
    Outcome behind (atoms false holes behind (c :: rest)) us
      (atoms false holes behind' (Token.join us)) := by
  rw [hatoms] at hrewrites ⊢
  cases hrewrites with
  | @cons _ u _ vs htu hvs =>
    obtain rfl : u = ⟨kind, [c]⟩ :=
      htu.eq_of_ne (by rcases hkind with rfl | rfl <;> simp) (by rcases hkind with rfl | rfl <;> simp)
    rw [Token.join_cons, List.singleton_append, hatoms]
    refine .cons (.same _) (fun heq => by simp [hslash] at heq) ?_
    exact ih (c :: behind) (c :: behind') vs (fun _ => .barrier hbarrier behind behind') hvs

/-- **A slash that was passed over**: it still is, or a new body closes a regular expression, which
then reaches beyond the code that follows the slash. -/
theorem outcome_openSlash {rest : Text} (hcomment : NoComment rest)
    (hallowed : regexAllowed behind = true) (hlength : regexLength? false rest = none)
    (ih : Preserved false holes rest) (hbehind : SameBehind behind behind')
    (hrewrites : (atoms false holes behind ('/' :: rest)).Forall₂ Rewrites us) :
    Outcome behind (atoms false holes behind ('/' :: rest)) us
      (atoms false holes behind' (Token.join us)) := by
  have hstep := (Reads.openSlash hcomment hallowed hlength).codeStep
  have hallowed' : regexAllowed behind' = true := (hbehind []).symm.trans hallowed
  have hcomment' : ∀ tail : Text, tail.head? = rest.head? → NoComment tail := by
    intro tail hhead
    rwa [NoComment, hhead]
  cases hnew : regexLength? false (Token.join us.tail) with
  | none =>
    refine outcome_take (.inl rfl) hstep (fun vs hus hhead => ?_) ih hbehind hrewrites
    rw [hus, List.tail_cons] at hnew
    exact ⟨(Reads.openSlash (hcomment' _ hhead) hallowed' hnew).codeStep, fun _ _ => hnew⟩
  | some n =>
    rw [atoms_take hstep] at hrewrites ⊢
    simp only [List.take_zero, List.drop_zero, List.reverse_singleton, List.singleton_append]
      at hrewrites ⊢
    cases hrewrites with
    | @cons _ u _ vs htu hvs =>
      obtain rfl : u = ⟨.code, ['/']⟩ := htu.eq_of_code rfl
      rw [List.tail_cons] at hnew
      have hstep' :=
        (Reads.regex (hcomment' _ (head?_join_of_rewrites hvs)) hallowed' hnew).codeStep
      rw [Token.join_cons, List.singleton_append, atoms_take hstep']
      refine .inr ⟨fun hopen => ?_, [], vs, _, _, .cons (.same _) hvs, rfl, ?_⟩
      · rw [hopen.1 rfl hallowed] at hnew
        cases hnew
      · -- a regular expression within the code after the slash would have been found before
        rw [List.length_take_of_le (regexLength?_le hnew), takeWhile_code_of_rewrites hvs]
        by_contra hwithin
        rw [← List.takeWhile_append_dropWhile (p := fun t : Token Kind => t.kind = .code) (l := vs),
          Token.join_append, takeWhile_code_of_rewrites hvs] at hnew
        refine regexLength?_run hnew (Nat.le_of_not_lt hwithin) (Token.join
          ((atoms false holes ('/' :: behind) rest).dropWhile (·.kind = .code))) ?_
        rw [← Token.join_append, List.takeWhile_append_dropWhile, join_atoms]
        exact hlength

/-- A closed string is read again with its new body. -/
theorem outcome_closedString {quote : Char} (hquote : IsQuote quote) {body rest : Text}
    (hbody : SafeBody quote body) (ih : Preserved false holes rest)
    (hrewrites : (atoms false holes behind (quote :: (body ++ quote :: rest))).Forall₂
      Rewrites us) :
    Outcome behind (atoms false holes behind (quote :: (body ++ quote :: rest))) us
      (atoms false holes behind' (Token.join us)) := by
  have hquoted := Quoted.ofText_closed hquote.ne_backslash hbody
  rw [atoms_closedString hquote hbody] at hrewrites ⊢
  cases hrewrites with
  | @cons _ u _ vs htu hvs =>
    obtain ⟨body', hbody', rfl⟩ : ∃ body', SafeBody quote body' ∧
        u = ⟨.string, quote :: (body' ++ [quote])⟩ := by
      cases htu with
      | same => exact ⟨body, hbody, rfl⟩
      | @string _ _ _ body' closing _ hquoted' hbody' =>
        rw [hquoted, Quoted.mk.injEq, List.cons.injEq] at hquoted'
        obtain ⟨⟨rfl, _⟩, rfl, rfl⟩ := hquoted'
        exact ⟨body', hbody', rfl⟩
    have hbarrier : IsBarrier quote := by rcases hquote with rfl | rfl <;> decide
    have h := ih _ _ vs (fun _ => .barrier hbarrier (body.reverse ++ quote :: behind)
      (body'.reverse ++ quote :: behind')) hvs
    rw [Token.join_cons, List.cons_append, List.append_assoc, List.singleton_append,
      atoms_closedString hquote hbody']
    refine .cons htu (fun heq => by cases heq) ?_
    simpa using h

/-- A string that nothing closes is read again to the end of the script. -/
theorem outcome_openString {quote : Char} (hquote : IsQuote quote) {rest : Text}
    (hlength : stringLength quote rest = rest.length)
    (hquoted : Quoted.ofText (quote :: rest) = ⟨[quote], rest, []⟩)
    (hrewrites : (atoms false holes behind (quote :: rest)).Forall₂ Rewrites us) :
    Outcome behind (atoms false holes behind (quote :: rest)) us
      (atoms false holes behind' (Token.join us)) := by
  rw [atoms_openString hquote hlength] at hrewrites ⊢
  cases hrewrites with
  | @cons _ u _ vs htu hvs =>
    cases hvs
    obtain ⟨rest', hlength', rfl⟩ : ∃ rest', stringLength quote rest' = rest'.length ∧
        u = ⟨.string, quote :: rest'⟩ := by
      cases htu with
      | same => exact ⟨rest, hlength, rfl⟩
      | @string _ _ _ body' closing _ hquoted' hbody' =>
        rw [hquoted, Quoted.mk.injEq, List.cons.injEq] at hquoted'
        obtain ⟨⟨rfl, _⟩, rfl, rfl⟩ := hquoted'
        exact ⟨body', stringLength_open hbody', by rw [List.append_nil]⟩
    rw [Token.join_cons, Token.join_nil, List.append_nil, atoms_openString hquote hlength']
    exact .cons htu (fun heq => by cases heq) (.nil _)

/-- A segment is read again with its new body, and the backtick or the hole after it. -/
theorem outcome_segment {holes' : List Nat} {c : Char} {body rest : Text} (lead : Text)
    (hbarrier : IsBarrier c)
    (hatoms : ∀ behind rest body, SafeBody '`' body →
      atoms true holes behind (body ++ (lead ++ c :: rest)) =
        ⟨.segment, body⟩ :: ⟨.operator, lead ++ [c]⟩ ::
          atoms false holes' (c :: (lead.reverse ++ (body.reverse ++ behind))) rest)
    (hbody : SafeBody '`' body) (ih : Preserved false holes' rest)
    (hrewrites : (atoms true holes behind (body ++ (lead ++ c :: rest))).Forall₂ Rewrites us) :
    Outcome behind (atoms true holes behind (body ++ (lead ++ c :: rest))) us
      (atoms true holes behind' (Token.join us)) := by
  rw [hatoms _ _ _ hbody] at hrewrites ⊢
  cases hrewrites with
  | @cons _ u _ vs htu hvs =>
    cases hvs with
    | @cons _ v _ ws htv hws =>
      obtain rfl : v = ⟨.operator, lead ++ [c]⟩ := htv.eq_of_ne (by simp) (by simp)
      obtain ⟨body', hbody', rfl⟩ : ∃ body', SafeBody '`' body' ∧ u = ⟨.segment, body'⟩ := by
        cases htu with
        | same => exact ⟨body, hbody, rfl⟩
        | segment _ hbody' => exact ⟨_, hbody', rfl⟩
      have h := ih _ _ ws (fun _ => .barrier hbarrier (lead.reverse ++ (body.reverse ++ behind))
        (lead.reverse ++ (body'.reverse ++ behind'))) hws
      rw [Token.join_cons, Token.join_cons, List.append_assoc, List.singleton_append,
        hatoms _ _ _ hbody']
      refine .cons htu (fun heq => by cases heq) ?_
      refine .cons (.same _) (fun heq => by cases heq) ?_
      simpa using h

/-- A segment that nothing closes is read again to the end of the script. -/
theorem outcome_openSegment {t : Text} (hend : t.drop (segmentLength t) = [])
    (hrewrites : (atoms true holes behind t).Forall₂ Rewrites us) :
    Outcome behind (atoms true holes behind t) us
      (atoms true holes behind' (Token.join us)) := by
  rw [atoms_rest hend] at hrewrites ⊢
  cases hrewrites with
  | @cons _ u _ vs htu hvs =>
    cases hvs
    obtain ⟨body', hend', rfl⟩ : ∃ body', body'.drop (segmentLength body') = [] ∧
        u = ⟨.segment, body'⟩ := by
      cases htu with
      | same => exact ⟨t, hend, rfl⟩
      | @segment _ body' hbody' =>
        have hlength := segmentLength_append hbody' (.inl rfl)
        rw [List.append_nil] at hlength
        exact ⟨body', by rw [hlength, List.drop_length], rfl⟩
    rw [Token.join_cons, Token.join_nil, List.append_nil, atoms_rest hend']
    exact .cons htu (fun heq => by cases heq) (.nil _)

/-! ## Every script -/

/-- What the scanner reads in code is read again, given that the texts after it are preserved. -/
theorem outcome_code {c : Char} {rest : Text}
    (ih : ∀ inTemplate holes (t : Text), t.length ≤ rest.length → Preserved inTemplate holes t)
    (hbehind : SameBehind behind behind')
    (hrewrites : (atoms false holes behind (c :: rest)).Forall₂ Rewrites us) :
    Outcome behind (atoms false holes behind (c :: rest)) us
      (atoms false holes behind' (Token.join us)) := by
  have hallowed : regexAllowed behind' = regexAllowed behind := (hbehind []).symm
  have hdrop : ∀ n, Preserved false holes (rest.drop n) := fun n =>
    ih _ _ _ (by rw [List.length_drop]; omega)
  obtain ⟨step, hread⟩ := exists_reads behind c rest
  have hstep := hread.codeStep
  cases hread with
  | lineComment rest =>
    refine outcome_take (.inr rfl) hstep (fun vs _ hhead => ⟨?_, fun heq => by cases heq⟩)
      (hdrop _) hbehind hrewrites
    rw [Nat.add_comm, List.drop_succ_cons] at hhead
    rw [Nat.add_comm, List.take_succ_cons, List.cons_append, (Reads.lineComment _).codeStep,
      takeWhile_take_append hhead, Nat.add_comm]
  | blockComment rest =>
    refine outcome_take (.inr rfl) hstep (fun vs _ hhead => ⟨?_, fun heq => by cases heq⟩)
      (hdrop _) hbehind hrewrites
    rw [Nat.add_comm, List.drop_succ_cons] at hhead
    have hshort : rest.drop (lengthThrough ['*', '/'] rest) = [] → Token.join vs = [] := by
      intro hnil
      rw [hnil] at hhead
      simpa using hhead
    rw [Nat.add_comm, List.take_succ_cons, List.cons_append, (Reads.blockComment _).codeStep,
      lengthThrough_take_append hshort, Nat.add_comm]
  | string rest hquote =>
    have hslash := hquote.ne_backslash
    have htick : c ≠ '`' := by rcases hquote with rfl | rfl <;> decide
    rcases stringLength_cases htick rest with
      ⟨body, after, hbody, rfl⟩ | ⟨hlength, body, hbody, hrest⟩
    · refine outcome_closedString hquote hbody (ih _ _ _ ?_) hrewrites
      simp only [List.length_append, List.length_cons]
      omega
    · refine outcome_openString hquote hlength ?_ hrewrites
      rcases hrest with rfl | rfl
      · exact Quoted.ofText_open hslash hbody
      · exact Quoted.ofText_backslash hslash body
  | template rest =>
    exact outcome_single (.inr rfl) (by decide) (by decide) (fun _ => atoms_template)
      (ih _ _ _ (Nat.le_refl _)) hrewrites
  | openBrace rest =>
    exact outcome_single (.inl rfl) (by decide) (by decide) (fun _ => atoms_openBrace)
      (ih _ _ _ (Nat.le_refl _)) hrewrites
  | closeBrace rest =>
    by_cases hend : holes.head? = some 0
    · obtain ⟨outer, rfl⟩ := List.head?_eq_some_iff.mp hend
      exact outcome_single (.inr rfl) (by decide) (by decide) (fun _ => atoms_endHole)
        (ih _ _ _ (Nat.le_refl _)) hrewrites
    · exact outcome_single (.inl rfl) (by decide) (by decide) (fun _ => atoms_closeBrace hend)
        (ih _ _ _ (Nat.le_refl _)) hrewrites
  | @regex rest n hcomment hallows hlength =>
    refine outcome_take (.inl rfl) hstep (fun vs _ hhead => ⟨?_, fun heq => ?_⟩)
      (hdrop _) hbehind hrewrites
    · refine (Reads.regex ?_ (hallowed.trans hallows) ?_).codeStep
      · rwa [NoComment, head?_take_append hhead]
      · exact regexLength?_take_append hlength hhead
    · -- a regular expression is more than its first slash
      have hpos := regexLength?_pos hlength
      have htake := List.length_take_of_le (regexLength?_le hlength)
      simp only [Token.mk.injEq, List.cons.injEq, true_and] at heq
      rw [heq, List.length_nil] at htake
      omega
  | openSlash hcomment hallows hlength =>
    exact outcome_openSlash hcomment hallows hlength (ih _ _ _ (Nat.le_refl _)) hbehind hrewrites
  | plain hplain hslash =>
    refine outcome_take (.inl rfl) hstep (fun vs _ hhead => ⟨?_, fun heq hallows => ?_⟩)
      (hdrop _) hbehind hrewrites
    · refine (Reads.plain hplain fun hc => ?_).codeStep
      rw [hallowed, NoComment, List.take_zero, List.nil_append, hhead]
      exact hslash hc
    · simp only [Token.mk.injEq, List.cons.injEq, true_and] at heq
      rw [(hslash heq.1).2] at hallows
      cases hallows

/-- Every text is preserved: by induction on its length, in code and in templates. -/
theorem preserved_of_rewrites (inTemplate : Bool) (holes : List Nat) (t : Text) :
    Preserved inTemplate holes t := by
  induction hn : t.length using Nat.strong_induction_on generalizing inTemplate holes t with
  | _ n ih =>
    subst hn
    intro behind behind' us hbehind hrewrites
    cases inTemplate with
    | false =>
      cases t with
      | nil =>
        rw [atoms_nil] at hrewrites ⊢
        cases hrewrites
        simpa using Outcome.nil behind
      | cons c rest =>
        refine outcome_code (fun inTemplate holes t ht => ?_) (hbehind rfl) hrewrites
        exact ih _ (Nat.lt_succ_of_le ht) inTemplate holes t rfl
    | true =>
      have hshorter : ∀ (body lead rest : Text) (c : Char),
          rest.length < (body ++ (lead ++ c :: rest)).length := by
        intro body lead rest c
        simp only [List.length_append, List.length_cons]
        omega
      rcases segment_cases t with ⟨body, rest, hbody, rfl⟩ | ⟨body, rest, hbody, rfl⟩ | hend
      · exact outcome_segment [] (by decide)
          (fun _ rest _ hbody => by simpa using atoms_segment hbody rest) hbody
          (ih _ (hshorter body [] rest '`') false holes rest rfl) hrewrites
      · exact outcome_segment ['$'] (by decide)
          (fun _ rest _ hbody => by simpa using atoms_hole hbody rest) hbody
          (ih _ (hshorter body ['$'] rest '{') false (0 :: holes) rest rfl) hrewrites
      · exact outcome_openSegment hend hrewrites

end Steps

/-! ## Where a slash was closed -/

/-- A longer run of code at a slash shows in the merged tokens. -/
theorem Diverges.skeleton_ne {ts new : List (Token Kind)} (h : Diverges ts new) :
    (Token.mergeRuns .code new).map skeleton ≠ (Token.mergeRuns .code ts).map skeleton := by
  obtain ⟨before, after, text, more, hrewrites, rfl, hlonger⟩ := h
  intro heq
  -- both lists begin with the tokens put in before the slash
  rw [← skeletons_of_rewrites (mergeRuns_rewrites hrewrites)] at heq
  obtain ⟨merged, lead, hmerged⟩ := Token.mergeRuns_append (k := Kind.code) before
  obtain ⟨rest, hrest⟩ := Token.mergeRuns_cons_run (k := Kind.code) ('/' :: text) more
  obtain ⟨rest', hrest'⟩ := Token.mergeRuns_cons_run (k := Kind.code) ['/'] after
  rw [hmerged _ _ _ hrest, hmerged _ _ _ hrest', List.map_append, List.map_append] at heq
  have hrun := (List.cons.inj (List.append_cancel_left heq)).1
  simp only [skeleton, literalBody?, Option.isSome_none, Bool.false_eq_true, if_false,
    Prod.mk.injEq, true_and, Option.some.injEq] at hrun
  have hlength := congrArg List.length (List.append_cancel_left hrun)
  simp only [List.length_append, List.length_cons, List.length_nil] at hlength
  omega

end WebTrim.Script
