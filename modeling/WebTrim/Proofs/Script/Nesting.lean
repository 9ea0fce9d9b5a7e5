import WebTrim.Proofs.Script.Token
import WebTrim.Proofs.Token

/-!
# The tokens of a script are well nested

Templates stand in code, holes in templates, and code in holes. However a script ends, its tokens
are such a nesting, or a beginning of one: what is missing closes the holes and the template that are
open at the end.

* `Derives` — the grammar of token lists.
* `Continues` — what may still come when some holes are open, in code or in a template.
* `continues_atoms` — **the scanner's tokens from any state on**, with what is missing.
* `contiguous_placedAtoms` — **the places that the scanner records**.
* `tokens_lossless_and_nested` — nothing is lost, tokens begin where the scanner says, only segments are
  empty, no two tokens of code are neighbours, and the whole is well nested.
-/

set_option autoImplicit false

namespace WebTrim.Script

open Text

/-! ## The grammar -/

/-- The operator that begins a hole. -/
def openHole : Token Kind := ⟨.operator, ['$', '{']⟩

/-- The operator that ends a hole. -/
def closeHole : Token Kind := ⟨.operator, ['}']⟩

/-- The kinds of tokens that code is made of, templates apart. -/
def Kind.StandsAlone (kind : Kind) : Prop :=
  kind = .code ∨ kind = .comment ∨ kind = .string

/-- The phrases of the grammar. -/
inductive Phrase where
  | code
  | template
  | holes

/-- The tokens form a phrase: code is any number of tokens that stand alone and of templates; a
template is a segment and its holes between backticks; holes are code in braces, each followed by a
segment. -/
inductive Derives : Phrase → List (Token Kind) → Prop where
  | empty : Derives .code []
  | alone {t : Token Kind} {ts : List (Token Kind)} :
      t.kind.StandsAlone → Derives .code ts → Derives .code (t :: ts)
  | template {ts rest : List (Token Kind)} :
      Derives .template ts → Derives .code rest → Derives .code (ts ++ rest)
  | ticks {text : Text} {holes : List (Token Kind)} :
      Derives .holes holes →
      Derives .template (backtick :: ⟨.segment, text⟩ :: (holes ++ [backtick]))
  | noHole : Derives .holes []
  | hole {inner holes : List (Token Kind)} :
      Derives .code inner → Derives .holes holes → (text : Text) →
      Derives .holes (openHole :: (inner ++ closeHole :: ⟨.segment, text⟩ :: holes))

theorem Derives.append {front ts : List (Token Kind)} (hfront : Derives .code front)
    (h : Derives .code ts) : Derives .code (front ++ ts) := by
  generalize hphrase : Phrase.code = phrase at hfront
  induction hfront with
  | empty => exact h
  | alone ht _ ih => exact .alone ht (ih hphrase)
  | template htemplate _ _ ih =>
    rw [List.append_assoc]
    exact .template htemplate (ih hphrase)
  | ticks | noHole | hole => cases hphrase

/-- Code stays code without a first token that is code. -/
theorem Derives.tail {t : Token Kind} {ts : List (Token Kind)} (ht : t.kind = .code)
    (h : Derives .code (t :: ts)) : Derives .code ts := by
  generalize hall : t :: ts = all at h
  cases h with
  | empty => cases hall
  | alone _ h =>
    cases hall
    exact h
  | template htemplate _ =>
    cases htemplate with
    | ticks =>
      cases hall
      cases ht

/-! ## What may still come -/

/-- The tokens that may still come with a number of holes open: in code, or in a template where a
segment begins. -/
inductive Continues : Bool → Nat → List (Token Kind) → Prop where
  | code {ts : List (Token Kind)} : Derives .code ts → Continues false 0 ts
  | hole {inner ts : List (Token Kind)} {depth : Nat} :
      Derives .code inner → Continues true depth ts →
      Continues false (depth + 1) (inner ++ closeHole :: ts)
  | template {text : Text} {holes ts : List (Token Kind)} {depth : Nat} :
      Derives .holes holes → Continues false depth ts →
      Continues true depth (⟨.segment, text⟩ :: (holes ++ backtick :: ts))

namespace Continues

variable {depth : Nat} {ts : List (Token Kind)}

/-- More code may come first. -/
theorem append {front : List (Token Kind)} (hfront : Derives .code front)
    (h : Continues false depth ts) : Continues false depth (front ++ ts) := by
  cases h with
  | code h => exact .code (hfront.append h)
  | hole hinner h =>
    rw [← List.append_assoc]
    exact .hole (hfront.append hinner) h

theorem alone {t : Token Kind} (ht : t.kind.StandsAlone) (h : Continues false depth ts) :
    Continues false depth (t :: ts) :=
  append (.alone ht .empty) h

/-- In code, a template may begin. -/
theorem openTemplate (h : Continues true depth ts) : Continues false depth (backtick :: ts) := by
  cases h with
  | @template text holes rest _ hholes h =>
    have htemplate : Derives .code (backtick :: ⟨.segment, text⟩ :: (holes ++ [backtick])) := by
      simpa using Derives.template (.ticks hholes) .empty
    simpa using append htemplate h

/-- In code, the innermost hole may end. -/
theorem endHole (h : Continues true depth ts) : Continues false (depth + 1) (closeHole :: ts) :=
  .hole .empty h

/-- After a segment, the template may end. -/
theorem endTemplate (text : Text) (h : Continues false depth ts) :
    Continues true depth (⟨.segment, text⟩ :: backtick :: ts) :=
  .template .noHole h

/-- After a segment, a hole may begin. -/
theorem openHole (text : Text) (h : Continues false (depth + 1) ts) :
    Continues true depth (⟨.segment, text⟩ :: Script.openHole :: ts) := by
  cases h with
  | hole hinner h =>
    cases h with
    | @template after holes rest _ hholes h =>
      have hmore : Continues true depth (⟨.segment, text⟩ :: (_ ++ backtick :: rest)) :=
        .template (hinner.hole hholes after) h
      simpa using hmore

/-- Code may come without a first token that is code. -/
theorem tail {t : Token Kind} (ht : t.kind = .code) (h : Continues false depth (t :: ts)) :
    Continues false depth ts := by
  generalize hall : t :: ts = all at h
  cases h with
  | code h =>
    subst hall
    exact .code (h.tail ht)
  | @hole inner rest depth hinner h =>
    cases inner with
    | nil =>
      cases hall
      cases ht
    | cons u inner =>
      cases hall
      exact .hole (hinner.tail ht) h

/-- Merging a token of code with the code after it changes nothing. -/
theorem mergeRuns_cons {t : Token Kind} (ht : t.kind = .code) {rest : List (Token Kind)}
    (h : Continues false depth (Token.mergeRuns .code ts ++ rest)) :
    Continues false depth (Token.mergeRuns .code (t :: ts) ++ rest) := by
  rw [Token.mergeRuns]
  cases hmerged : Token.mergeRuns Kind.code ts with
  | nil =>
    rw [hmerged] at h
    exact alone (.inl ht) h
  | cons u merged =>
    rw [hmerged] at h
    by_cases hrun : t.kind = .code ∧ u.kind = .code
    · simp only [if_pos hrun]
      exact alone (.inl rfl) (tail hrun.2 h)
    · simp only [if_neg hrun]
      exact alone (.inl ht) h

end Continues

/-! ## The end of a script -/

/-- What closes a number of open holes, each with its template. -/
def closeHoles : Nat → List (Token Kind)
  | 0 => []
  | depth + 1 => closeHole :: ⟨.segment, []⟩ :: backtick :: closeHoles depth

theorem continues_closeHoles (depth : Nat) : Continues false depth (closeHoles depth) := by
  induction depth with
  | zero => exact .code .empty
  | succ depth ih => exact (ih.endTemplate []).endHole

/-- What is missing at the end of a script: it closes the open holes, after a template that may be
open in the innermost one. -/
def IsClosing (rest : List (Token Kind)) : Prop :=
  ∃ depth, rest = closeHoles depth ∨ rest = backtick :: closeHoles depth

/-- What is taken in code, other than braces and templates, stands alone. -/
theorem standsAlone_of_take {behind rest : Text} {c : Char} {kind : Kind} {n : Nat}
    (h : codeStep behind c rest = .take kind n) : kind.StandsAlone := by
  cases reads_of_codeStep h with
  | lineComment | blockComment => exact .inr (.inl rfl)
  | string => exact .inr (.inr rfl)
  | regex | openSlash | plain => exact .inl rfl

/-- **The tokens from any state of the scanner on, with what is missing at the end.** -/
theorem continues_atoms (inTemplate : Bool) (holes : List Nat) (behind t : Text) :
    ∃ rest, IsClosing rest ∧
      Continues inTemplate holes.length
        (Token.mergeRuns .code (atoms inTemplate holes behind t) ++ rest) := by
  unfold atoms
  generalize 0 = start
  fun_induction placedAtoms inTemplate holes behind start t with
  | case1 holes behind start t n segment rest hdrop ih =>
    obtain ⟨closing, hclosing, h⟩ := ih
    refine ⟨closing, hclosing, ?_⟩
    rw [List.map_cons, List.map_cons, Token.mergeRuns_cons_of_ne (by simp),
      Token.mergeRuns_cons_of_ne (by simp)]
    exact h.endTemplate _
  | case2 holes behind start t n segment rest hdrop ih =>
    obtain ⟨closing, hclosing, h⟩ := ih
    refine ⟨closing, hclosing, ?_⟩
    rw [List.map_cons, List.map_cons, Token.mergeRuns_cons_of_ne (by simp),
      Token.mergeRuns_cons_of_ne (by simp)]
    exact h.openHole _
  | case3 holes behind start t =>
    refine ⟨backtick :: closeHoles holes.length, ⟨_, .inr rfl⟩, ?_⟩
    exact (continues_closeHoles holes.length).endTemplate t
  | case4 inTemplate holes behind start hcode =>
    obtain rfl : inTemplate = false := by simpa using hcode
    exact ⟨closeHoles holes.length, ⟨_, .inl rfl⟩, continues_closeHoles holes.length⟩
  | case5 inTemplate holes behind start hcode c rest kind n hstep text ih =>
    obtain rfl : inTemplate = false := by simpa using hcode
    obtain ⟨closing, hclosing, h⟩ := ih
    refine ⟨closing, hclosing, ?_⟩
    by_cases hkind : kind = .code
    · exact h.mergeRuns_cons hkind
    · rw [List.map_cons, Token.mergeRuns_cons_of_ne hkind]
      exact h.alone (standsAlone_of_take hstep)
  | case6 inTemplate holes behind start hcode c rest hstep ih =>
    obtain rfl : inTemplate = false := by simpa using hcode
    obtain ⟨closing, hclosing, h⟩ := ih
    cases reads_of_codeStep hstep with
    | template =>
      refine ⟨closing, hclosing, ?_⟩
      rw [List.map_cons, Token.mergeRuns_cons_of_ne (by simp)]
      exact h.openTemplate
  | case7 inTemplate holes behind start hcode c rest hstep holes' ih =>
    obtain rfl : inTemplate = false := by simpa using hcode
    obtain ⟨closing, hclosing, h⟩ := ih
    have hdepth : holes'.length = holes.length := by cases holes <;> rfl
    rw [hdepth] at h
    exact ⟨closing, hclosing, h.mergeRuns_cons rfl⟩
  | case8 inTemplate behind start hcode c rest hstep outer ih =>
    obtain rfl : inTemplate = false := by simpa using hcode
    obtain ⟨closing, hclosing, h⟩ := ih
    cases reads_of_codeStep hstep with
    | closeBrace =>
      refine ⟨closing, hclosing, ?_⟩
      rw [List.map_cons, Token.mergeRuns_cons_of_ne (by simp)]
      exact h.endHole
  | case9 inTemplate behind start hcode c rest hstep depth outer ih =>
    obtain rfl : inTemplate = false := by simpa using hcode
    obtain ⟨closing, hclosing, h⟩ := ih
    exact ⟨closing, hclosing, h.mergeRuns_cons rfl⟩
  | case10 inTemplate behind start hcode c rest hstep ih =>
    obtain rfl : inTemplate = false := by simpa using hcode
    obtain ⟨closing, hclosing, h⟩ := ih
    exact ⟨closing, hclosing, h.mergeRuns_cons rfl⟩

/-! ## The tokens of a script -/

/-- **The scanner records where its tokens begin**, from any state on. -/
theorem contiguous_placedAtoms (inTemplate : Bool) (holes : List Nat) (behind : Text) (start : Nat)
    (t : Text) : Placed.Contiguous start (placedAtoms inTemplate holes behind start t) := by
  fun_induction placedAtoms inTemplate holes behind start t with
  | case1 holes behind start t n segment rest hdrop ih
  | case2 holes behind start t n segment rest hdrop ih =>
    have hfits : n ≤ t.length := by
      have := congrArg List.length hdrop
      simp only [List.length_drop, List.length_cons] at this
      omega
    have hlength : segment.text.length = n := List.length_take_of_le hfits
    refine Placed.contiguous_cons.mpr ⟨rfl, ?_⟩
    rw [hlength]
    exact Placed.contiguous_cons.mpr ⟨rfl, ih⟩
  | case3 => exact Placed.contiguous_cons.mpr ⟨rfl, Placed.contiguous_nil _⟩
  | case4 => exact Placed.contiguous_nil _
  | case5 inTemplate holes behind start hcode c rest kind n hstep text ih =>
    refine Placed.contiguous_cons.mpr ⟨rfl, ?_⟩
    by_cases hfits : n ≤ rest.length
    · simpa only [text, List.length_cons, List.length_take_of_le hfits] using ih
    · -- the cursor would run past the end, where there are no more tokens
      rw [List.drop_eq_nil_of_le (Nat.le_of_not_le hfits), placedAtoms]
      simp [Placed.contiguous_nil]
  | case6 inTemplate holes behind start hcode c rest hstep ih
  | case7 inTemplate holes behind start hcode c rest hstep holes' ih
  | case8 inTemplate behind start hcode c rest hstep outer ih
  | case9 inTemplate behind start hcode c rest hstep depth outer ih
  | case10 inTemplate behind start hcode c rest hstep ih =>
    exact Placed.contiguous_cons.mpr ⟨rfl, ih⟩

/-- Only segments are empty. -/
theorem segment_of_empty (inTemplate : Bool) (holes : List Nat) (behind t : Text) :
    ∀ token ∈ atoms inTemplate holes behind t, token.text = [] → token.kind = .segment := by
  refine forall_mem_atoms (fun _ _ => rfl) (fun _ hne hempty => absurd hempty hne) ?_ ?_ _ _ _ _
  · exact fun _ => nofun
  · exact fun _ => nofun

/-- **The scanner of scripts is lossless, and its tokens are well nested**, whatever the script and
wherever it ends. The texts of the tokens concatenate to the script. The recorded places are the sums
of the lengths before them: each token begins where the one before it ends, and its text stands there.
Only segments are empty, and no two tokens of code are neighbours. With what closes the holes and the
template that are open at the end, the tokens are code of the grammar. -/
theorem tokens_lossless_and_nested (script : Text) :
    Token.join (tokens script) = script ∧
      (placedTokens script).map Placed.start = Token.starts 0 (tokens script) ∧
      (∀ p ∈ placedTokens script, (script.drop p.start).take p.text.length = p.text) ∧
      ((placedTokens script).IsChain fun p q => q.start = p.start + p.text.length) ∧
      (∀ t ∈ tokens script, t.text = [] → t.kind = .segment) ∧
      ((tokens script).IsChain fun t u => ¬(t.kind = .code ∧ u.kind = .code)) ∧
      ∃ rest, IsClosing rest ∧ Derives .code (tokens script ++ rest) := by
  have hjoin : Token.join (tokens script) = script := by
    rw [tokens_eq, Token.join_mergeRuns, join_atoms]
  have hplaces : Placed.Contiguous 0 (placedTokens script) :=
    (contiguous_placedAtoms false [] [] 0 script).mergeRuns Kind.code
  refine ⟨hjoin, hplaces, ?_, hplaces.isChain, ?_, ?_, ?_⟩
  · have hslices := hplaces.slice []
    rwa [List.nil_append, ← tokens, hjoin] at hslices
  · intro t ht hempty
    rw [tokens_eq] at ht
    have hatoms := segment_of_empty false [] [] script
    by_cases hcode : t.kind = .code
    · refine absurd hempty (Token.text_ne_nil_of_mem_mergeRuns (fun u hu hkind hnil => ?_) t ht hcode)
      rw [hatoms u hu hnil] at hkind
      cases hkind
    · exact hatoms t ((Token.mem_mergeRuns hcode).mp ht) hempty
  · rw [tokens_eq]
    exact Token.isChain_mergeRuns Kind.code _
  · rw [tokens_eq]
    obtain ⟨rest, hclosing, hcontinues⟩ := continues_atoms false [] [] script
    cases hcontinues with
    | code h => exact ⟨rest, hclosing, h⟩

end WebTrim.Script
