import WebTrim.Proofs.Stylesheet.Selector
import WebTrim.Proofs.Text.Word
import WebTrim.Proofs.Token
import WebTrim.Stylesheet.Rename

/-!
# Renaming a class selector

What renaming a stylesheet makes of the selector of one class.

* `renameMarked_of_not_mem`, `renameProperties_of_not_mem`, … — a text without the character that
  every find begins with stays as it is.
* `codeOnly_escape` — a raw form is code wherever it stands, so a selector is one token.
* `Guarded` — the beginning of the selector of a class whose name begins with a digit; no renaming
  changes it.
* `rename_selector_iff` — **a selector is renamed exactly if the name begins with no digit**.
-/

set_option autoImplicit false

namespace WebTrim.Stylesheet

open Text

/-! ## Texts that stay -/

theorem renameMarked_of_not_mem {mark : Char} (hmark : IsMark mark) (renames : RenameMap) {t : Text}
    (h : mark ∉ t) : renameMarked mark renames t = t := by
  refine Matcher.replaceAll_of_not_found fun before c rest hsuffix => ?_
  rcases hstep : markedMatcher mark before c rest with ⟨n, found⟩
  cases found with
  | none => rfl
  | some m =>
    obtain ⟨rfl, -⟩ := markedMatcher_found hmark hstep
    exact absurd (hsuffix.subset List.mem_cons_self) h

theorem renameProperties_of_not_mem (renames : RenameMap) {t : Text} (h : '-' ∉ t) :
    renameProperties renames t = t := by
  refine Matcher.replaceAll_of_not_found fun before c rest hsuffix => ?_
  have hc : c ≠ '-' := fun hc => h (hc ▸ hsuffix.subset List.mem_cons_self)
  simp [propertyMatcher, Matcher.ofPattern, hc]

theorem AttributeSelector.renameAll_of_not_mem (classes ids : RenameMap) {t : Text} (h : '[' ∉ t) :
    AttributeSelector.renameAll classes ids t = t := by
  refine Matcher.replaceAll_of_not_found fun before c rest hsuffix => ?_
  have hc : c ≠ '[' := fun hc => h (hc ▸ hsuffix.subset List.mem_cons_self)
  simp [AttributeSelector.matcher, Matcher.ofPattern, hc]

theorem dropWord?_suffix {word t rest : Text} (h : dropWord? word t = some rest) : rest <:+ t := by
  obtain ⟨spelled, -, rfl⟩ := dropWord?_eq_some_iff.mp h
  exact List.suffix_append _ _

theorem UrlFragment.readQuote_suffix (t : Text) : (UrlFragment.readQuote t).2 <:+ t := by
  unfold UrlFragment.readQuote
  split
  · split
    · exact List.suffix_cons _ _
    · exact List.suffix_refl _
  · exact List.suffix_refl _

/-- A reference to an id contains a number sign. -/
theorem UrlFragment.mem_of_read? {t : Text} {found : UrlFragment × Text}
    (h : UrlFragment.read? t = some found) : '#' ∈ t := by
  unfold UrlFragment.read? at h
  simp only at h
  split at h
  · rename_i rest heq
    have hmem : '#' ∈ (UrlFragment.readQuote (t.dropWhile isBlank)).2 := by
      rw [heq]
      exact List.mem_cons_self
    exact (List.dropWhile_suffix _).subset ((UrlFragment.readQuote_suffix _).subset hmem)
  · cases h

theorem UrlFragment.renameAll_of_not_mem (ids : RenameMap) {t : Text} (h : '#' ∉ t) :
    UrlFragment.renameAll ids t = t := by
  refine Matcher.replaceAll_of_not_found fun before c rest hsuffix => ?_
  simp only [UrlFragment.matcher, Matcher.ofPattern]
  cases hword : dropWord? "url(".toList (c :: rest) with
  | none => rfl
  | some after =>
    cases hread : UrlFragment.read? after with
    | none => simp [hread]
    | some found =>
      have hmem := UrlFragment.mem_of_read? hread
      exact absurd (hsuffix.subset ((dropWord?_suffix hword).subset hmem)) h

/-! ## Raw forms are code -/

/-- In every stylesheet that is code, the text may be put at the beginning. -/
def CodeOnly (t : Text) : Prop :=
  ∀ s, (∀ p ∈ scan tokenStep () s, p.note = .code) → ∀ p ∈ scan tokenStep () (t ++ s), p.note = .code

namespace CodeOnly

theorem nil : CodeOnly [] :=
  fun _ h => h

theorem append {t t' : Text} (h : CodeOnly t) (h' : CodeOnly t') : CodeOnly (t ++ t') := by
  intro s hs
  rw [List.append_assoc]
  exact h _ (h' s hs)

theorem flatMap {spell : Char → Text} (h : ∀ c, CodeOnly (spell c)) (name : Text) :
    CodeOnly (name.flatMap spell) := by
  induction name with
  | nil => exact .nil
  | cons c name ih =>
    rw [List.flatMap_cons]
    exact (h c).append ih

/-- A character that begins no comment, string or escape. -/
theorem single {c : Char} (h : c ∉ ['\\', '/', '"', '\'']) : CodeOnly [c] := by
  intro s hs
  simp only [List.mem_cons, List.not_mem_nil, or_false, not_or] at h
  rw [List.singleton_append, scan_cons]
  simpa [tokenStep, h] using hs

theorem escaped (c : Char) : CodeOnly ['\\', c] := by
  intro s hs
  simp only [List.cons_append, List.nil_append]
  rw [scan_cons]
  simpa [tokenStep] using hs

theorem identChar {c : Char} (h : isIdentChar c = true) : CodeOnly [c] := by
  refine single fun hc => ?_
  simp only [List.mem_cons, List.not_mem_nil, or_false] at hc
  rcases hc with rfl | rfl | rfl | rfl <;> exact absurd h (by decide)

theorem hexEscape {c : Char} (h : c.toNat < 128) : CodeOnly (hexEscape c) := by
  obtain ⟨hdigits, -, hsome, -⟩ := hexOfNat_of_lt c.toNat h
  unfold Stylesheet.hexEscape
  cases hhex : hexOfNat c.toNat with
  | nil => exact absurd hhex hsome
  | cons d digits =>
    rw [hhex, List.all_eq_true] at hdigits
    have hrest : CodeOnly (digits ++ [' ']) := by
      clear hhex
      induction digits with
      | nil => exact single (by decide)
      | cons e digits ih =>
        have he : CodeOnly [e] := identChar (isIdentChar_of_isHexDigit (hdigits e (by simp)))
        refine he.append (ih fun x hx => hdigits x ?_)
        rcases List.mem_cons.mp hx with rfl | hx
        · exact List.mem_cons_self
        · exact List.mem_cons_of_mem _ (List.mem_cons_of_mem _ hx)
    exact (escaped d).append hrest

theorem escapeChar (c : Char) : CodeOnly (escapeChar c) := by
  unfold Stylesheet.escapeChar
  split
  · exact identChar (by decide)
  · split
    · rename_i hcontrol
      simp only [Bool.or_eq_true, decide_eq_true_eq] at hcontrol
      exact hexEscape (by omega)
    · split
      · rename_i hident
        exact identChar hident
      · exact escaped c

theorem escapeLeading (c : Char) : CodeOnly (escapeLeading c) := by
  unfold Stylesheet.escapeLeading
  split
  · rename_i hdigit
    have hrange := toNat_of_isAsciiDigit hdigit
    exact hexEscape (by omega)
  · exact escapeChar c

end CodeOnly

/-- **A raw form is code wherever it stands.** -/
theorem codeOnly_escape (name : Text) : CodeOnly (escape name) := by
  fun_cases escape name with
  | case1 => exact .nil
  | case2 => exact .escaped '-'
  | case3 d rest =>
    exact (CodeOnly.identChar (by decide)).append
      ((CodeOnly.escapeLeading d).append (.flatMap CodeOnly.escapeChar rest))
  | case4 c d rest hdash =>
    have hrest := CodeOnly.flatMap CodeOnly.escapeChar (d :: rest)
    rw [List.append_assoc]
    exact (CodeOnly.escapeLeading c).append hrest
  | case5 c hdash => exact CodeOnly.escapeLeading c

/-- A stylesheet that is all code is one token. -/
theorem mapCode_of_code (f : Text → Text) {t : Text} (hne : t ≠ [])
    (h : ∀ p ∈ scan tokenStep () t, p.note = .code) : mapCode f t = f t := by
  have hkinds : ∀ a ∈ (scan tokenStep () t).map Token.ofPiece, a.kind = .code := by
    intro a ha
    obtain ⟨p, hp, rfl⟩ := List.mem_map.mp ha
    exact h p hp
  have hjoin : Token.join ((scan tokenStep () t).map Token.ofPiece) = t := by
    rw [Token.join_map_ofPiece, scan_text]
  have hsome : (scan tokenStep () t).map Token.ofPiece ≠ [] := by
    intro hnil
    rw [hnil] at hjoin
    exact hne hjoin.symm
  rw [mapCode, tokens_eq, Token.mergeRuns_of_forall hsome hkinds, hjoin]
  simp

/-! ## Selectors of names that begin with a digit -/

/-- The selector of a class and the brace after it. -/
def selectorOf (raw : Text) : Text :=
  '.' :: (raw ++ ['{'])

/-- The beginning of the selector of a class whose name begins with a digit: the digit is escaped. -/
def Guarded (t : Text) : Prop :=
  (∃ rest, t = '.' :: '\\' :: rest) ∨ ∃ rest, t = '.' :: '-' :: '\\' :: rest

theorem guarded_selectorOf {name : Text} (h : startsWithDigit name = true) :
    Guarded (selectorOf (escape name)) := by
  have hdigit : ∀ c, isAsciiDigit c = true → escapeLeading c = hexEscape c := by
    intro c hc
    rw [escapeLeading, if_pos hc]
  fun_cases escape name with
  | case1 => cases h
  | case2 => exact absurd h (by decide)
  | case3 d more =>
    have hd : isAsciiDigit d = true := h
    rw [hdigit d hd]
    exact .inr ⟨_, rfl⟩
  | case4 c d more hdash =>
    have hc : isAsciiDigit c = true := by simpa [startsWithDigit, hdash] using h
    rw [hdigit c hc]
    exact .inl ⟨_, rfl⟩
  | case5 c hdash =>
    have hc : isAsciiDigit c = true := by simpa [startsWithDigit] using h
    rw [hdigit c hc]
    exact .inl ⟨_, rfl⟩

/-- A matcher that passes a full stop, an escape and a hyphen before an escape keeps the beginning
of such a selector. -/
theorem Guarded.replaceAll {α : Type} {m : Matcher α} {f : α → Option Text} {t : Text}
    (h : Guarded t) (hdot : ∀ before rest, m before '.' rest = (0, none))
    (hdash : ∀ before rest, m before '-' ('\\' :: rest) = (0, none))
    (hslash : ∀ before rest, (m before '\\' rest).2 = none) : Guarded (m.replaceAll f t) := by
  rw [Matcher.replaceAll_eq]
  rcases h with ⟨rest, rfl⟩ | ⟨rest, rfl⟩
  · obtain ⟨more, hmore⟩ := Matcher.rewritten_not_found (f := f) (hslash (some '.') rest)
    rw [Matcher.rewritten_pass (hdot _ _), hmore]
    exact .inl ⟨more, rfl⟩
  · obtain ⟨more, hmore⟩ := Matcher.rewritten_not_found (f := f) (hslash (some '-') rest)
    rw [Matcher.rewritten_pass (hdot _ _), Matcher.rewritten_pass (hdash _ _), hmore]
    exact .inr ⟨more, rfl⟩

theorem Guarded.renameMarked {t : Text} (h : Guarded t) (ids : RenameMap) :
    Guarded (renameMarked '#' ids t) := by
  refine h.replaceAll (fun before rest => ?_) (fun before rest => ?_) (fun before rest => rfl)
  · exact markedMatcher_pass (by decide) (by decide) fun hurl => by
      exact absurd hurl (by simp [opensUrl, dropWord?, matchesLetter, lowerChar])
  · exact markedMatcher_pass (by decide) (by decide) fun hurl => by
      exact absurd hurl (by simp [opensUrl, dropWord?, matchesLetter, lowerChar])

theorem Guarded.renameProperties {t : Text} (h : Guarded t) (properties : RenameMap) :
    Guarded (renameProperties properties t) := by
  refine h.replaceAll (fun before rest => ?_) (fun before rest => ?_) (fun before rest => ?_) <;>
    simp [propertyMatcher, Matcher.ofPattern]

theorem Guarded.renameSelectors {t : Text} (h : Guarded t) (classes ids : RenameMap) :
    Guarded (AttributeSelector.renameAll classes ids t) := by
  refine h.replaceAll (fun before rest => ?_) (fun before rest => ?_) (fun before rest => ?_) <;>
    simp [AttributeSelector.matcher, Matcher.ofPattern]

theorem Guarded.renameFragments {t : Text} (h : Guarded t) (ids : RenameMap) :
    Guarded (UrlFragment.renameAll ids t) := by
  refine h.replaceAll (fun before rest => ?_) (fun before rest => ?_) (fun before rest => ?_) <;>
    simp [UrlFragment.matcher, Matcher.ofPattern, dropWord?, matchesLetter, lowerChar]

/-! ## Selectors of other names -/

theorem escapeChar_of_letter {c : Char} (h : isAsciiLetter c = true) : escapeChar c = [c] := by
  have hrange := toNat_of_isAsciiLetter h
  unfold escapeChar
  rw [if_neg (by omega), if_neg (by simp; omega), if_pos (isIdentChar_of_isAsciiLetter h)]

theorem escapeLeading_of_letter {c : Char} (h : isAsciiLetter c = true) : escapeLeading c = [c] := by
  have hdigit : ¬isAsciiDigit c = true := fun hdigit => by
    have hrange := toNat_of_isAsciiLetter h
    have hrange' := toNat_of_isAsciiDigit hdigit
    omega
  rw [escapeLeading, if_neg hdigit, escapeChar_of_letter h]

/-- A name of letters is its own raw form. -/
theorem escape_of_letters {name : Text} (h : ∀ c ∈ name, isAsciiLetter c = true) :
    escape name = name := by
  have hflat : ∀ rest : Text, (∀ c ∈ rest, isAsciiLetter c = true) →
      rest.flatMap escapeChar = rest := by
    intro rest hrest
    rw [List.flatMap_congr fun c hc => escapeChar_of_letter (hrest c hc)]
    exact List.flatMap_singleton' rest
  fun_cases escape name with
  | case1 => rfl
  | case2 => exact absurd (h '-' (by simp)) (by decide)
  | case3 d rest => exact absurd (h '-' (by simp)) (by decide)
  | case4 c d rest hdash =>
    rw [escapeLeading_of_letter (h c (by simp)), escapeChar_of_letter (h d (by simp)),
      hflat rest fun x hx => h x (by simp [hx])]
    rfl
  | case5 c hdash => exact escapeLeading_of_letter (h c (by simp))

section Selector

variable {classes ids properties : RenameMap} {name short : Text}

theorem identLength_brace : identLength ['{'] = 0 := by
  decide +kernel

theorem markedMatcher_brace (before : Option Char) : markedMatcher '.' before '{' [] = (0, none) :=
  markedMatcher_pass (by decide) (by decide) fun hopens => absurd hopens (by decide)

/-- Behind the full stop, a class is renamed unless its name begins with a digit. -/
theorem renameMarked_selector (h : Writable '.' name) (hfind : classes.find? name = some short) :
    renameMarked '.' classes (selectorOf (escape name)) = selectorOf (escape short) := by
  have hstep : ∀ before, markedMatcher '.' before '.' (escape name ++ ['{']) = _ :=
    fun before => markedMatcher_escape (.inl rfl) identLength_brace h
  rw [renameMarked, Matcher.replaceAll_eq, selectorOf, rewritten_cons]
  simp only [Matcher.step, hstep, List.take_left, List.drop_left]
  rw [Matcher.rewritten_pass (markedMatcher_brace _)]
  simp [Matcher.replacement, hfind, selectorOf]

/-- Behind the full stop, a name that begins with a digit is passed over. -/
theorem renameMarked_digit (classes : RenameMap) (hnul : ∀ c ∈ name, c.toNat ≠ 0)
    (h : startsWithDigit name = true) :
    renameMarked '.' classes (selectorOf (escape name)) = selectorOf (escape name) := by
  have hspells := spells_escape name
  have hlength : identLength (escape name ++ ['{']) = (escape name).length := by
    rw [hspells.identLength, identLength_brace, Nat.add_zero]
  have hread : unescape (escape name) = name := by
    have := hspells.unescape []
    simpa [map_readBack hnul] using this
  have hnone : nameBehind '.' (escape name) = none := by
    simp [nameBehind, hread, isMarkable, h]
  have hstep : ∀ before, markedMatcher '.' before '.' (escape name ++ ['{']) =
      ((escape name).length, none) := by
    intro before
    rw [markedMatcher_mark (.inl rfl), hlength, List.take_left, hnone]
  rw [renameMarked, Matcher.replaceAll_eq, selectorOf, rewritten_cons]
  simp only [Matcher.step, hstep, List.take_left, List.drop_left]
  rw [Matcher.rewritten_pass (markedMatcher_brace _)]
  simp [Matcher.replacement]

/-- A selector is one token of code. -/
theorem mapCode_selectorOf (f : Text → Text) (name : Text) :
    mapCode f (selectorOf (escape name)) = f (selectorOf (escape name)) := by
  have hdot : CodeOnly ['.'] := .single (by decide)
  have hbrace : CodeOnly ['{'] := .single (by decide)
  have hcode := hdot.append ((codeOnly_escape name).append hbrace) [] (by simp)
  rw [List.append_nil] at hcode
  exact mapCode_of_code f (List.cons_ne_nil _ _) hcode

theorem not_mem_selectorOf {c : Char} (hletters : ∀ d ∈ short, isAsciiLetter d = true)
    (hc : isAsciiLetter c = false) (hdot : c ≠ '.') (hbrace : c ≠ '{') : c ∉ selectorOf short := by
  intro hmem
  simp only [selectorOf, List.mem_cons, List.mem_append, List.not_mem_nil, or_false] at hmem
  rcases hmem with rfl | hmem | rfl
  · exact hdot rfl
  · rw [hletters c hmem] at hc
    cases hc
  · exact hbrace rfl

/-- **A selector is renamed exactly if the name begins with no digit.** -/
theorem rename_selector_iff (hfind : classes.find? name = some short) (hname : name ≠ [])
    (hnul : ∀ c ∈ name, c.toNat ≠ 0) (hshort : short ≠ [])
    (hletters : ∀ c ∈ short, isAsciiLetter c = true) :
    rename classes ids properties (selectorOf (escape name)) = selectorOf short ↔
      startsWithDigit name = false := by
  rw [rename, mapCode_selectorOf, renameCode]
  cases hdigit : startsWithDigit name with
  | false =>
    have hwritable : Writable '.' name := ⟨hname, hnul, hdigit, fun h => absurd h (by decide)⟩
    refine iff_of_true ?_ rfl
    rw [renameMarked_selector hwritable hfind, escape_of_letters hletters]
    have hnot : ∀ c, isAsciiLetter c = false → c ≠ '.' → c ≠ '{' → c ∉ selectorOf short :=
      fun c => not_mem_selectorOf hletters
    rw [renameMarked_of_not_mem (.inr rfl) ids (hnot '#' (by decide) (by decide) (by decide)),
      renameProperties_of_not_mem properties (hnot '-' (by decide) (by decide) (by decide)),
      AttributeSelector.renameAll_of_not_mem classes ids
        (hnot '[' (by decide) (by decide) (by decide)),
      UrlFragment.renameAll_of_not_mem ids (hnot '#' (by decide) (by decide) (by decide))]
  | true =>
    refine iff_of_false (fun heq => ?_) (by simp)
    rw [renameMarked_digit classes hnul hdigit] at heq
    have hguarded := ((((guarded_selectorOf hdigit).renameMarked ids).renameProperties
      properties).renameSelectors classes ids).renameFragments ids
    rw [heq] at hguarded
    -- a short name begins with a letter, not with an escape or a hyphen
    obtain ⟨c, rest, rfl⟩ := List.exists_cons_of_ne_nil hshort
    have hc := hletters c List.mem_cons_self
    rcases hguarded with ⟨more, hmore⟩ | ⟨more, hmore⟩
    · obtain rfl : c = '\\' := (List.cons.inj (List.cons.inj hmore).2).1
      exact absurd hc (by decide)
    · obtain rfl : c = '-' := (List.cons.inj (List.cons.inj hmore).2).1
      exact absurd hc (by decide)

end Selector

end WebTrim.Stylesheet
