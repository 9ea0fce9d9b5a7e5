import WebTrim.Proofs.Stylesheet.Escape
import WebTrim.Proofs.Stylesheet.Rename
import WebTrim.Proofs.Text.Size
import WebTrim.Proofs.Token

/-!
# Renaming makes a stylesheet smaller

Every pass over a stylesheet puts a short name in the place of a longer spelling, so it leaves the
text as it is or makes it strictly smaller.

* `RenameMap.Shortens` — short names that are smaller than their names, with their spelling.
* `escapes_code_subset` — the code tokens of a stylesheet hold no other escapes.
* `renameMarked_shrinks`, `renameProperties_shrinks`, `AttributeSelector.renameAll_shrinks`,
  `UrlFragment.renameAll_shrinks` — the four passes.
* `rename_shrinks` — **a renamed stylesheet is the old one or smaller**.
-/

set_option autoImplicit false

namespace WebTrim

open Text

/-- Every short name is smaller than its name, and made of `lead` and characters of one kind. -/
structure RenameMap.Shortens (lead : Text) (kind : Char → Bool) (m : RenameMap) : Prop where
  smaller : ∀ {name short}, m.find? name = some short → byteLength short < byteLength name
  spelled : ∀ {name short}, m.find? name = some short →
    ∃ word, short = lead ++ word ∧ ∀ c ∈ word, kind c = true

namespace RenameMap.Shortens

variable {m : RenameMap} {name short : Text}

theorem letters (h : m.Shortens [] isAsciiLetter) (hfind : m.find? name = some short) :
    ∀ c ∈ short, isAsciiLetter c = true := by
  obtain ⟨word, rfl, hword⟩ := h.spelled hfind
  exact hword

theorem rename_shrinks {lead : Text} {kind : Char → Bool} (h : m.Shortens lead kind) (name : Text) :
    ShrinksTo name (m.rename name) := by
  unfold RenameMap.rename
  cases hfind : m.find? name with
  | none => exact .refl _
  | some short => exact .of_lt (h.smaller hfind)

end RenameMap.Shortens

namespace Stylesheet

/-! ## Names behind a mark -/

section Marked

variable {mark : Char} {renames : RenameMap}

/-- The matcher for names behind a mark cuts no escape. -/
theorem escapes_drop_marked (hmark : IsMark mark) (before : Option Char) (c : Char) (rest : Text) :
    escapes (rest.drop (markedMatcher mark before c rest).1) ⊆ escapes (c :: rest) := by
  rcases markedMatcher_cases hmark before c rest with
    ⟨rfl, hstep⟩ | ⟨hslash, -, -, hstep⟩ | ⟨hslash, -, -, hstep⟩ | ⟨rfl, hstep⟩
  · rw [hstep]
    exact escapes_drop_one_subset rest
  · rw [hstep, escapes_cons_of_ne hslash]
    have hbracket : ')' ≠ '\\' := by decide
    exact escapes_drop_lengthThrough [] hbracket rest
  · rw [hstep, escapes_cons_of_ne hslash]
    exact List.Subset.refl _
  · rw [hstep, escapes_cons_of_ne hmark.ne_backslash]
    exact escapes_drop_identLength rest

/-- **Renaming behind a mark leaves the code or makes it smaller**, if no escape in it stands for
U+FFFD. -/
theorem renameMarked_shrinks (hmark : IsMark mark) (h : renames.Shortens [] isAsciiLetter)
    {code : Text} (hcode : replacementChar ∉ escapes code) :
    ShrinksTo code (renameMarked mark renames code) := by
  refine Matcher.replaceAll_piecewise ShrinksTo.piecewise
    (forall_mem_scan_of (fun t => replacementChar ∉ escapes t) ?_ ?_ none code hcode)
  · intro before c rest hrest hmem
    exact hrest (escapes_drop_marked hmark before c rest hmem)
  · intro before c rest hrest m out hnote hout
    rcases hstep : markedMatcher mark before c rest with ⟨n, found⟩
    simp only [Matcher.step, hstep] at hnote ⊢
    subst hnote
    obtain ⟨rfl, rfl, rfl, -⟩ := markedMatcher_found hmark hstep
    obtain ⟨short, hfind, rfl⟩ := Option.map_eq_some_iff.mp hout
    rw [escapes_cons_of_ne hmark.ne_backslash] at hrest
    have hname := byteLength_unescape_le fun hmem => hrest (escapes_take_identLength rest hmem)
    have hshort := h.smaller hfind
    rw [escape_of_letters (h.letters hfind)]
    exact .of_lt (Nat.add_lt_add_left (Nat.lt_of_lt_of_le hshort hname) _)

/-- Renaming behind a mark adds no escapes. -/
theorem escapes_renameMarked_subset (hmark : IsMark mark) (h : renames.Shortens [] isAsciiLetter)
    (code : Text) : escapes (renameMarked mark renames code) ⊆ escapes code := by
  have hedited : Edited mark (renameMarked mark renames code) code := by
    refine edited_rewritten (fun before c rest n m out hstep hout => ?_) none code
    obtain ⟨rfl, rfl, rfl, -⟩ := markedMatcher_found hmark hstep
    obtain ⟨short, hfind, rfl⟩ := Option.map_eq_some_iff.mp hout
    refine ⟨rfl, escapes_drop_identLength rest, _, rfl, ?_⟩
    rw [escape_of_letters (h.letters hfind)]
    exact fun hmem => absurd (h.letters hfind _ hmem) (by decide)
  have hhex : isHexDigit mark = false := by
    rcases hmark with rfl | rfl <;> decide
  exact (hedited.escapes_subset hhex hmark.ne_backslash).1

end Marked

/-! ## Custom properties -/

theorem propertyMatcher_found {before : Option Char} {c : Char} {rest : Text} {n : Nat}
    {found : Text} (h : propertyMatcher before c rest = (n, some found)) :
    found = c :: rest.take n ∧ c = '-' ∧
      ∃ run, rest.take n = '-' :: run ∧ ∀ d ∈ run, isPropertyChar d = true := by
  simp only [propertyMatcher, Matcher.ofPattern] at h
  by_cases hopens : c = '-' ∧ rest.head? = some '-' ∧
      (!(before.any fun b => isWordChar b || b == '-')) = true
  · obtain ⟨rfl, hhead, -⟩ := id hopens
    obtain ⟨more, rfl⟩ := List.head?_eq_some_iff.mp hhead
    rw [if_pos hopens] at h
    simp only [List.drop_succ_cons, List.drop_zero] at h
    by_cases hempty : (more.takeWhile isPropertyChar).isEmpty = true
    · rw [if_pos hempty] at h
      cases h
    · rw [if_neg hempty] at h
      simp only [Prod.mk.injEq, Option.some.injEq] at h
      obtain ⟨rfl, rfl⟩ := h
      have htake : ('-' :: more).take (1 + (more.takeWhile isPropertyChar).length) =
          '-' :: more.takeWhile isPropertyChar := by
        rw [Nat.add_comm, List.take_succ_cons]
        exact congrArg _ (List.prefix_iff_eq_take.mp (List.takeWhile_prefix _)).symm
      refine ⟨by rw [htake], rfl, _, htake, fun d hd => List.mem_takeWhile_imp hd⟩
  · rw [if_neg hopens] at h
    cases h

theorem renameProperties_shrinks {lead : Text} {kind : Char → Bool} {renames : RenameMap}
    (h : renames.Shortens lead kind) (t : Text) : ShrinksTo t (renameProperties renames t) := by
  refine Matcher.replaceAll_piecewise ShrinksTo.piecewise
    (forall_mem_scan (fun before c rest _ found out hnote hout => ?_) none)
  rcases hstep : propertyMatcher before c rest with ⟨n, note⟩
  simp only [Matcher.step, hstep] at hnote ⊢
  subst hnote
  obtain ⟨rfl, -⟩ := propertyMatcher_found hstep
  exact .of_lt (h.smaller hout)

/-- A relation between texts that is kept by a character before both, and by a custom property
before the one and its short name before the other, holds between a text with its custom properties
renamed and the text. -/
theorem renameProperties_induction {renames : RenameMap} (Rel : Text → Text → Prop)
    (hnil : Rel [] []) (hcons : ∀ c s t, Rel s t → Rel (c :: s) (c :: t))
    (hswap : ∀ run short s t, (∀ c ∈ run, isPropertyChar c = true) →
      renames.find? ('-' :: '-' :: run) = some short → Rel s t →
      Rel (short ++ s) ('-' :: '-' :: run ++ t)) (t : Text) :
    Rel (renameProperties renames t) t := by
  have hbegins : ∀ before s t, Rel s t → Rel (before ++ s) (before ++ t) := by
    intro before s t hrel
    induction before with
    | nil => exact hrel
    | cons c before ih => exact hcons c _ _ ih
  suffices hscan : ∀ before,
      Rel (rewritten propertyMatcher.step (Matcher.replacement renames.find?) before t) t from
    hscan none
  intro before
  fun_induction scan propertyMatcher.step before t with
  | case1 =>
    rw [rewritten_nil]
    exact hnil
  | case2 before c rest st ih =>
    rcases hstep : propertyMatcher before c rest with ⟨n, found⟩
    simp only [st, Matcher.step, hstep] at ih
    rw [rewritten_cons]
    simp only [Matcher.step, hstep, Matcher.replacement]
    rcases hout : found.bind renames.find? with _ | out
    · have hkeep := hbegins (c :: rest.take n) _ _ ih
      rwa [List.cons_append, List.cons_append, List.take_append_drop] at hkeep
    · obtain ⟨name, rfl, hfind⟩ := Option.bind_eq_some_iff.mp hout
      obtain ⟨rfl, rfl, run, htake, hrun⟩ := propertyMatcher_found hstep
      rw [htake] at hfind
      have hrest : '-' :: '-' :: run ++ rest.drop n = '-' :: rest := by
        rw [List.cons_append, ← htake, List.take_append_drop]
      have hnew := hswap run out _ _ hrun hfind ih
      rwa [hrest] at hnew

/-- A relation between texts that is kept by a character before both, and by a custom property
before each, holds between a text with its custom properties renamed and the text. -/
theorem renameProperties_rel {renames : RenameMap}
    (h : renames.Shortens "--".toList isAsciiLetter) (Rel : Text → Text → Prop) (hnil : Rel [] [])
    (hcons : ∀ c s t, Rel s t → Rel (c :: s) (c :: t))
    (hswap : ∀ run run' s t, (∀ c ∈ run, isPropertyChar c = true) →
      (∀ c ∈ run', isPropertyChar c = true) → Rel s t →
      Rel ('-' :: '-' :: run ++ s) ('-' :: '-' :: run' ++ t)) (t : Text) :
    Rel (renameProperties renames t) t := by
  refine renameProperties_induction Rel hnil hcons (fun run short s t hrun hfind hrel => ?_) t
  obtain ⟨word, rfl, hword⟩ := h.spelled hfind
  refine hswap word run s t (fun d hd => ?_) hrun hrel
  simp [isPropertyChar, isAsciiAlnum, hword d hd]

/-- Other characters stay as they are. -/
theorem mem_renameProperties {renames : RenameMap}
    (h : renames.Shortens "--".toList isAsciiLetter) {c : Char} (hc : isPropertyChar c = false)
    (t : Text) : c ∈ renameProperties renames t ↔ c ∈ t := by
  have hrun : ∀ run : Text, (∀ d ∈ run, isPropertyChar d = true) → c ∉ '-' :: '-' :: run := by
    intro run hrun hmem
    have hchar : isPropertyChar c = true := by
      simp only [List.mem_cons] at hmem
      rcases hmem with rfl | rfl | hmem
      · decide
      · decide
      · exact hrun c hmem
    rw [hc] at hchar
    cases hchar
  refine renameProperties_rel h (fun s t => c ∈ s ↔ c ∈ t) Iff.rfl ?_ ?_ t
  · intro d s t hrel
    rw [List.mem_cons, List.mem_cons, hrel]
  · intro run run' s t hnew hold hrel
    rw [List.mem_append, List.mem_append, hrel]
    simp only [hrun run hnew, hrun run' hold]

/-- Renaming custom properties adds no escapes. -/
theorem escapes_renameProperties_subset {renames : RenameMap}
    (h : renames.Shortens "--".toList isAsciiLetter) (t : Text) :
    escapes (renameProperties renames t) ⊆ escapes t := by
  have hplain : ∀ run : Text, (∀ c ∈ run, isPropertyChar c = true) → '\\' ∉ '-' :: run := by
    intro run hrun
    rw [List.mem_cons, not_or]
    exact ⟨by decide, fun hmem => absurd (hrun _ hmem) (by decide)⟩
  have hedited : Edited '-' (renameProperties renames t) t := by
    refine renameProperties_rel h (Edited '-') .nil (fun c s t => .keep c) ?_ t
    intro run run' s t hnew hold hrel
    refine .swap (hplain run hnew) ?_ hrel
    rw [escapes_append_of_not_mem (hplain run' hold)]
    exact List.Subset.refl _
  exact (hedited.escapes_subset (by decide) (by decide)).1

/-! ## Attribute selectors -/

namespace AttributeSelector

theorem readAttribute?_text {t word after : Text} {onClass : Bool}
    (h : readAttribute? t = some (onClass, word, after)) : t = word ++ after := by
  unfold readAttribute? at h
  split at h
  · rename_i rest hclass
    cases h
    exact (List.isPrefixOf?_eq_some_iff_append_eq.mp hclass).symm
  · obtain ⟨rest, hid, heq⟩ := Option.map_eq_some_iff.mp h
    cases heq
    exact (List.isPrefixOf?_eq_some_iff_append_eq.mp hid).symm

theorem readOperator_text (t : Text) : (readOperator t).1.toList ++ (readOperator t).2 = t := by
  cases t with
  | nil => rfl
  | cons c rest =>
    rw [readOperator]
    split <;> rfl

theorem readValue?_text {t opening value closing after : Text}
    (h : readValue? t = some (opening, value, closing, after)) :
    t = opening ++ value ++ closing ++ after := by
  cases t with
  | nil => cases h
  | cons c rest =>
    simp only [readValue?] at h
    split at h
    · split at h
      · rename_i hsplit
        cases h
        obtain ⟨hrest, hc⟩ := splitWhile_eq_cons hsplit
        simp only [ne_eq, decide_not, Bool.not_eq_false', decide_eq_true_eq] at hc
        subst hc
        simp [hrest]
      · cases h
    · split at h
      · cases h
      · rename_i hsplit
        cases h
        have happend := splitWhile_append
          (fun d => !(isBlank d || d == ']' || d == '"' || d == '\'')) (c :: rest)
        rw [hsplit] at happend
        simp [← happend]

theorem readEnd?_text {t ending : Text} {ignoresCase : Bool}
    (h : readEnd? t = some (ending, ignoresCase)) : ending <+: t := by
  have hblanks : (spanBlanks t).1 ++ (spanBlanks t).2 = t := splitWhile_append isBlank t
  unfold readEnd? at h
  simp only at h
  split at h
  · rename_i after hafter
    cases h
    rw [hafter] at hblanks
    exact ⟨after, Eq.trans (by simp) hblanks⟩
  · rename_i flag after hflag hafter
    split at h
    · split at h
      · rename_i more hmore
        cases h
        have hafter' : (spanBlanks after).1 ++ (spanBlanks after).2 = after :=
          splitWhile_append isBlank after
        rw [hmore] at hafter'
        rw [hafter, ← hafter'] at hblanks
        exact ⟨more, Eq.trans (by simp) hblanks⟩
      · cases h
    · cases h
  · cases h

/-- A selector that was read is the bracket and what begins the text after it. -/
theorem text_of_read? {t : Text} {s : AttributeSelector} (h : read? t = some s) :
    ∃ body, s.text = '[' :: body ∧ body <+: t := by
  have hspan : ∀ t : Text, (spanBlanks t).1 ++ (spanBlanks t).2 = t := splitWhile_append isBlank
  unfold read? at h
  simp only at h
  split at h
  · cases h
  · rename_i onClass word t₂ hattribute
    split at h
    · rename_i t₅ hequals
      split at h
      · cases h
      · rename_i opening value closing t₇ hvalue
        obtain ⟨⟨ending, ignoresCase⟩, hend, rfl⟩ := Option.map_eq_some_iff.mp h
        obtain ⟨after, hafter⟩ := readEnd?_text hend
        have ht₅ := hspan t₅
        rw [readValue?_text hvalue, ← hafter] at ht₅
        have ht₃ := readOperator_text (spanBlanks t₂).2
        rw [hequals, ← ht₅] at ht₃
        have ht := hspan t
        rw [readAttribute?_text hattribute, ← hspan t₂, ← ht₃] at ht
        refine ⟨_, rfl, after, Eq.trans ?_ ht⟩
        simp
    · cases h

theorem renamed_shrinks {classes ids : RenameMap} (hclasses : classes.Shortens [] isAsciiLetter)
    (hids : ids.Shortens [] isAsciiLetter) (s : AttributeSelector) :
    ShrinksTo s.text (s.renamed classes ids).text := by
  unfold renamed
  split
  · have hwords := ShrinksTo.piecewise.mapWords hclasses.rename_shrinks
    exact ((ShrinksTo.refl _).append (hwords _)).append (.refl _)
  · exact ((ShrinksTo.refl _).append (hids.rename_shrinks _)).append (.refl _)

/-- What is taken for a selector. -/
theorem read?_of_mem_pieces {css : Text} {p : Piece (Option AttributeSelector)}
    {s : AttributeSelector} (hp : p ∈ matcher.pieces css) (hnote : p.note = some s) :
    p.text = s.text ∧ ∃ t, read? t = some s := by
  refine Matcher.piece_of_ofPattern (P := fun text s => text = s.text ∧ ∃ t, read? t = some s)
    ?_ p hp s hnote
  intro before c rest n s hpattern
  split at hpattern
  · rename_i hbracket
    obtain ⟨s, hread, heq⟩ := Option.map_eq_some_iff.mp hpattern
    cases heq
    obtain ⟨body, htext, hbegins⟩ := text_of_read? hread
    refine ⟨?_, rest, hread⟩
    rw [hbracket, htext, List.length_cons, Nat.add_sub_cancel]
    exact congrArg _ (List.prefix_iff_eq_take.mp hbegins).symm
  · cases hpattern

theorem renameAll_shrinks {classes ids : RenameMap} (hclasses : classes.Shortens [] isAsciiLetter)
    (hids : ids.Shortens [] isAsciiLetter) (css : Text) :
    ShrinksTo css (renameAll classes ids css) := by
  refine Matcher.replaceAll_piecewise ShrinksTo.piecewise fun p hp s out hnote hout => ?_
  obtain ⟨htext, -⟩ := read?_of_mem_pieces hp hnote
  split at hout
  · cases hout
    rw [htext]
    exact renamed_shrinks hclasses hids s
  · cases hout

end AttributeSelector

/-! ## References to ids -/

/-- A word that was read takes as many characters as it has letters. -/
theorem exists_of_dropWord? {word t rest : Text} (h : dropWord? word t = some rest) :
    ∃ spelled, t = spelled ++ rest ∧ spelled.length = word.length := by
  obtain ⟨spelled, hspelling, rfl⟩ := dropWord?_eq_some_iff.mp h
  exact ⟨spelled, rfl, hspelling.length_eq.symm⟩

namespace UrlFragment

theorem readQuote_text (t : Text) : (readQuote t).1 ++ (readQuote t).2 = t := by
  cases t with
  | nil => rfl
  | cons c rest =>
    rw [readQuote]
    split <;> rfl

theorem mem_readQuote {t : Text} : ∀ q ∈ (readQuote t).1, q = '\'' ∨ q = '"' := by
  cases t with
  | nil => simp [readQuote]
  | cons c rest =>
    rw [readQuote]
    split
    · rename_i hc
      simpa using hc
    · simp

/-- A reference that was read stands in the text, with blanks around it. -/
theorem text_of_read? {t after : Text} {f : UrlFragment} (h : read? t = some (f, after)) :
    ∃ blanks more, (∀ c ∈ blanks, isBlank c = true) ∧ (∀ c ∈ more, isBlank c = true) ∧
      (∀ q ∈ f.quote, q = '\'' ∨ q = '"') ∧
      t = blanks ++ f.quote ++ '#' :: f.name ++ f.quote ++ more ++ ')' :: after := by
  unfold read? at h
  simp only at h
  split at h
  · rename_i t₁ hsign
    split at h
    · cases h
    · split at h
      · cases h
      · rename_i t₂ hclosing
        split at h
        · rename_i t₃ hbracket
          cases h
          refine ⟨t.takeWhile isBlank, t₂.takeWhile isBlank, fun c => List.mem_takeWhile_imp,
            fun c => List.mem_takeWhile_imp, mem_readQuote, ?_⟩
          have hopening := readQuote_text (t.dropWhile isBlank)
          have hname := splitWhile_append
            (fun c => !(c == '\'' || c == '"' || c == ')' || isBlank c)) t₁
          have hquote := List.isPrefixOf?_eq_some_iff_append_eq.mp hclosing
          have hblanks : t₂.takeWhile isBlank ++ t₂.dropWhile isBlank = t₂ :=
            List.takeWhile_append_dropWhile
          rw [hbracket] at hblanks
          rw [← hquote, ← hblanks] at hname
          rw [hsign, ← hname] at hopening
          have hwhole : t.takeWhile isBlank ++ t.dropWhile isBlank = t :=
            List.takeWhile_append_dropWhile
          rw [← hopening] at hwhole
          exact (Eq.trans (by simp only [List.append_assoc, List.cons_append]) hwhole).symm
        · cases h
  · cases h

/-- What is taken for a reference; `url(` may be spelled in any case. -/
theorem exists_of_mem_pieces {t : Text} {p : Piece (Option UrlFragment)} {f : UrlFragment}
    (hp : p ∈ matcher.pieces t) (hnote : p.note = some f) :
    ∃ spelled blanks more, Spelling "url(".toList spelled ∧ (∀ c ∈ blanks, isBlank c = true) ∧
      (∀ c ∈ more, isBlank c = true) ∧ (∀ q ∈ f.quote, q = '\'' ∨ q = '"') ∧
      p.text = spelled ++ blanks ++ f.quote ++ '#' :: f.name ++ f.quote ++ more ++ [')'] := by
  refine Matcher.piece_of_ofPattern (P := fun text f => ∃ spelled blanks more,
    Spelling "url(".toList spelled ∧ (∀ c ∈ blanks, isBlank c = true) ∧
      (∀ c ∈ more, isBlank c = true) ∧ (∀ q ∈ f.quote, q = '\'' ∨ q = '"') ∧
      text = spelled ++ blanks ++ f.quote ++ '#' :: f.name ++ f.quote ++ more ++ [')'])
    ?_ p hp f hnote
  intro before c rest n f hpattern
  split at hpattern
  · cases hpattern
  · rename_i t hword
    obtain ⟨⟨f, after⟩, hread, heq⟩ := Option.map_eq_some_iff.mp hpattern
    cases heq
    obtain ⟨spelled, hspelling, hspelled⟩ := dropWord?_eq_some_iff.mp hword
    obtain ⟨blanks, more, hblanks, hmore, hquote, rfl⟩ := text_of_read? hread
    refine ⟨spelled, blanks, more, hspelling, hblanks, hmore, hquote,
      cons_take_of_append (by simp) ?_⟩
    rw [hspelled]
    simp

theorem byteLength_text (f : UrlFragment) :
    byteLength f.text = 6 + 2 * byteLength f.quote + byteLength f.name := by
  have hword : byteLength "url(".toList = 4 := by decide
  have hsign : '#'.utf8Size = 1 := rfl
  have hbracket : byteLength [')'] = 1 := rfl
  unfold text
  generalize "url(".toList = word at hword ⊢
  simp only [byteLength_append, byteLength_cons, hword, hsign, hbracket]
  omega

theorem renameAll_shrinks {ids : RenameMap} (hids : ids.Shortens [] isAsciiLetter) (t : Text) :
    ShrinksTo t (renameAll ids t) := by
  refine Matcher.replaceAll_piecewise ShrinksTo.piecewise fun p hp f out hnote hout => ?_
  obtain ⟨short, hfind, rfl⟩ := Option.map_eq_some_iff.mp hout
  obtain ⟨spelled, blanks, more, hspelling, -, -, -, htext⟩ := exists_of_mem_pieces hp hnote
  have hsmaller := hids.smaller hfind
  -- the letters of `url(` are not smaller in another case
  have hurl : 4 ≤ byteLength spelled :=
    Nat.le_trans (Nat.le_of_eq hspelling.length_eq) (Naming.length_le_byteLength spelled)
  have hsign : '#'.utf8Size = 1 := rfl
  have hbracket : ')'.utf8Size = 1 := rfl
  refine .of_lt ?_
  rw [htext]
  simp only [byteLength_text, byteLength_append, byteLength_cons, byteLength_nil, hsign, hbracket]
  omega

end UrlFragment

/-! ## The code of a stylesheet -/

theorem escapes_drop_stringLength (quote : Char) (t : Text) :
    escapes (t.drop (stringLength quote t)) ⊆ escapes t := by
  fun_induction stringLength quote t with
  | case1 => exact List.Subset.refl _
  | case2 => exact List.Subset.refl _
  | case3 c hnewline => exact List.nil_subset _
  | case4 d rest ih =>
    rw [Nat.add_comm 2, List.drop_succ_cons, List.drop_succ_cons]
    exact List.Subset.trans ih (escapes_drop_one_subset (d :: rest))
  | case5 d rest hslash =>
    rw [escapes_cons_of_ne hslash]
    exact List.Subset.refl _
  | case6 d rest => exact List.Subset.refl _
  | case7 c d rest hslash hquote hnewline ih =>
    rw [Nat.add_comm 1, List.drop_succ_cons, escapes_cons_of_ne hslash]
    exact ih

/-- The scanner of a stylesheet cuts no escape. -/
theorem escapes_drop_tokenStep (c : Char) (rest : Text) :
    escapes (rest.drop (tokenStep () c rest).extra) ⊆ escapes (c :: rest) := by
  unfold tokenStep
  split
  · rename_i hslash
    rw [hslash]
    exact escapes_drop_one_subset rest
  · rename_i hslash
    rw [escapes_cons_of_ne hslash]
    split
    · rename_i hcomment
      obtain ⟨more, rfl⟩ := List.head?_eq_some_iff.mp hcomment.2
      rw [Nat.add_comm 1, List.drop_succ_cons, escapes_cons_of_ne (by decide)]
      exact escapes_drop_lengthThrough ['*'] (by decide) more
    · split
      · exact escapes_drop_stringLength c rest
      · exact List.Subset.refl _

/-- A comment or string begins with a character that is no digit. -/
theorem head?_of_not_code {css : Text} {token : Token Kind} (hmem : token ∈ tokens css)
    (hkind : token.kind ≠ .code) (rest : Text) :
    ∀ c ∈ (token.text ++ rest).head?, isHexDigit c = false := by
  rw [tokens_eq, Token.mem_mergeRuns hkind] at hmem
  obtain ⟨p, hp, rfl⟩ := List.mem_map.mp hmem
  have hhead : ∀ p ∈ scan tokenStep () css, p.note ≠ .code →
      ∃ c more, p.text = c :: more ∧ isHexDigit c = false := by
    refine forall_mem_scan (fun _ c rest _ hnote => ⟨c, _, rfl, ?_⟩) ()
    unfold tokenStep at hnote
    split at hnote
    · exact absurd rfl hnote
    · split at hnote
      · rename_i hcomment
        rw [hcomment.1]
        decide
      · split at hnote
        · rename_i hquote
          rcases hquote with rfl | rfl <;> decide
        · exact absurd rfl hnote
  obtain ⟨c, more, htext, hhex⟩ := hhead p hp hkind
  intro d hd
  have heq : c = d := by simpa [Token.ofPiece, htext] using hd
  rwa [← heq]

/-- A code token at the beginning ends where no digit follows. -/
theorem escapes_head_subset {css : Text} {token : Token Kind} {more : List (Token Kind)}
    (h : tokens css = token :: more) (hkind : token.kind = .code) :
    escapes token.text ⊆ escapes css := by
  have hjoin := join_tokens css
  rw [h, Token.join_cons] at hjoin
  rw [← hjoin]
  refine escapes_subset_of_head? ?_
  cases more with
  | nil => simp
  | cons next more =>
    have hnext : next ∈ tokens css := by simp [h]
    have hapart := Token.isChain_mergeRuns Kind.code ((scan tokenStep () css).map Token.ofPiece)
    rw [← tokens_eq, h, List.isChain_cons_cons] at hapart
    rw [Token.join_cons]
    exact head?_of_not_code hnext (fun hcode => hapart.1 ⟨hkind, hcode⟩) _

/-- **The code of a stylesheet holds no other escapes than the stylesheet.** -/
theorem escapes_code_subset (css : Text) :
    ∀ token ∈ tokens css, token.kind = .code → escapes token.text ⊆ escapes css := by
  rw [tokens_eq]
  suffices hscan : ∀ s : Unit,
      ∀ token ∈ Token.mergeRuns .code ((scan tokenStep s css).map Token.ofPiece),
        token.kind = .code → escapes token.text ⊆ escapes css from hscan ()
  intro s
  fun_induction scan tokenStep s css with
  | case1 => simp [Token.mergeRuns]
  | case2 s c rest st ih =>
    intro token hmem hkind
    rw [List.map_cons] at hmem
    obtain ⟨text, more, hmerged⟩ := Token.mergeRuns_head (k := Kind.code)
      (Token.ofPiece ⟨c :: rest.take st.extra, st.note⟩)
      ((scan tokenStep st.next (rest.drop st.extra)).map Token.ofPiece)
    rw [hmerged] at hmem
    rcases List.mem_cons.mp hmem with rfl | hmem
    · have htokens : tokens (c :: rest) = ⟨st.note, text⟩ :: more := by
        rw [tokens_eq, scan_cons, List.map_cons]
        exact hmerged
      exact escapes_head_subset htokens hkind
    · exact List.Subset.trans (ih token (Token.mem_mergeRuns_of_tail hmerged hmem) hkind)
        (escapes_drop_tokenStep c rest)

theorem mapCode_shrinks {f : Text → Text} {css : Text}
    (h : ∀ token ∈ tokens css, token.kind = .code → ShrinksTo token.text (f token.text)) :
    ShrinksTo css (mapCode f css) := by
  have htokens : ShrinksTo (Token.join (tokens css)) (mapCode f css) := by
    refine ShrinksTo.piecewise.flatMap fun token htoken => ?_
    split
    · rename_i hkind
      exact h token htoken hkind
    · exact .refl _
  rwa [join_tokens] at htokens

/-- **A renamed stylesheet is the old one or smaller**, if no escape in it stands for U+FFFD. -/
theorem rename_shrinks {classes ids properties : RenameMap}
    (hclasses : classes.Shortens [] isAsciiLetter) (hids : ids.Shortens [] isAsciiLetter)
    {lead : Text} {kind : Char → Bool} (hproperties : properties.Shortens lead kind) {css : Text}
    (hcss : replacementChar ∉ escapes css) :
    ShrinksTo css (rename classes ids properties css) := by
  have hcode : ∀ token ∈ tokens css, token.kind = .code →
      ShrinksTo token.text (renameCode classes ids properties token.text) := by
    intro token htoken hkind
    have hescapes : replacementChar ∉ escapes token.text := fun hmem =>
      hcss (escapes_code_subset css token htoken hkind hmem)
    have hescapes' : replacementChar ∉ escapes (renameMarked '.' classes token.text) := fun hmem =>
      hescapes (escapes_renameMarked_subset (.inl rfl) hclasses token.text hmem)
    exact ((renameMarked_shrinks (.inl rfl) hclasses hescapes).trans
      (renameMarked_shrinks (.inr rfl) hids hescapes')).trans
      (renameProperties_shrinks hproperties _)
  exact ((mapCode_shrinks hcode).trans (AttributeSelector.renameAll_shrinks hclasses hids _)).trans
    (UrlFragment.renameAll_shrinks hids _)

end Stylesheet

end WebTrim
