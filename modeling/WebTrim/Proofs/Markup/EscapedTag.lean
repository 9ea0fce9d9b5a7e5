import WebTrim.Markup.Reference
import WebTrim.Proofs.Literal.ClassList
import WebTrim.Proofs.Literal.Size
import WebTrim.Proofs.Markup.Attribute

/-!
# Markup with escaped quotes

In a script literal in double quotes, every double quote of the markup has a backslash before it.
The reader of tags takes that backslash for the whole value of an attribute, and the names behind it
for attributes without a value.

* `escapeQuotes` — the markup as it stands in such a literal; `escapeQuotes_injective`.
* `renameProperties_escapeQuotes` — custom properties are renamed all the same.
* `EscapedValues` — behind every equals sign stands an escaped quote.
* `renameTags_of_escapedValues` — **no attribute of such markup is renamed**.
* `rename_escapeQuotes` — the literal then changes in its custom properties and `#id`s only.
-/

set_option autoImplicit false

namespace WebTrim.Markup

open Text

/-! ## Escaping quotes -/

/-- The text with a backslash before every double quote. -/
def escapeQuotes (t : Text) : Text :=
  t.flatMap fun c => if c = '"' then ['\\', '"'] else [c]

@[simp] theorem escapeQuotes_nil : escapeQuotes [] = [] := rfl

@[simp] theorem escapeQuotes_quote (t : Text) :
    escapeQuotes ('"' :: t) = '\\' :: '"' :: escapeQuotes t := by
  simp [escapeQuotes]

theorem escapeQuotes_cons_of_ne {c : Char} (h : c ≠ '"') (t : Text) :
    escapeQuotes (c :: t) = c :: escapeQuotes t := by
  simp [escapeQuotes, h]

theorem escapeQuotes_append_of_not_mem {before : Text} (h : '"' ∉ before) (t : Text) :
    escapeQuotes (before ++ t) = before ++ escapeQuotes t := by
  induction before with
  | nil => rfl
  | cons c before ih =>
    rw [List.mem_cons, not_or] at h
    rw [List.cons_append, escapeQuotes_cons_of_ne (Ne.symm h.1), ih h.2, List.cons_append]

theorem head?_escapeQuotes_ne (t : Text) : (escapeQuotes t).head? ≠ some '"' := by
  cases t with
  | nil => simp
  | cons c t =>
    by_cases hc : c = '"'
    · simp [hc]
    · simp [escapeQuotes_cons_of_ne hc, hc]

/-- No two texts are escaped alike. -/
theorem escapeQuotes_injective {s t : Text} (h : escapeQuotes s = escapeQuotes t) : s = t := by
  induction s generalizing t with
  | nil =>
    cases t with
    | nil => rfl
    | cons d t =>
      by_cases hd : d = '"'
      · simp [hd] at h
      · simp [escapeQuotes_cons_of_ne hd] at h
  | cons c s ih =>
    cases t with
    | nil =>
      by_cases hc : c = '"'
      · simp [hc] at h
      · simp [escapeQuotes_cons_of_ne hc] at h
    | cons d t =>
      by_cases hc : c = '"' <;> by_cases hd : d = '"'
      · subst hc hd
        simp only [escapeQuotes_quote, List.cons.injEq, true_and] at h
        rw [ih h]
      · -- a quote never begins an escaped text
        subst hc
        rw [escapeQuotes_quote, escapeQuotes_cons_of_ne hd, List.cons.injEq] at h
        exact absurd (by rw [← h.2]; rfl) (head?_escapeQuotes_ne t)
      · subst hd
        rw [escapeQuotes_quote, escapeQuotes_cons_of_ne hc, List.cons.injEq] at h
        exact absurd (by rw [h.2]; rfl) (head?_escapeQuotes_ne s)
      · rw [escapeQuotes_cons_of_ne hc, escapeQuotes_cons_of_ne hd, List.cons.injEq] at h
        rw [h.1, ih h.2]

theorem mem_escapeQuotes {c : Char} (hslash : c ≠ '\\') (t : Text) :
    c ∈ escapeQuotes t ↔ c ∈ t := by
  induction t with
  | nil => rfl
  | cons d t ih =>
    by_cases hd : d = '"'
    · subst hd
      simp [ih, hslash]
    · rw [escapeQuotes_cons_of_ne hd, List.mem_cons, List.mem_cons, ih]

/-- A run of other characters is the same in the escaped text. -/
theorem takeWhile_escapeQuotes {p : Char → Bool} (hquote : p '"' = false) (hslash : p '\\' = false)
    (t : Text) : (escapeQuotes t).takeWhile p = t.takeWhile p := by
  induction t with
  | nil => rfl
  | cons c t ih =>
    by_cases hc : c = '"'
    · subst hc
      simp [hquote, hslash]
    · rw [escapeQuotes_cons_of_ne hc, List.takeWhile_cons, List.takeWhile_cons, ih]

theorem dropWhile_escapeQuotes {p : Char → Bool} (hquote : p '"' = false) (hslash : p '\\' = false)
    (t : Text) : (escapeQuotes t).dropWhile p = escapeQuotes (t.dropWhile p) := by
  induction t with
  | nil => rfl
  | cons c t ih =>
    by_cases hc : c = '"'
    · subst hc
      simp [hquote, hslash]
    · rw [escapeQuotes_cons_of_ne hc, List.dropWhile_cons, List.dropWhile_cons, ih]
      split
      · rfl
      · rw [escapeQuotes_cons_of_ne hc]

/-! ## Custom properties -/

theorem propertyMatcher_escapeQuotes (before : Option Char) (c : Char) (rest : Text) :
    Stylesheet.propertyMatcher before c (escapeQuotes rest) =
      Stylesheet.propertyMatcher before c rest := by
  cases rest with
  | nil => rfl
  | cons d rest =>
    by_cases hd : d = '"'
    · subst hd
      simp [Stylesheet.propertyMatcher, Matcher.ofPattern]
    · have hrun := takeWhile_escapeQuotes (p := Stylesheet.isPropertyChar) (by decide) (by decide)
        rest
      simp only [Stylesheet.propertyMatcher, Matcher.ofPattern, escapeQuotes_cons_of_ne hd,
        List.head?_cons, List.drop_succ_cons, List.drop_zero, hrun]

theorem propertyMatcher_pass {before : Option Char} {c : Char} (h : c ≠ '-') (rest : Text) :
    Stylesheet.propertyMatcher before c rest = (0, none) := by
  simp [Stylesheet.propertyMatcher, Matcher.ofPattern, h]

/-- **Custom properties are renamed alike in escaped markup.** -/
theorem renameProperties_escapeQuotes {renames : RenameMap}
    (h : renames.Shortens "--".toList isAsciiLetter) (t : Text) :
    Stylesheet.renameProperties renames (escapeQuotes t) =
      escapeQuotes (Stylesheet.renameProperties renames t) := by
  suffices hscan : ∀ before,
      rewritten Stylesheet.propertyMatcher.step (Matcher.replacement renames.find?) before
          (escapeQuotes t) =
        escapeQuotes (rewritten Stylesheet.propertyMatcher.step
          (Matcher.replacement renames.find?) before t) from hscan none
  intro before
  -- the state is the character before, and a quote is the last of its escape
  fun_induction scan Stylesheet.propertyMatcher.step before t with
  | case1 => simp
  | case2 before c rest st ih =>
    by_cases hc : c = '"'
    · subst hc
      have hquote : '"' ≠ '-' := by decide
      have hslash : '\\' ≠ '-' := by decide
      simp only [st, Matcher.step, propertyMatcher_pass hquote, List.drop_zero] at ih
      rw [escapeQuotes_quote, Matcher.rewritten_pass (propertyMatcher_pass hslash _),
        Matcher.rewritten_pass (propertyMatcher_pass hquote _),
        Matcher.rewritten_pass (propertyMatcher_pass hquote _), escapeQuotes_quote]
      exact congrArg _ (congrArg _ ih)
    · rcases hstep : Stylesheet.propertyMatcher before c rest with ⟨n, found⟩
      have hstep' := propertyMatcher_escapeQuotes before c rest
      rw [hstep] at hstep'
      simp only [st, Matcher.step, hstep] at ih
      have hrun : '"' ∉ rest.take n := by
        cases found with
        | none => simp [Matcher.extra_of_not_found hstep]
        | some name =>
          obtain ⟨-, -, run, htake, hrun⟩ := Stylesheet.propertyMatcher_found hstep
          rw [htake, List.mem_cons, not_or]
          exact ⟨by decide, fun hmem => absurd (hrun _ hmem) (by decide)⟩
      have hsplit : escapeQuotes rest = rest.take n ++ escapeQuotes (rest.drop n) := by
        rw [← escapeQuotes_append_of_not_mem hrun, List.take_append_drop]
      have hend : rest.drop n = [] → escapeQuotes (rest.drop n) = [] := fun hnil => by
        rw [hnil, escapeQuotes_nil]
      have htake : (escapeQuotes rest).take n = rest.take n := by
        rw [hsplit, take_append_of_short hend]
      have hdrop : (escapeQuotes rest).drop n = escapeQuotes (rest.drop n) := by
        rw [hsplit, drop_append_of_short hend]
      have hout : '"' ∉ Matcher.replacement renames.find? ⟨c :: rest.take n, found⟩ := by
        rw [Matcher.replacement]
        rcases hfound : found.bind renames.find? with _ | out
        · rw [Option.getD_none, List.mem_cons, not_or]
          exact ⟨Ne.symm hc, hrun⟩
        · obtain ⟨name, -, hfind⟩ := Option.bind_eq_some_iff.mp hfound
          obtain ⟨word, rfl, hword⟩ := h.spelled hfind
          rw [Option.getD_some, List.mem_append, not_or]
          exact ⟨by decide, fun hmem => absurd (hword _ hmem) (by decide)⟩
      rw [escapeQuotes_cons_of_ne hc, rewritten_cons, rewritten_cons]
      simp only [Matcher.step, hstep, hstep', htake, hdrop]
      rw [ih, escapeQuotes_append_of_not_mem hout]

/-! ## Attribute values -/

/-- After blanks the text begins with an escaped quote, as far as it goes. -/
def OpensEscaped (t : Text) : Prop :=
  (∀ c ∈ (t.dropWhile isBlank).head?, c = '\\') ∧
    ∀ c ∈ ((t.dropWhile isBlank).drop 1).head?, c = '"'

theorem OpensEscaped.of_beginning {s t : Text} (h : OpensEscaped t) (hbegins : s <+: t) :
    OpensEscaped s := by
  have hhead : ∀ {u v : Text}, u <+: v → ∀ c ∈ u.head?, c ∈ v.head? := by
    rintro u v ⟨more, rfl⟩ c hc
    cases u with
    | nil => cases hc
    | cons d u => exact hc
  have hdrop : s.dropWhile isBlank <+: t.dropWhile isBlank := by
    obtain ⟨more, rfl⟩ := hbegins
    rw [List.dropWhile_append]
    split
    · rename_i hempty
      rw [List.isEmpty_iff.mp hempty]
      exact List.nil_prefix
    · exact List.prefix_append _ _
  have htail : (s.dropWhile isBlank).drop 1 <+: (t.dropWhile isBlank).drop 1 := by
    obtain ⟨more, hmore⟩ := hdrop
    rw [← hmore]
    cases s.dropWhile isBlank with
    | nil => exact List.nil_prefix
    | cons d u => exact List.prefix_append u more
  exact ⟨fun c hc => h.1 c (hhead hdrop c hc), fun c hc => h.2 c (hhead htail c hc)⟩

/-- Every equals sign of the text has an escaped quote behind it. -/
def EscapedValues (t : Text) : Prop :=
  ∀ after, '=' :: after <:+ t → OpensEscaped after

namespace EscapedValues

variable {s t : Text}

theorem of_suffix (h : EscapedValues t) (hsuffix : s <:+ t) : EscapedValues s :=
  fun after hafter => h after (hafter.trans hsuffix)

theorem of_beginning (h : EscapedValues t) (hbegins : s <+: t) : EscapedValues s := by
  obtain ⟨more, rfl⟩ := hbegins
  rintro after ⟨before, rfl⟩
  exact (h (after ++ more) ⟨before, by simp⟩).of_beginning (List.prefix_append _ _)

end EscapedValues

theorem OpensEscaped.of_blanks {more u : Text} {c : Char} (h : OpensEscaped (more ++ c :: u))
    (hmore : ∀ d ∈ more, isBlank d = true) (hc : isBlank c = false) :
    c = '\\' ∧ ∀ d ∈ u.head?, d = '"' := by
  have hdrop : (more ++ c :: u).dropWhile isBlank = c :: u := by
    have hhead : ∀ d ∈ (c :: u).head?, isBlank d = false := by
      rintro d ⟨⟩
      exact hc
    exact congrArg Prod.snd (splitWhile_append_of hmore hhead)
  rw [OpensEscaped, hdrop] at h
  exact ⟨h.1 c rfl, h.2⟩

/-- The value behind an escaped quote is the backslash. -/
theorem ValueForm.eq_backslash {after lead value closing : Text}
    (hform : ValueForm after lead value closing)
    (h : EscapedValues (lead ++ value ++ closing ++ after)) : value = ['\\'] := by
  cases hform with
  | @quoted blanks more _ q hblanks hmore hq hvalue =>
    have hblank : isBlank q = false := by
      rcases hq with rfl | rfl <;> decide
    have hopens : OpensEscaped (more ++ q :: (value ++ q :: after)) := h _ ⟨blanks, by simp⟩
    obtain ⟨rfl, -⟩ := hopens.of_blanks hmore hblank
    simp at hq
  | @bare blanks more value hblanks hmore hne hvalue hstop =>
    obtain ⟨c, rest, rfl⟩ := List.exists_cons_of_ne_nil hne
    have hblank := (isBlank_of_isBareValueChar (hvalue c List.mem_cons_self)).1
    have hopens : OpensEscaped (more ++ c :: (rest ++ after)) := h _ ⟨blanks, by simp⟩
    obtain ⟨rfl, hquote⟩ := hopens.of_blanks hmore hblank
    cases rest with
    | nil => rfl
    | cons d rest =>
      obtain rfl : d = '"' := hquote d rfl
      exact absurd (hvalue '"' (by simp)) (by decide)

/-! ## Renaming tags -/

section Backslash

variable {renames : Renames} (hclasses : renames.classes.ShortNames [])
  (hids : renames.ids.ShortNames [])

/-- A short name has room for one character, so a name has more than one. -/
theorem find?_backslash {m : RenameMap} (h : m.ShortNames []) : m.find? ['\\'] = none := by
  rw [Option.eq_none_iff_forall_ne_some]
  intro short hfind
  obtain ⟨word, hword, hne, -⟩ := h.spelled hfind
  obtain rfl : short = word := hword
  have hsmaller := h.smaller hfind
  have hlength := Naming.length_le_byteLength short
  have hpos := List.length_pos_iff.mpr hne
  have hone : byteLength ['\\'] = 1 := rfl
  omega

theorem renameTokenList_backslash {m : RenameMap} (h : m.ShortNames []) :
    Literal.renameTokenList decodeReferences m ['\\'] = ['\\'] := by
  have hwords : wordPieces ['\\'] = [⟨['\\'], true⟩] := by decide +kernel
  have hdecode : decodeReferences ['\\'] = ['\\'] :=
    Literal.decodeReferences_of_not_mem (by decide)
  simp [Literal.renameTokenList, mapWords, hwords, hdecode, find?_backslash h]

include hclasses hids

theorem renameAttribute_backslash (name : Text) :
    renameAttribute decodeReferences renames name ['\\'] = ['\\'] := by
  have hvalue : (if name = "class".toList then
        Literal.renameTokenList decodeReferences renames.classes ['\\']
      else if idAttributes.contains name then
        Literal.renameTokenList decodeReferences renames.ids ['\\']
      else if fragmentAttributes.contains name then
        renameFragment decodeReferences renames.ids ['\\']
      else Stylesheet.UrlFragment.renameAll renames.ids ['\\']) = ['\\'] := by
    split
    · exact renameTokenList_backslash hclasses
    · split
      · exact renameTokenList_backslash hids
      · split
        · rfl
        · exact Stylesheet.UrlFragment.renameAll_of_not_mem _ (by decide)
  rw [renameAttribute, hvalue]
  exact Stylesheet.renameProperties_of_not_mem _ (by decide)

/-- An attribute of such a text has no value, or the backslash, which is no name. -/
theorem AttributeForm.renamed_of_escaped {after : Text} {a : Attribute}
    (hform : AttributeForm after a) (h : EscapedValues (a.text ++ after)) :
    a.renamed decodeReferences renames = a := by
  cases hform with
  | @valued name lead value closing hne hname hvalue =>
    obtain rfl := hvalue.eq_backslash (h.of_suffix ⟨name, by simp [Attribute.text]⟩)
    simp [Attribute.renamed, renameAttribute_backslash hclasses hids]
  | flag hne hname hstop hnone => rfl

theorem renamedRest_of_escapedValues {t : Text} (h : EscapedValues t) :
    renamedRest decodeReferences renames t = t := by
  induction t using attributeInduction with
  | nil => simp
  | pass c rest hc ih =>
    rw [renamedRest_pass _ _ hc, ih (h.of_suffix (List.suffix_cons c rest))]
  | found a after hform ih =>
    rw [renamedRest_attribute _ _ hform, ih (h.of_suffix (List.suffix_append _ _)),
      hform.renamed_of_escaped hclasses hids h]

theorem renameTag_of_escapedValues {tag : Text} (h : EscapedValues tag) :
    renameTag decodeReferences renames tag = tag := by
  have hkept := renamedRest_of_escapedValues hclasses hids
    (h.of_suffix ⟨_, splitTagName_append tag⟩)
  unfold renamedRest at hkept
  rw [renameTag, hkept, splitTagName_append]

/-- **No attribute of markup with escaped quotes is renamed.** -/
theorem renameTags_of_escapedValues {t : Text} (h : EscapedValues t) :
    renameTags decodeReferences renames t = t := by
  refine Matcher.replaceAll_of_same fun p hp tag out hnote hout => ?_
  cases hout
  have htag : p.text = tag ∧ EscapedValues p.text := by
    refine ⟨?_, ?_⟩
    · refine Matcher.piece_of_ofPattern (P := fun text tag => text = tag) ?_ p hp tag hnote
      intro before c rest n tag hpattern
      split at hpattern
      · obtain ⟨k, -, heq⟩ := Option.map_eq_some_iff.mp hpattern
        cases heq
        rfl
      · cases hpattern
    · refine forall_mem_scan (P := fun p => EscapedValues p.text) (fun _ c rest hsuffix => ?_) none
        p hp
      refine (h.of_suffix hsuffix).of_beginning ?_
      exact List.cons_prefix_cons.mpr ⟨rfl, List.take_prefix _ _⟩
  rw [← htag.1]
  exact renameTag_of_escapedValues hclasses hids htag.2

end Backslash

/-! ## References to ids -/

/-- No selector on an id is read from a text with escaped quotes. -/
theorem idSelector_of_escapedValues {t : Text} (h : EscapedValues t) :
    Literal.IdSelector.read? t = none := by
  unfold Literal.IdSelector.read?
  split
  · rfl
  · rename_i t₁ hword
    split
    · rename_i t₂ hequals
      have hsuffix : '=' :: t₂ <:+ t :=
        hequals ▸ (List.dropWhile_suffix _).trans (Stylesheet.dropWord?_suffix hword)
      obtain ⟨hslash, hquote⟩ := h t₂ hsuffix
      simp only [splitWhile]
      cases hvalue : t₂.dropWhile isBlank with
      | nil => rfl
      | cons c rest =>
        rw [hvalue] at hslash hquote
        obtain rfl : c = '\\' := hslash c rfl
        cases rest with
        | nil => rfl
        | cons d rest =>
          obtain rfl : d = '"' := hquote d rfl
          rfl
    · rfl

theorem renameIds_of_escapedValues {ids : RenameMap} {t : Text} (h : EscapedValues t)
    (hmem : '"' ∈ t) :
    Literal.renameIds ids t = (ids.find? t).getD (Stylesheet.renameMarked '#' ids t) := by
  have hcolor := Literal.isHexColorLiteral_of_not_digit hmem (by decide) (by decide) (by decide)
  have hkept : Literal.IdSelector.renameAll ids t = t := by
    refine Matcher.replaceAll_of_not_found fun before c rest hsuffix => ?_
    have hrest : EscapedValues rest := h.of_suffix ((List.suffix_cons c rest).trans hsuffix)
    simp only [Literal.IdSelector.matcher, Matcher.ofPattern, idSelector_of_escapedValues hrest,
      Option.map_none, ite_self]
  have hne : t ≠ [] := List.ne_nil_of_mem hmem
  rw [Literal.renameIds, if_neg (by simp [hcolor, hne])]
  cases hfind : ids.find? t with
  | some short => rfl
  | none =>
    rw [Option.getD_none]
    exact congrArg (Stylesheet.renameMarked '#' ids) hkept

/-! ## Markup whose values stand in double quotes -/

/-- Does the text begin with a double quote, after blanks? -/
def opensQuoted (t : Text) : Bool :=
  (t.dropWhile isBlank).head? == some '"'

/-- Has every equals sign of the markup a double quote behind it? -/
def valuesQuoted : Text → Bool
  | [] => true
  | c :: rest => (c != '=' || opensQuoted rest) && valuesQuoted rest

theorem opensQuoted_cons (c : Char) (t : Text) :
    opensQuoted (c :: t) = if isBlank c then opensQuoted t else c == '"' := by
  unfold opensQuoted
  rw [List.dropWhile_cons]
  split
  · rfl
  · simp

theorem valuesQuoted_append {run : Text} (h : '=' ∉ run) (t : Text) :
    valuesQuoted (run ++ t) = valuesQuoted t := by
  induction run with
  | nil => rfl
  | cons c run ih =>
    rw [List.mem_cons, not_or] at h
    have hc : c ≠ '=' := Ne.symm h.1
    simp [valuesQuoted, hc, ih h.2]

/-- Escaping such markup puts an escaped quote behind every equals sign. -/
theorem escapedValues_escapeQuotes {t : Text} (h : valuesQuoted t = true) :
    EscapedValues (escapeQuotes t) := by
  intro after hsuffix
  induction t with
  | nil => simp at hsuffix
  | cons c t ih =>
    simp only [valuesQuoted, Bool.and_eq_true] at h
    by_cases hc : c = '"'
    · subst hc
      rw [escapeQuotes_quote, List.suffix_cons_iff, List.suffix_cons_iff] at hsuffix
      rcases hsuffix with heq | heq | hsuffix
      · simp at heq
      · simp at heq
      · exact ih h.2 hsuffix
    · rw [escapeQuotes_cons_of_ne hc, List.suffix_cons_iff] at hsuffix
      rcases hsuffix with heq | hsuffix
      · rw [List.cons.injEq] at heq
        obtain ⟨rfl, rfl⟩ := heq
        have hquote : (t.dropWhile isBlank).head? = some '"' := by simpa [opensQuoted] using h.1
        obtain ⟨more, hmore⟩ := List.head?_eq_some_iff.mp hquote
        have hdrop : (escapeQuotes t).dropWhile isBlank = '\\' :: '"' :: escapeQuotes more := by
          rw [dropWhile_escapeQuotes (by decide) (by decide), hmore, escapeQuotes_quote]
        simp [OpensEscaped, hdrop]
      · exact ih h.2 hsuffix

/-- Renaming custom properties leaves every value where it is. -/
theorem valuesQuoted_renameProperties {renames : RenameMap}
    (h : renames.Shortens "--".toList isAsciiLetter) (t : Text) :
    valuesQuoted (Stylesheet.renameProperties renames t) = valuesQuoted t := by
  have hequals : ∀ run : Text, (∀ c ∈ run, Stylesheet.isPropertyChar c = true) →
      '=' ∉ '-' :: '-' :: run := by
    intro run hrun hmem
    simp only [List.mem_cons] at hmem
    rcases hmem with hc | hc | hmem
    · exact absurd hc (by decide)
    · exact absurd hc (by decide)
    · exact absurd (hrun _ hmem) (by decide)
  refine (Stylesheet.renameProperties_rel h
    (fun s t => opensQuoted s = opensQuoted t ∧ valuesQuoted s = valuesQuoted t) ⟨rfl, rfl⟩
    ?_ ?_ t).2
  · rintro c s t ⟨hopens, hvalues⟩
    exact ⟨by rw [opensQuoted_cons, opensQuoted_cons, hopens],
      by rw [valuesQuoted, valuesQuoted, hopens, hvalues]⟩
  · rintro run run' s t hnew hold ⟨-, hvalues⟩
    refine ⟨?_, ?_⟩
    · rw [List.cons_append, List.cons_append, opensQuoted_cons, opensQuoted_cons]
      rfl
    · rw [valuesQuoted_append (hequals run hnew), valuesQuoted_append (hequals run' hold), hvalues]

/-- **A literal with escaped markup is renamed in its custom properties and `#id`s only**, unless it
is an id as a whole. -/
theorem rename_escapeQuotes {renames : Renames} (hclasses : renames.classes.ShortNames [])
    (hids : renames.ids.ShortNames [])
    (hproperties : renames.properties.Shortens "--".toList isAsciiLetter) {markup : Text}
    (hquoted : valuesQuoted markup = true) (hmem : '"' ∈ markup) :
    Literal.rename decodeReferences renames (escapeQuotes markup) =
      (renames.ids.find?
          (escapeQuotes (Stylesheet.renameProperties renames.properties markup))).getD
        (Stylesheet.renameMarked '#' renames.ids
          (escapeQuotes (Stylesheet.renameProperties renames.properties markup))) := by
  have hvalues : EscapedValues
      (escapeQuotes (Stylesheet.renameProperties renames.properties markup)) := by
    apply escapedValues_escapeQuotes
    rw [valuesQuoted_renameProperties hproperties, hquoted]
  have hquote : '"' ∈ escapeQuotes (Stylesheet.renameProperties renames.properties markup) := by
    rw [mem_escapeQuotes (by decide), Stylesheet.mem_renameProperties hproperties (by decide)]
    exact hmem
  have hrenamed := renameProperties_escapeQuotes hproperties markup
  generalize escapeQuotes (Stylesheet.renameProperties renames.properties markup) = escaped
    at hvalues hquote hrenamed ⊢
  have hlist : Literal.renameClassLiteral renames.classes escaped = escaped := by
    rw [Literal.renameClassLiteral,
      Literal.isClassList_of_mem hquote (by decide) (by decide) (by decide)]
    rfl
  have htags : (if hasTag escaped then renameTags decodeReferences renames escaped
      else escaped) = escaped := by
    rw [renameTags_of_escapedValues hclasses hids hvalues, ite_self]
  simp only [Literal.rename, hrenamed, htags, hlist, if_true]
  exact renameIds_of_escapedValues hvalues hquote

end WebTrim.Markup
