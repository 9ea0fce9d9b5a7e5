import WebTrim.Literal.Rename
import WebTrim.Markup.Reference
import WebTrim.Proofs.Naming.Allocation
import WebTrim.Proofs.Stylesheet.Rename

/-!
# Renaming a literal or a value that is one class

* `IsClassToken.literalPieces`, `IsClassToken.wordPieces` — a class token is one token and one word.
* `renameAttribute_class` — **a class attribute that is one class is renamed**.
* `renameEmbedded` — a literal when its custom properties and its markup have been renamed, before it
  is taken for a class list; `renameEmbedded_eq_or` says how it can change.
* `rename_class_iff` — **a literal that is one class is renamed exactly if that changes nothing**, or
  makes it an id with the same short name.
-/

set_option autoImplicit false

namespace WebTrim.Literal

open Text

/-! ## Class tokens -/

/-- Neither a blank nor a backslash nor the NUL stands in a class token. -/
theorem isClassTokenChar_spec {c : Char} (h : isClassTokenChar c = true) :
    isBlank c = false ∧ c ≠ '\\' ∧ c ≠ '\n' ∧ c.toNat ≠ 0 := by
  have hsigns : ("!_:-./%#[](),=+*&@?<>|~^$".toList.all fun d =>
      decide (isBlank d = false ∧ d ≠ '\\' ∧ d ≠ '\n' ∧ d.toNat ≠ 0)) = true := by decide
  rw [isClassTokenChar, Bool.or_eq_true, List.contains_iff_mem] at h
  rcases h with halnum | hsign
  · have hrange : 48 ≤ c.toNat ∧ c.toNat ≤ 122 := by
      rw [isAsciiAlnum, Bool.or_eq_true] at halnum
      rcases halnum with hletter | hdigit
      · have := Stylesheet.toNat_of_isAsciiLetter hletter
        omega
      · have := Stylesheet.toNat_of_isAsciiDigit hdigit
        omega
    refine ⟨?_, ?_, ?_, by omega⟩
    · simp [isBlank]
      omega
    · rintro rfl
      exact absurd halnum (by decide)
    · rintro rfl
      exact absurd halnum (by decide)
  · exact of_decide_eq_true (List.all_eq_true.mp hsigns c hsign)

/-- A text of characters of class tokens; at least one. -/
structure IsClassToken (t : Text) : Prop where
  nonempty : t ≠ []
  chars : ∀ c ∈ t, isClassTokenChar c = true

namespace IsClassToken

variable {t : Text}

theorem tokenLength_eq (h : ∀ c ∈ t, isClassTokenChar c = true) : tokenLength t = t.length := by
  induction t with
  | nil => rfl
  | cons c rest ih =>
    obtain ⟨hblank, hslash, -, -⟩ := isClassTokenChar_spec (h c List.mem_cons_self)
    have hopens : opensSeparatorEscape c rest = false := by simp [opensSeparatorEscape, hslash]
    rw [tokenLength, hblank, hopens, ih fun d hd => h d (List.mem_cons_of_mem _ hd)]
    simp [Nat.add_comm]

theorem literalPieces (h : IsClassToken t) : literalPieces t = [⟨t, true⟩] := by
  obtain ⟨c, rest, rfl⟩ := List.exists_cons_of_ne_nil h.nonempty
  obtain ⟨hblank, hslash, -, -⟩ := isClassTokenChar_spec (h.chars c List.mem_cons_self)
  have hopens : opensSeparatorEscape c rest = false := by simp [opensSeparatorEscape, hslash]
  have hlength := tokenLength_eq fun d hd => h.chars d (List.mem_cons_of_mem _ hd)
  rw [Literal.literalPieces, scan_cons]
  simp [literalStep, hblank, hopens, hlength]

theorem wordPieces (h : IsClassToken t) : wordPieces t = [⟨t, true⟩] := by
  obtain ⟨c, rest, rfl⟩ := List.exists_cons_of_ne_nil h.nonempty
  have hblank : ∀ d ∈ c :: rest, isBlank d = false := fun d hd =>
    (isClassTokenChar_spec (h.chars d hd)).1
  have hrun : rest.takeWhile (fun d => !isBlank d) = rest := by
    rw [List.takeWhile_eq_self_iff]
    intro d hd
    simp [hblank d (List.mem_cons_of_mem _ hd)]
  rw [Text.wordPieces, scan_cons]
  simp [wordStep, hblank c List.mem_cons_self, hrun]

theorem isClassToken (h : IsClassToken t) : isClassToken t = true := by
  have hlast : t.getLast? ≠ some '\n' := by
    intro hlast
    exact (isClassTokenChar_spec (h.chars _ (List.mem_of_getLast? hlast))).2.2.1 rfl
  have hbody : dropFinalNewline t = t := by rw [dropFinalNewline, if_neg hlast]
  simp only [Literal.isClassToken, hbody, Bool.and_eq_true, List.all_eq_true]
  exact ⟨by simpa using h.nonempty, h.chars⟩

/-- A literal that is one known class is renamed as a class. -/
theorem renameClassLiteral (h : IsClassToken t) {classes : RenameMap} {short : Text}
    (hfind : classes.find? t = some short) : renameClassLiteral classes t = short := by
  have hlist : isClassList (fun t => (classes.find? t).isSome) t = true := by
    simp [isClassList, literalTokens, h.literalPieces, h.isClassToken, hfind]
  rw [Literal.renameClassLiteral, if_pos hlist, h.literalPieces]
  simp [RenameMap.rename_of_find? hfind]

end IsClassToken

/-! ## Class attributes -/

theorem decodeReferences_of_not_mem {t : Text} (h : '&' ∉ t) : Markup.decodeReferences t = t := by
  refine Matcher.replaceAll_of_not_found fun before c rest hsuffix => ?_
  have hc : c ≠ '&' := fun hc => h (hc ▸ hsuffix.subset List.mem_cons_self)
  simp [Markup.referenceMatcher, Matcher.ofPattern, hc]

/-- **A class attribute whose value is one class is renamed.** -/
theorem renameAttribute_class {renames : Renames} {name short : Text} (hname : IsClassToken name)
    (hamp : '&' ∉ name) (hfind : renames.classes.find? name = some short)
    (hletters : ∀ c ∈ short, isAsciiLetter c = true) :
    Markup.renameAttribute Markup.decodeReferences renames "class".toList name = short := by
  have hdash : '-' ∉ short := fun hmem => absurd (hletters '-' hmem) (by decide)
  have hlist : renameTokenList Markup.decodeReferences renames.classes name = short := by
    rw [renameTokenList, mapWords, hname.wordPieces]
    simp [decodeReferences_of_not_mem hamp, hfind]
  rw [Markup.renameAttribute, if_pos rfl, hlist, Stylesheet.renameProperties_of_not_mem _ hdash]

/-! ## What happens before a literal is taken for a class list -/

/-- The literal with its custom properties and the names in its markup renamed. -/
def renameEmbedded (decode : Text → Text) (renames : Renames) (literal : Text) : Text :=
  let withProperties := Stylesheet.renameProperties renames.properties literal
  if Markup.hasTag withProperties then Markup.renameTags decode renames withProperties
  else withProperties

theorem rename_eq (decode : Text → Text) (renames : Renames) (literal : Text) :
    rename decode renames literal =
      if renameClassLiteral renames.classes (renameEmbedded decode renames literal) =
          renameEmbedded decode renames literal then
        renameIds renames.ids (renameEmbedded decode renames literal)
      else renameClassLiteral renames.classes (renameEmbedded decode renames literal) :=
  rfl

theorem tagLength?_pos {quote : Option Char} {t : Text} {n : Nat}
    (h : Markup.tagLength? quote t = some n) : 0 < n := by
  cases t with
  | nil => cases h
  | cons c rest =>
    simp only [Markup.tagLength?] at h
    split at h
    · obtain ⟨m, -, rfl⟩ := Option.map_eq_some_iff.mp h
      omega
    · split at h
      · cases h
        decide
      · split at h
        · obtain ⟨m, -, rfl⟩ := Option.map_eq_some_iff.mp h
          omega
        · obtain ⟨m, -, rfl⟩ := Option.map_eq_some_iff.mp h
          omega

/-- A tag begins with a bracket and a letter. -/
theorem tagMatcher_found (before : Option Char) {c : Char} {rest tag : Text}
    (h : (Markup.tagMatcher before c rest).2 = some tag) :
    ∃ d more, tag = '<' :: d :: more ∧ isAsciiLetter d = true := by
  simp only [Markup.tagMatcher, Matcher.ofPattern] at h
  by_cases hopens : c = '<' ∧ rest.head?.any isAsciiLetter = true
  · rw [if_pos hopens] at h
    obtain ⟨rfl, hletter⟩ := hopens
    cases hlength : Markup.tagLength? none rest with
    | none => simp [hlength] at h
    | some n =>
      rw [hlength] at h
      cases h
      cases rest with
      | nil => cases hletter
      | cons d rest =>
        obtain ⟨k, rfl⟩ := Nat.exists_eq_succ_of_ne_zero (Nat.ne_of_gt (tagLength?_pos hlength))
        exact ⟨d, rest.take k, rfl, by simpa using hletter⟩
  · rw [if_neg hopens] at h
    cases h

/-- A renamed tag keeps its bracket. -/
theorem mem_renameTag (decode : Text → Text) (renames : Renames) {d : Char}
    (h : isAsciiLetter d = true) (more : Text) :
    '<' ∈ Markup.renameTag decode renames ('<' :: d :: more) := by
  simp [Markup.renameTag, Markup.splitTagName, h]

theorem mem_renameTags (decode : Text → Text) (renames : Renames) {t : Text}
    (h : Markup.hasTag t = true) : '<' ∈ Markup.renameTags decode renames t := by
  have hsome : Markup.tags t ≠ [] := by
    intro hnil
    simp [Markup.hasTag, hnil] at h
  obtain ⟨tag, htag⟩ := List.exists_mem_of_ne_nil _ hsome
  obtain ⟨p, hp, hnote⟩ := List.mem_filterMap.mp htag
  have hshape : ∀ p ∈ Markup.tagMatcher.pieces t, ∀ tag, p.note = some tag →
      ∃ d more, tag = '<' :: d :: more ∧ isAsciiLetter d = true :=
    forall_mem_scan (fun before _ _ _ _ hfound => tagMatcher_found before hfound) none
  obtain ⟨d, more, rfl, hletter⟩ := hshape p hp tag hnote
  refine List.mem_flatMap.mpr ⟨p, hp, ?_⟩
  rw [hnote]
  exact mem_renameTag decode renames hletter more

/-- A literal stays as it is, or a renamed custom property or a tag stands in it. -/
theorem renameEmbedded_eq_or (decode : Text → Text) {renames : Renames} (literal : Text)
    (hproperties : renames.properties.ShortNames "--".toList) :
    renameEmbedded decode renames literal = literal ∨
      '<' ∈ renameEmbedded decode renames literal ∨ '-' ∈ renameEmbedded decode renames literal := by
  unfold renameEmbedded
  simp only
  split
  · rename_i htag
    exact .inr (.inl (mem_renameTags decode renames htag))
  · rcases Matcher.replaceAll_eq_or Stylesheet.propertyMatcher renames.properties.find? literal with
      hsame | ⟨-, -, name, short, -, hfind, hmem⟩
    · exact .inl hsame
    · obtain ⟨word, rfl, -⟩ := hproperties.spelled hfind
      exact .inr (.inr (hmem '-' (by simp)))

/-! ## Literals whose new text is a word of letters -/

theorem tokenLength_stops {t : Text} {c : Char} {rest : Text}
    (h : t.drop (tokenLength t) = c :: rest) :
    (isBlank c || opensSeparatorEscape c rest) = true := by
  induction t with
  | nil => cases h
  | cons d t ih =>
    rw [tokenLength] at h
    split at h
    · rename_i hstop
      cases h
      exact hstop
    · rw [Nat.add_comm, List.drop_succ_cons] at h
      exact ih h

/-- A separator begins with a blank or a backslash. -/
theorem literalStep_separator {c : Char} {rest : Text} (h : (literalStep () c rest).note = false) :
    isBlank c = true ∨ c = '\\' := by
  unfold literalStep at h
  split at h
  · rename_i hblank
    exact .inl hblank
  · split at h
    · rename_i hopens
      simp only [opensSeparatorEscape, Bool.and_eq_true, beq_iff_eq] at hopens
      exact .inr hopens.1
    · cases h

/-- A literal without separators is one token: behind a token stands a separator. -/
theorem literalPieces_of_forall {t : Text} (hne : t ≠ [])
    (h : ∀ p ∈ literalPieces t, p.note = true) : literalPieces t = [⟨t, true⟩] := by
  obtain ⟨c, rest, rfl⟩ := List.exists_cons_of_ne_nil hne
  rw [literalPieces, scan_cons] at h ⊢
  have hnote := h _ List.mem_cons_self
  simp only at hnote
  have hextra : (literalStep () c rest).extra = tokenLength rest := by
    unfold literalStep at hnote ⊢
    split at hnote
    · cases hnote
    · split at hnote
      · cases hnote
      · rename_i hblank hopens
        rw [if_neg hblank, if_neg hopens]
  rw [hextra] at h
  rw [hnote, hextra]
  cases hdrop : rest.drop (tokenLength rest) with
  | nil =>
    have htake := List.take_append_drop (tokenLength rest) rest
    rw [hdrop, List.append_nil] at htake
    rw [htake, scan_nil]
  | cons d more =>
    have hstops := tokenLength_stops hdrop
    rw [hdrop, scan_cons] at h
    have hnext := h _ (List.mem_cons_of_mem _ List.mem_cons_self)
    simp only [literalStep] at hnext
    by_cases hblank : isBlank d = true
    · simp [hblank] at hnext
    · have hopens : opensSeparatorEscape d more = true := by simpa [hblank] using hstops
      simp [hblank, hopens] at hnext

theorem isBlank_of_isAsciiLetter {c : Char} (h : isAsciiLetter c = true) : isBlank c = false :=
  (isClassTokenChar_spec (by simp [isClassTokenChar, isAsciiAlnum, h])).1

theorem IdSelector.bracket_mem_text (s : IdSelector) : '[' ∈ s.text := by
  show '[' ∈ "[id=".toList ++ s.quote ++ s.name ++ s.quote ++ [']']
  rw [List.append_assoc, List.append_assoc, List.append_assoc]
  exact List.mem_append_left _ (by decide)

section Letters

variable {short : Text} (hletters : ∀ c ∈ short, isAsciiLetter c = true)

include hletters

/-- If a class list becomes a word of letters, it is one class, and the word its short name. -/
theorem find?_of_renameClassLiteral {classes : RenameMap} {t : Text}
    (h : renameClassLiteral classes t = short) (hchanged : renameClassLiteral classes t ≠ t) :
    classes.find? t = some short := by
  unfold renameClassLiteral at h hchanged
  split at h
  · rename_i hlist
    simp only [isClassList, Bool.and_eq_true, List.any_eq_true] at hlist
    obtain ⟨-, token, htoken, hknown⟩ := hlist
    have hseparators : ∀ p ∈ literalPieces t, p.note = false →
        ∃ c ∈ p.text, isBlank c = true ∨ c = '\\' :=
      forall_mem_scan (fun _ c rest _ hnote => ⟨c, List.mem_cons_self, literalStep_separator hnote⟩) ()
    have htokens : ∀ p ∈ literalPieces t, p.note = true := by
      intro p hp
      rw [← Bool.not_eq_false]
      intro hnote
      -- a separator would stand in the word
      obtain ⟨c, hc, hseparator⟩ := hseparators p hp hnote
      have hmem : c ∈ short := by
        rw [← h]
        exact List.mem_flatMap.mpr ⟨p, hp, by simpa [hnote] using hc⟩
      have hletter := hletters c hmem
      rcases hseparator with hblank | rfl
      · rw [isBlank_of_isAsciiLetter hletter] at hblank
        cases hblank
      · exact absurd hletter (by decide)
    have hne : t ≠ [] := by
      rintro rfl
      simp [literalTokens, literalPieces] at htoken
    have hsingle := literalPieces_of_forall hne htokens
    obtain rfl : token = t := by simpa [literalTokens, hsingle] using htoken
    obtain ⟨other, hother⟩ := Option.isSome_iff_exists.mp hknown
    rw [hsingle] at h
    simp only [List.flatMap_cons, List.flatMap_nil, List.append_nil, if_true,
      RenameMap.rename_of_find? hother] at h
    rw [hother, h]
  · rename_i hlist
    rw [if_neg hlist] at hchanged
    exact absurd rfl hchanged

/-- If a text with renamed ids is a word of letters, the text is an id with that short name, or
nothing was renamed. -/
theorem find?_or_eq_of_renameIds {ids : RenameMap} {t : Text} (h : renameIds ids t = short) :
    ids.find? t = some short ∨ t = short := by
  unfold renameIds at h
  split at h
  · exact .inr h
  · split at h
    · rename_i id hid
      exact .inl (by rw [hid, h])
    · right
      rcases Matcher.replaceAll_eq_or (Stylesheet.markedMatcher '#') _ _ with
        hmarked | ⟨-, -, m, out, -, hout, hmem⟩
      · rw [Stylesheet.renameMarked, hmarked] at h
        rcases Matcher.replaceAll_eq_or IdSelector.matcher _ t with
          hselector | ⟨-, -, s, out, -, hout, hmem⟩
        · rwa [hselector] at h
        · obtain ⟨id, -, rfl⟩ := Option.map_eq_some_iff.mp hout
          have hbracket := hmem '[' (IdSelector.bracket_mem_text _)
          rw [h] at hbracket
          exact absurd (hletters '[' hbracket) (by decide)
      · obtain ⟨id, -, rfl⟩ := Option.map_eq_some_iff.mp hout
        have hnumber := hmem '#' List.mem_cons_self
        rw [← Stylesheet.renameMarked, h] at hnumber
        exact absurd (hletters '#' hnumber) (by decide)

end Letters

theorem mem_dropFinalNewline {t : Text} {c : Char} (hmem : c ∈ t) (hc : c ≠ '\n') :
    c ∈ dropFinalNewline t := by
  unfold dropFinalNewline
  split
  · rename_i hlast
    obtain ⟨front, rfl⟩ := List.getLast?_eq_some_iff.mp hlast
    rw [List.dropLast_concat]
    exact (List.mem_append.mp hmem).resolve_right fun h => hc (List.mem_singleton.mp h)
  · exact hmem

/-- A hex colour holds digits only, besides its number sign and a last newline. -/
theorem isHexColorLiteral_of_not_digit {t : Text} {c : Char} (hmem : c ∈ t)
    (hhex : isHexDigit c = false) (hsign : c ≠ '#') (hnewline : c ≠ '\n') :
    isHexColorLiteral t = false := by
  rw [← Bool.not_eq_true]
  intro hcolor
  unfold isHexColorLiteral at hcolor
  split at hcolor
  · rename_i digits
    simp only [Stylesheet.isHexColor, Bool.and_eq_true, List.all_eq_true] at hcolor
    have hdigits : c ∈ digits := (List.mem_cons.mp hmem).resolve_left hsign
    rw [hcolor.1 c (mem_dropFinalNewline hdigits hnewline)] at hhex
    cases hhex
  · cases hcolor

/-- No hex colour holds a bracket or a hyphen. -/
theorem isHexColorLiteral_of_mem {t : Text} {c : Char} (hmem : c ∈ t) (hc : c = '<' ∨ c = '-') :
    isHexColorLiteral t = false := by
  rcases hc with rfl | rfl <;>
    exact isHexColorLiteral_of_not_digit hmem (by decide) (by decide) (by decide)

/-- **A literal that is one class is renamed exactly if renaming its custom properties and markup
first changes nothing**, or leaves an id that has the same short name and no class list. -/
theorem rename_class_iff (decode : Text → Text) {renames : Renames} {name short : Text}
    (hname : IsClassToken name) (hclasses : renames.classes.ShortNames [])
    (hids : renames.ids.ShortNames []) (hproperties : renames.properties.ShortNames "--".toList)
    (hfind : renames.classes.find? name = some short) :
    rename decode renames name = short ↔
      renameEmbedded decode renames name = name ∨
        renameClassLiteral renames.classes (renameEmbedded decode renames name) =
            renameEmbedded decode renames name ∧
          renames.ids.find? (renameEmbedded decode renames name) = some short := by
  have hletters : ∀ c ∈ short, isAsciiLetter c = true := by
    obtain ⟨word, rfl, -, hletters⟩ := hclasses.spelled hfind
    exact hletters
  have hembedded := renameEmbedded_eq_or decode name hproperties
  rw [rename_eq]
  generalize renameEmbedded decode renames name = text at hembedded ⊢
  constructor
  · intro h
    split at h
    · rename_i hkept
      rcases find?_or_eq_of_renameIds hletters h with hid | rfl
      · exact .inr ⟨hkept, hid⟩
      · -- a word of letters holds neither a tag nor a custom property
        rcases hembedded with hsame | hbracket | hdash
        · exact .inl hsame
        · exact absurd (hletters '<' hbracket) (by decide)
        · exact absurd (hletters '-' hdash) (by decide)
    · rename_i hchanged
      have hclass := find?_of_renameClassLiteral hletters h hchanged
      exact .inl (hclasses.injective hclass hfind)
  · rintro h
    by_cases hsame : text = name
    · rw [hsame, hname.renameClassLiteral hfind, if_neg]
      rintro rfl
      exact absurd (hclasses.smaller hfind) (Nat.lt_irrefl _)
    · obtain ⟨hkept, hid⟩ := h.resolve_left hsame
      have hcolor : isHexColorLiteral text = false := by
        rcases hembedded.resolve_left hsame with hbracket | hdash
        · exact isHexColorLiteral_of_mem hbracket (.inl rfl)
        · exact isHexColorLiteral_of_mem hdash (.inr rfl)
      have hempty : text ≠ [] := by
        rintro rfl
        exact absurd (hids.smaller hid) (Nat.not_lt_zero _)
      rw [if_pos hkept, renameIds, if_neg (by simp [hcolor, hempty]), hid]

end WebTrim.Literal
