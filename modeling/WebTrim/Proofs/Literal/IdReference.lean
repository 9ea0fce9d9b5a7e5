import WebTrim.Proofs.Literal.ClassList
import WebTrim.Proofs.Literal.IdSelector

/-!
# Renaming the ids that a literal refers to

First the selectors of the literal are renamed, then the names behind its number signs, in the text
that the first step left. The second step can change the value of a selector, but no selector begins
or ends by it, and a name that it has changed holds a number sign, which no id does.

* `Respelled` — two texts differ in how names behind number signs are written.
  `Respelled.exists_form`: where a selector stands in the one, a selector with a respelled name
  stands in the other; `respelled_renameMarked` says that renaming leads to such a text.
* `find?_markedNames`, `find?_findAll` — no known id is left behind a number sign or in a selector.
* `renameIds_complete` — **a renamed literal refers to no id that has a short name, and a literal
  changes exactly if it refers to one**.
-/

set_option autoImplicit false

namespace WebTrim.Literal

open Text Stylesheet IdSelector

/-! ## Names behind number signs in other forms -/

/-- A character that neither ends a value nor begins a selector. -/
def IsInner (c : Char) : Prop :=
  isIdValueChar c = true ∧ c ≠ '['

/-- The texts differ in what is written behind number signs. -/
inductive Respelled : Text → Text → Prop
  | nil : Respelled [] []
  | keep (c : Char) {t t' : Text} : Respelled t t' → Respelled (c :: t) (c :: t')
  | name {raw raw' t t' : Text} (hraw : ∀ c ∈ raw, IsInner c) (hraw' : ∀ c ∈ raw', IsInner c) :
      Respelled t t' → Respelled ('#' :: (raw ++ t)) ('#' :: (raw' ++ t'))

namespace Respelled

variable {t t' : Text}

theorem refl (t : Text) : Respelled t t := by
  induction t with
  | nil => exact .nil
  | cons c t ih => exact .keep c ih

theorem symm (h : Respelled t t') : Respelled t' t := by
  induction h with
  | nil => exact .nil
  | keep c _ ih => exact .keep c ih
  | name hraw hraw' _ ih => exact .name hraw' hraw ih

theorem append {s s' : Text} (h : Respelled s s') (h' : Respelled t t') :
    Respelled (s ++ t) (s' ++ t') := by
  induction h with
  | nil => exact h'
  | keep c _ ih => exact .keep c ih
  | name hraw hraw' _ ih =>
    rw [List.cons_append, List.cons_append, List.append_assoc, List.append_assoc]
    exact .name hraw hraw' ih

theorem piecewise : Piecewise Respelled :=
  ⟨refl, append⟩

theorem head?_eq (h : Respelled t t') : t.head? = t'.head? := by
  cases h <;> rfl

/-- Text without a number sign begins both. -/
theorem of_append {front : Text} (hfront : '#' ∉ front) (h : Respelled t (front ++ t')) :
    ∃ u, t = front ++ u ∧ Respelled u t' := by
  induction front generalizing t with
  | nil => exact ⟨t, rfl, h⟩
  | cons c front ih =>
    rw [List.mem_cons, not_or] at hfront
    rw [List.cons_append] at h
    generalize hr : front ++ t' = r at h
    cases h with
    | keep c h =>
      subst hr
      obtain ⟨u, rfl, hu⟩ := ih hfront.2 h
      exact ⟨u, rfl, hu⟩
    | name => exact absurd rfl hfront.1

/-- A text without a number sign is the only respelling of itself. -/
theorem eq_of_not_mem (h : Respelled t t') (hsign : '#' ∉ t') : t = t' := by
  rw [← List.append_nil t'] at h
  obtain ⟨u, rfl, hu⟩ := h.of_append hsign
  cases hu
  rw [List.append_nil]

/-- A value stops in both texts at the same character. -/
theorem of_run {value after : Text} {stop : Char} (h : Respelled t (value ++ stop :: after))
    (hvalue : ∀ c ∈ value, isIdValueChar c = true) (hstop : isIdValueChar stop = false) :
    ∃ value' after', t = value' ++ stop :: after' ∧ (∀ c ∈ value', isIdValueChar c = true) ∧
      Respelled value' value ∧ Respelled after' after := by
  generalize hr : value ++ stop :: after = r at h
  induction h generalizing value with
  | nil => simp at hr
  | @keep c t r h ih =>
    cases value with
    | nil =>
      cases hr
      exact ⟨[], t, rfl, by simp, .nil, h⟩
    | cons d value =>
      cases hr
      rw [List.forall_mem_cons] at hvalue
      obtain ⟨value', after', rfl, hvalue', hrest, hafter⟩ := ih hvalue.2 rfl
      exact ⟨c :: value', after', rfl, List.forall_mem_cons.mpr ⟨hvalue.1, hvalue'⟩,
        .keep c hrest, hafter⟩
  | @name raw raw' t r hraw hraw' h ih =>
    have hsign : ∀ c ∈ '#' :: raw', isIdValueChar c = true :=
      List.forall_mem_cons.mpr ⟨by decide, fun c hc => (hraw' c hc).1⟩
    -- the name behind the number sign lies in the value
    obtain ⟨more, rfl, hmore⟩ :
        ∃ more, value = '#' :: raw' ++ more ∧ more ++ stop :: after = r := by
      rw [← List.cons_append] at hr
      rcases List.append_eq_append_iff.mp hr with ⟨x, hx, hrest⟩ | ⟨more, hmore, hrest⟩
      · cases x with
        | nil => exact ⟨[], by rw [hx, List.append_nil, List.append_nil], hrest⟩
        | cons d x =>
          cases hrest
          rw [hsign stop (by rw [hx]; simp)] at hstop
          cases hstop
      · exact ⟨more, hmore, hrest.symm⟩
    obtain ⟨value', after', rfl, hvalue', hrest, hafter⟩ :=
      ih (fun c hc => hvalue c (List.mem_append_right _ hc)) hmore
    refine ⟨'#' :: (raw ++ value'), after', by simp, ?_, .name hraw hraw' hrest, hafter⟩
    refine List.forall_mem_cons.mpr ⟨by decide, fun c hc => ?_⟩
    rcases List.mem_append.mp hc with hc | hc
    · exact (hraw c hc).1
    · exact hvalue' c hc

/-- What makes a value a name without quotes holds of its respelling as well. -/
theorem first_of_first {name name' : Text} (h : Respelled name' name)
    (hfirst : (∀ c ∈ name.head?, isBlank c = false) ∨ name.length = 1) :
    (∀ c ∈ name'.head?, isBlank c = false) ∨ name'.length = 1 := by
  rcases hfirst with hfirst | hlength
  · exact .inl (h.head?_eq ▸ hfirst)
  · obtain ⟨b, rfl⟩ := List.length_eq_one_iff.mp hlength
    by_cases hb : b = '#'
    · left
      rw [h.head?_eq, hb]
      rintro c ⟨⟩
      decide
    · rw [h.eq_of_not_mem (by simpa using Ne.symm hb)]
      exact .inr rfl

theorem ne_nil {name name' : Text} (h : Respelled name' name) (hne : name ≠ []) : name' ≠ [] := by
  rintro rfl
  cases h
  exact hne rfl

theorem not_mem_blanks {blanks : Text} (h : ∀ c ∈ blanks, isBlank c = true) : '#' ∉ blanks :=
  fun hmem => absurd (h '#' hmem) (by decide)

theorem exists_valueForm {s : IdSelector} {value after : Text} (hvalue : ValueForm s value)
    (h : Respelled t (value ++ after)) :
    ∃ s' value' after', t = value' ++ after' ∧ ValueForm s' value' ∧ Respelled s'.name s.name ∧
      Respelled after' after := by
  cases hvalue with
  | @quoted lead name q hlead hq hne hname =>
    have hopen : '#' ∉ lead ++ [q] := by
      have hsign : '#' ≠ q := by rcases hq with rfl | rfl <;> decide
      simp [not_mem_blanks hlead, hsign]
    have htext : lead ++ q :: (name ++ [q, ']']) ++ after =
        lead ++ [q] ++ (name ++ q :: ([']'] ++ after)) := by simp
    rw [htext] at h
    obtain ⟨u, rfl, hu⟩ := h.of_append hopen
    obtain ⟨name', v, rfl, hname', hnames, hv⟩ := hu.of_run hname (isIdValueChar_quote hq)
    obtain ⟨after', rfl, hafter⟩ := hv.of_append (by simp)
    exact ⟨⟨[q], name'⟩, _, after', by simp, .quoted hlead hq (hnames.ne_nil hne) hname', hnames,
      hafter⟩
  | @bare lead name hlead hne hname hfirst =>
    rw [List.append_assoc, List.append_assoc] at h
    obtain ⟨u, rfl, hu⟩ := h.of_append (not_mem_blanks hlead)
    obtain ⟨name', after', rfl, hname', hnames, hafter⟩ := hu.of_run hname (by decide)
    exact ⟨⟨[], name'⟩, _, after', by simp,
      .bare hlead (hnames.ne_nil hne) hname' (hnames.first_of_first hfirst), hnames, hafter⟩

/-- **Where a selector stands in the one text, one with a respelled name stands in the other.** -/
theorem exists_form {s : IdSelector} {body after : Text} (hform : Form s body)
    (h : Respelled t (body ++ after)) :
    ∃ s' body' after', t = body' ++ after' ∧ Form s' body' ∧ Respelled s'.name s.name ∧
      Respelled after' after := by
  cases hform with
  | @mk word gap value hword hgap hvalue =>
    have hfront : '#' ∉ word ++ (gap ++ ['=']) := by
      have hid : '#' ∉ word := fun hmem => by
        obtain ⟨letter, hletter, hmatch⟩ := hword.exists_letter '#' hmem
        have hletter : letter = 'i' ∨ letter = 'd' := by simpa using hletter
        rcases hletter with rfl | rfl <;> exact absurd hmatch (by decide)
      simp [hid, not_mem_blanks hgap]
    have htext : word ++ (gap ++ '=' :: value) ++ after =
        word ++ (gap ++ ['=']) ++ (value ++ after) := by simp
    rw [htext] at h
    obtain ⟨u, rfl, hu⟩ := h.of_append hfront
    obtain ⟨s', value', after', rfl, hvalue', hname, hafter⟩ := hu.exists_valueForm hvalue
    exact ⟨s', _, after', by simp, .mk hword hgap hvalue', hname, hafter⟩

end Respelled

theorem findAll_append {front : Text} (h : '[' ∉ front) (t : Text) :
    matcher.findAll (front ++ t) = matcher.findAll t := by
  induction front with
  | nil => rfl
  | cons c front ih =>
    rw [List.mem_cons, not_or] at h
    rw [List.cons_append, findAll_pass fun hc => absurd hc.symm h.1, ih h.2]

/-- Each selector of a respelled text stands in the text, with a respelled name. -/
theorem Respelled.exists_mem_findAll {t t' : Text} (h : Respelled t t') :
    ∀ s ∈ matcher.findAll t', ∃ s' ∈ matcher.findAll t, Respelled s'.name s.name := by
  induction t' using selectorInduction generalizing t with
  | nil => simp
  | pass c rest hpass ih =>
    cases h with
    | @keep c u _ h =>
      have hpass' : c = '[' → read? u = none := by
        intro hc
        rw [Option.eq_none_iff_forall_ne_some]
        rintro ⟨s, after⟩ hread
        obtain ⟨body, hform, rfl⟩ := exists_form_of_read? hread
        obtain ⟨s', body', after', rfl, hform', -⟩ := h.symm.exists_form hform
        have := hpass hc
        rw [read?_of_form hform'] at this
        cases this
      rw [findAll_pass hpass, findAll_pass hpass']
      exact ih h
    | @name raw raw' u u' hraw hraw' h =>
      -- both forms are passed, so the new one may stand in the old text as well
      have hskip : ∀ {raw : Text}, (∀ c ∈ raw, IsInner c) → '[' ∉ raw := fun hraw hmem =>
        (hraw '[' hmem).2 rfl
      have hsame : matcher.findAll ('#' :: (raw ++ u)) = matcher.findAll (raw' ++ u) := by
        rw [findAll_pass (by simp), findAll_append (hskip hraw), findAll_append (hskip hraw')]
      rw [findAll_pass hpass, hsame]
      exact ih ((refl raw').append h)
  | selector s body after hform ih =>
    obtain ⟨u, rfl, hu⟩ := @Respelled.of_append t (body ++ after) ['['] (by simp) h
    obtain ⟨s', body', after', rfl, hform', hname, hafter⟩ := hu.exists_form hform
    rw [List.singleton_append, findAll_selector hform, findAll_selector hform']
    intro r hr
    rcases List.mem_cons.mp hr with rfl | hr
    · exact ⟨s', List.mem_cons_self, hname⟩
    · obtain ⟨r', hr', hname⟩ := ih hafter r hr
      exact ⟨r', List.mem_cons_of_mem _ hr', hname⟩

/-! ## Both steps -/

/-- Ids are written with characters of identifiers and short names with letters, and no short name is
an id that has one. -/
structure RenamesIds (ids : RenameMap) : Prop where
  ident : ∀ {name short}, ids.find? name = some short → ∀ c ∈ name, isIdentChar c = true
  nonempty : ∀ {name short}, ids.find? name = some short → short ≠ []
  letters : ∀ {name short}, ids.find? name = some short → ∀ c ∈ short, isAsciiLetter c = true
  settled : ∀ {name short}, ids.find? name = some short → ids.find? short = none

namespace RenamesIds

variable {ids : RenameMap} (h : RenamesIds ids)

include h

theorem find?_rename (name : Text) : ids.find? (ids.rename name) = none := by
  cases hfind : ids.find? name with
  | none => rwa [RenameMap.rename, hfind]
  | some short =>
    rw [RenameMap.rename_of_find? hfind]
    exact h.settled hfind

/-- No id holds a number sign or a bracket. -/
theorem find?_of_mem {t : Text} {c : Char} (hmem : c ∈ t) (hc : isIdentChar c = false) :
    ids.find? t = none := by
  rw [Option.eq_none_iff_forall_ne_some]
  intro short hfind
  rw [h.ident hfind c hmem] at hc
  cases hc

/-- Renaming the names behind number signs leads to a respelled text. -/
theorem respelled_renameMarked (t : Text) : Respelled t (renameMarked '#' ids t) := by
  have hinner : ∀ {c : Char}, isIdentChar c = true → IsInner c := fun hc =>
    ⟨isIdValueChar_of_isIdentChar hc, by rintro rfl; exact absurd hc (by decide)⟩
  refine Matcher.replaceAll_piecewise Respelled.piecewise fun p hp m out hnote hout => ?_
  obtain ⟨short, hfind, rfl⟩ := Option.map_eq_some_iff.mp hout
  obtain ⟨htext, hlength, hread⟩ := text_of_found (.inr rfl) t p hp m hnote
  have hunescape : unescape m.raw = m.name := by
    unfold nameBehind at hread
    split at hread
    · exact congrArg MarkedName.name (Option.some.inj hread)
    · cases hread
  have hraw : ∀ c ∈ m.raw, IsInner c := by
    intro c hc
    rcases mem_raw hlength c hc with hident | rfl | rfl | hmem
    · exact hinner hident
    · exact ⟨by decide, by decide⟩
    · exact ⟨by decide, by decide⟩
    · exact hinner (h.ident hfind c (hunescape ▸ hmem))
  have hletters := h.letters hfind
  have hname := Respelled.name hraw
    (fun c hc => hinner (isIdentChar_of_isAsciiLetter (hletters c hc))) .nil
  rwa [List.append_nil, List.append_nil, ← htext, ← escape_of_letters hletters] at hname

/-- What is found in the place of a name reads as the new name. -/
theorem name_of_reread {m m' : MarkedName} (hread : nameBehind '#' m.raw = some m)
    (hagain : m.reread ids '#' = some m') : m'.name = ids.rename m.name := by
  unfold MarkedName.reread MarkedName.renamed at hagain
  cases hfind : ids.find? m.name with
  | none =>
    simp only [hfind, hread] at hagain
    cases hagain
    rw [RenameMap.rename, hfind]
    rfl
  | some short =>
    have hletters := h.letters hfind
    have hident : ∀ c ∈ short, isIdentChar c = true := fun c hc =>
      isIdentChar_of_isAsciiLetter (hletters c hc)
    have hshort : unescape short = short := by
      have hspells := (Spells.identChars hident).unescape []
      rwa [List.append_nil, unescape_nil, List.append_nil] at hspells
    simp only [hfind, nameBehind, escape_of_letters hletters, hshort] at hagain
    rw [RenameMap.rename_of_find? hfind]
    split at hagain
    · cases hagain
      rfl
    · cases hagain

/-- No known id is left behind a number sign. -/
theorem find?_markedNames (t : Text) :
    ∀ m ∈ markedNames '#' (renameMarked '#' ids t), ids.find? m.name = none := by
  intro m' hm'
  rw [markedNames, Matcher.findAll, scan_renameMarked ids (.inr rfl), List.filterMap_map] at hm'
  obtain ⟨p, hp, hnote⟩ := List.mem_filterMap.mp hm'
  obtain ⟨m, hm, hagain⟩ := Option.bind_eq_some_iff.mp hnote
  have hread := (text_of_found (.inr rfl) t p hp m hm).2.2
  rw [h.name_of_reread hread hagain]
  exact h.find?_rename m.name

/-- No known id is left in a selector. -/
theorem find?_findAll (t : Text) :
    ∀ s ∈ matcher.findAll (renameMarked '#' ids (renameAll ids t)), ids.find? s.name = none := by
  intro s hs
  obtain ⟨s', hs', hname⟩ := (h.respelled_renameMarked (renameAll ids t)).exists_mem_findAll s hs
  rw [findAll_renameAll fun name short hfind => ⟨h.nonempty hfind, h.letters hfind⟩] at hs'
  obtain ⟨r, -, rfl⟩ := List.mem_map.mp hs'
  by_cases hsign : '#' ∈ s.name
  · exact h.find?_of_mem hsign (by decide)
  · -- the second step has not made this name
    rw [← hname.eq_of_not_mem hsign]
    exact h.find?_rename r.name

/-- The two steps make no text into an id. -/
theorem find?_renamed {t : Text} (hnone : ids.find? t = none) :
    ids.find? (renameMarked '#' ids (renameAll ids t)) = none := by
  rcases Matcher.replaceAll_eq_or (markedMatcher '#') _ (renameAll ids t) with
    hmarked | ⟨-, -, m, out, -, hout, hmem⟩
  · rw [renameMarked, hmarked]
    rcases Matcher.replaceAll_eq_or matcher _ t with hselector | ⟨-, -, s, out, -, hout, hmem⟩
    · rwa [renameAll, hselector]
    · obtain ⟨short, -, rfl⟩ := Option.map_eq_some_iff.mp hout
      exact h.find?_of_mem (hmem '[' (bracket_mem_text _)) (by decide)
  · obtain ⟨short, -, rfl⟩ := Option.map_eq_some_iff.mp hout
    exact h.find?_of_mem (hmem '#' List.mem_cons_self) (by decide)

end RenamesIds

/-! ## References -/

/-- The ids that have a short name. -/
def isRenamed (ids : RenameMap) (name : Text) : Bool :=
  (ids.find? name).isSome

section References

variable {ids : RenameMap} {literal : Text}

/-- A literal refers to no known id exactly if it is empty, or if it is none itself and, unless it is a
colour, has none behind a number sign or in a selector. -/
theorem idReferences_eq_nil_iff {known : Text → Bool} :
    idReferences known literal = [] ↔
      literal = [] ∨ known literal = false ∧ (isHexColorLiteral literal = true ∨
        (∀ m ∈ markedNames '#' literal, known m.name = false) ∧
          ∀ s ∈ matcher.findAll literal, known s.name = false) := by
  unfold idReferences
  by_cases hempty : literal = []
  · simp [hempty]
  · cases hknown : known literal with
    | true => simp [hempty]
    | false =>
      cases hcolor : isHexColorLiteral literal with
      | true => simp [hempty]
      | false => simp [hempty, List.append_eq_nil_iff, List.filter_eq_nil_iff]

theorem isRenamed_eq_false_iff {name : Text} :
    isRenamed ids name = false ↔ ids.find? name = none := by
  simp [isRenamed]

/-- Whether a map renames ids can be read off its entries. -/
theorem RenamesIds.of_entries
    (h : ids.entries.all fun entry => entry.1.all isIdentChar && !entry.2.isEmpty &&
      entry.2.all isAsciiLetter && !isRenamed ids entry.2) : RenamesIds ids := by
  have hentry : ∀ {name short : Text}, ids.find? name = some short →
      (∀ c ∈ name, isIdentChar c = true) ∧ short ≠ [] ∧ (∀ c ∈ short, isAsciiLetter c = true) ∧
        ids.find? short = none := by
    intro name short hfind
    have hall := List.all_eq_true.mp h _ (RenameMap.mem_entries_of_find? hfind)
    simpa [isRenamed, and_assoc] using hall
  exact ⟨fun hfind => (hentry hfind).1, fun hfind => (hentry hfind).2.1,
    fun hfind => (hentry hfind).2.2.1, fun hfind => (hentry hfind).2.2.2⟩

/-- A word of letters refers to no id but itself. -/
theorem idReferences_of_letters {short : Text} (hletters : ∀ c ∈ short, isAsciiLetter c = true)
    (hnone : ids.find? short = none) : idReferences (isRenamed ids) short = [] := by
  have hfree : ∀ c, isAsciiLetter c = false → c ∉ short := fun c hc hmem => by
    rw [hletters c hmem] at hc
    cases hc
  refine idReferences_eq_nil_iff.mpr (.inr ⟨isRenamed_eq_false_iff.mpr hnone, .inr ⟨?_, ?_⟩⟩)
  · intro m hm
    obtain ⟨p, hp, hnote⟩ := List.mem_filterMap.mp hm
    have hmem : '#' ∈ short := by
      rw [← (markedMatcher '#').pieces_text short]
      refine List.mem_flatMap.mpr ⟨p, hp, ?_⟩
      rw [(text_of_found (.inr rfl) short p hp m hnote).1]
      exact List.mem_cons_self
    exact absurd hmem (hfree '#' (by decide))
  · have hselectors := findAll_append (hfree '[' (by decide)) []
    rw [List.append_nil, findAll_nil] at hselectors
    simp [hselectors]

theorem RenamesIds.idReferences_renameIds (h : RenamesIds ids) (literal : Text) :
    idReferences (isRenamed ids) (renameIds ids literal) = [] := by
  unfold renameIds
  split
  · rename_i hsame
    rw [idReferences_eq_nil_iff]
    simp only [Bool.or_eq_true, List.isEmpty_iff] at hsame
    refine hsame.imp_right fun hcolor => ⟨?_, .inl hcolor⟩
    rw [isRenamed_eq_false_iff]
    unfold isHexColorLiteral at hcolor
    split at hcolor
    · exact h.find?_of_mem List.mem_cons_self (by decide)
    · cases hcolor
  · split
    · rename_i short hfind
      exact idReferences_of_letters (h.letters hfind) (h.settled hfind)
    · rename_i hfind
      rw [idReferences_eq_nil_iff]
      refine .inr ⟨isRenamed_eq_false_iff.mpr (h.find?_renamed hfind), .inr ⟨?_, ?_⟩⟩
      · intro m hm
        exact isRenamed_eq_false_iff.mpr (h.find?_markedNames _ m hm)
      · intro s hs
        exact isRenamed_eq_false_iff.mpr (h.find?_findAll literal s hs)

end References

/-- **Every reference to an id is renamed.** A renamed literal refers to no id that has a short name,
and a literal changes exactly if it refers to one. -/
theorem renameIds_complete {ids : RenameMap} (h : RenamesIds ids) (literal : Text) :
    idReferences (isRenamed ids) (renameIds ids literal) = [] ∧
      (renameIds ids literal ≠ literal ↔ idReferences (isRenamed ids) literal ≠ []) := by
  have hnone := h.idReferences_renameIds literal
  refine ⟨hnone, not_congr ⟨fun hsame => ?_, renameIds_of_idReferences⟩⟩
  rwa [hsame] at hnone

/-- In the value of a selector a number sign keeps its place, an escaped name behind one is renamed,
and so is one behind a blank; a new name may read as a colour. -/
theorem renameIds_complete_escaped :
    RenamesIds ⟨[("main".toList, "abc".toList), ("x-1".toList, "b".toList)]⟩ ∧
      renameIds ⟨[("main".toList, "abc".toList), ("x-1".toList, "b".toList)]⟩
        "#\\6d ain [ID = 'x-1'],[id=#main]".toList = "#abc [id='b'],[id=#abc]".toList ∧
      idReferences (isRenamed ⟨[("main".toList, "abc".toList), ("x-1".toList, "b".toList)]⟩)
        "#abc [id='b'],[id=#abc]".toList = [] := by
  have hids : RenamesIds ⟨[("main".toList, "abc".toList), ("x-1".toList, "b".toList)]⟩ :=
    .of_entries (by decide)
  have hrenamed : renameIds ⟨[("main".toList, "abc".toList), ("x-1".toList, "b".toList)]⟩
      "#\\6d ain [ID = 'x-1'],[id=#main]".toList = "#abc [id='b'],[id=#abc]".toList := by
    decide +kernel
  exact ⟨hids, hrenamed, hrenamed ▸ (renameIds_complete hids _).1⟩

end WebTrim.Literal
