import WebTrim.Proofs.Markup.Tag

/-!
# Reading attributes

An attribute is read from its name on, wherever a name may begin. What is read behind the name
depends on how the value is written and, without quotes, on the character after it.

* `ValueForm`, `AttributeForm` — how a value and an attribute are written.
* `readAttribute?_of_form`, `exists_of_readAttribute?` — **these are the attributes that are read**.
* `attributeInduction` — a text is a row of characters that are passed and of attributes.
* `pieces_pass`, `pieces_attribute` — the pieces of such a text; `renamedRest_pass`,
  `renamedRest_attribute` — what becomes of it when its attribute values are renamed.
-/

set_option autoImplicit false

namespace WebTrim.Markup

open Text

/-! ## How values are written -/

/-- How the value of an attribute is written before the text `after`, with the text before the value
and the closing quote. -/
inductive ValueForm (after : Text) : Text → Text → Text → Prop
  | quoted {blanks more value : Text} {q : Char} (hblanks : ∀ c ∈ blanks, isBlank c = true)
      (hmore : ∀ c ∈ more, isBlank c = true) (hq : q = '"' ∨ q = '\'') (hvalue : q ∉ value) :
      ValueForm after (blanks ++ '=' :: more ++ [q]) value [q]
  | bare {blanks more value : Text} (hblanks : ∀ c ∈ blanks, isBlank c = true)
      (hmore : ∀ c ∈ more, isBlank c = true) (hne : value ≠ [])
      (hvalue : ∀ c ∈ value, isBareValueChar c = true)
      (hstop : ∀ c ∈ after.head?, isBareValueChar c = false) :
      ValueForm after (blanks ++ '=' :: more) value []

/-- A character of a value without quotes is neither a blank nor a quote. -/
theorem isBlank_of_isBareValueChar {c : Char} (h : isBareValueChar c = true) :
    isBlank c = false ∧ ¬(c = '"' ∨ c = '\'') := by
  refine ⟨?_, ?_⟩
  · cases hblank : isBlank c with
    | false => rfl
    | true => simp [isBareValueChar, hblank] at h
  · rintro (rfl | rfl) <;> exact absurd h (by decide)

theorem readValue?_of_form {after lead value closing : Text}
    (h : ValueForm after lead value closing) :
    readValue? (lead ++ value ++ closing ++ after) = some (lead, value, closing) := by
  have hequals : ∀ rest : Text, ∀ c ∈ ('=' :: rest).head?, isBlank c = false := by
    intro rest c hc
    cases hc
    decide
  cases h with
  | @quoted blanks more value q hblanks hmore hq hvalue =>
    have hquote : ∀ c ∈ (q :: (value ++ q :: after)).head?, isBlank c = false := by
      intro c hc
      cases hc
      rcases hq with rfl | rfl <;> decide
    have htext : blanks ++ '=' :: more ++ [q] ++ value ++ [q] ++ after =
        blanks ++ '=' :: (more ++ q :: (value ++ q :: after)) := by simp
    rw [htext, readValue?, splitWhile_append_of hblanks (hequals _)]
    simp only
    rw [splitWhile_append_of hmore hquote]
    simp only
    rw [if_pos hq, cut?_singleton hvalue]
    rfl
  | @bare blanks more value hblanks hmore hne hvalue hstop =>
    obtain ⟨c, rest, rfl⟩ := List.exists_cons_of_ne_nil hne
    obtain ⟨hblank, hq⟩ := isBlank_of_isBareValueChar (hvalue c List.mem_cons_self)
    have hfirst : ∀ d ∈ (c :: rest ++ after).head?, isBlank d = false := by
      intro d hd
      cases hd
      exact hblank
    have hrun : (c :: rest ++ after).takeWhile isBareValueChar = c :: rest := by
      rw [takeWhile_append_of_stop hstop, List.takeWhile_eq_self_iff.mpr hvalue]
    have htext : blanks ++ '=' :: more ++ c :: rest ++ [] ++ after =
        blanks ++ '=' :: (more ++ (c :: rest ++ after)) := by simp
    rw [htext, readValue?, splitWhile_append_of hblanks (hequals _)]
    simp only
    rw [splitWhile_append_of hmore hfirst]
    simp only [List.cons_append] at hrun ⊢
    rw [if_neg hq, hrun]
    rfl

theorem exists_of_readValue? {t lead value closing : Text}
    (h : readValue? t = some (lead, value, closing)) :
    ∃ after, t = lead ++ value ++ closing ++ after ∧ ValueForm after lead value closing := by
  have hblanks : ∀ u : Text, ∀ c ∈ (splitWhile isBlank u).1, isBlank c = true :=
    fun u c hc => List.mem_takeWhile_imp hc
  unfold readValue? at h
  simp only at h
  have htext := splitWhile_append isBlank t
  split at h
  · rename_i u hequals
    have hrest := splitWhile_append isBlank u
    split at h
    · rename_i c rest hvalue
      rw [hequals, ← hrest, hvalue] at htext
      split at h
      · rename_i hq
        obtain ⟨⟨body, after⟩, hcut, heq⟩ := Option.map_eq_some_iff.mp h
        cases heq
        have hbody : c ∉ body := by
          have hmem : c ∈ rest := by
            rw [(cut?_eq_some hcut).1]
            simp
          obtain ⟨body', after', hcut', hbody'⟩ := cut?_singleton_of_mem hmem
          cases hcut.symm.trans hcut'
          exact hbody'
        refine ⟨after, ?_, .quoted (hblanks t) (hblanks u) hq hbody⟩
        refine htext.symm.trans ?_
        rw [(cut?_eq_some hcut).1]
        simp
      · split at h
        · cases h
        · rename_i hne
          cases h
          refine ⟨(c :: rest).dropWhile isBareValueChar, ?_,
            .bare (hblanks t) (hblanks u) (by simpa [hvalue] using hne)
              (fun d hd => List.mem_takeWhile_imp hd) not_head_dropWhile⟩
          refine htext.symm.trans ?_
          rw [hvalue]
          simp [List.takeWhile_append_dropWhile]
    · cases h
  · cases h

/-- No attribute begins in the text before a value. -/
theorem ValueForm.lead_chars {after lead value closing : Text}
    (h : ValueForm after lead value closing) :
    lead ≠ [] ∧ ∀ c ∈ lead, isAttributeNameChar c = false := by
  have hblank : ∀ {c : Char}, isBlank c = true → isAttributeNameChar c = false := by
    intro c hc
    simp [isAttributeNameChar, hc]
  have hequals : isAttributeNameChar '=' = false := by decide
  cases h with
  | @quoted blanks more _ q hblanks hmore hq hvalue =>
    have hquote : isAttributeNameChar q = false := by
      rcases hq with rfl | rfl <;> decide
    refine ⟨by simp, fun c hc => ?_⟩
    simp only [List.mem_append, List.mem_cons, List.not_mem_nil, or_false] at hc
    rcases hc with (hc | rfl | hc) | rfl
    · exact hblank (hblanks c hc)
    · exact hequals
    · exact hblank (hmore c hc)
    · exact hquote
  | bare hblanks hmore hne hvalue hstop =>
    refine ⟨by simp, fun c hc => ?_⟩
    rcases List.mem_append.mp hc with hc | hc
    · exact hblank (hblanks c hc)
    · rcases List.mem_cons.mp hc with rfl | hc
      · exact hequals
      · exact hblank (hmore c hc)

/-! ## How attributes are written -/

/-- How an attribute is written before the text `after`. -/
inductive AttributeForm (after : Text) : Attribute → Prop
  | valued {name lead value closing : Text} (hne : name ≠ [])
      (hname : ∀ c ∈ name, isAttributeNameChar c = true)
      (hvalue : ValueForm after lead value closing) :
      AttributeForm after ⟨lower name, name ++ lead, some value, closing⟩
  | flag {name : Text} (hne : name ≠ []) (hname : ∀ c ∈ name, isAttributeNameChar c = true)
      (hstop : ∀ c ∈ after.head?, isAttributeNameChar c = false) (hnone : readValue? after = none) :
      AttributeForm after ⟨lower name, name, none, []⟩

theorem readAttribute?_of_form {after : Text} {a : Attribute} (h : AttributeForm after a) :
    readAttribute? (a.text ++ after) = some a := by
  cases h with
  | @valued name lead value closing hne hname hvalue =>
    obtain ⟨hlead, hchars⟩ := hvalue.lead_chars
    have hstop : ∀ c ∈ (lead ++ value ++ closing ++ after).head?,
        isAttributeNameChar c = false := by
      obtain ⟨c, lead, rfl⟩ := List.exists_cons_of_ne_nil hlead
      intro d hd
      cases hd
      exact hchars c List.mem_cons_self
    have htext : Attribute.text ⟨lower name, name ++ lead, some value, closing⟩ ++ after =
        name ++ (lead ++ value ++ closing ++ after) := by simp [Attribute.text]
    rw [htext, readAttribute?, splitWhile_append_of hname hstop]
    simp only
    rw [if_neg (by simpa using hne), readValue?_of_form hvalue]
  | @flag name hne hname hstop hnone =>
    have htext : Attribute.text ⟨lower name, name, none, []⟩ ++ after = name ++ after := by
      simp [Attribute.text]
    rw [htext, readAttribute?, splitWhile_append_of hname hstop]
    simp [hne, hnone]

theorem exists_of_readAttribute? {t : Text} {a : Attribute} (h : readAttribute? t = some a) :
    ∃ after, t = a.text ++ after ∧ AttributeForm after a := by
  have hchars : ∀ c ∈ (splitWhile isAttributeNameChar t).1, isAttributeNameChar c = true :=
    fun c hc => List.mem_takeWhile_imp hc
  have htext := splitWhile_append isAttributeNameChar t
  unfold readAttribute? at h
  simp only at h
  split at h
  · cases h
  · rename_i hempty
    have hne : (splitWhile isAttributeNameChar t).1 ≠ [] := by simpa using hempty
    split at h
    · rename_i lead value closing hread
      cases h
      obtain ⟨after, hsplit, hvalue⟩ := exists_of_readValue? hread
      refine ⟨after, ?_, .valued hne hchars hvalue⟩
      rw [hsplit] at htext
      exact htext.symm.trans (by simp [Attribute.text])
    · rename_i hread
      cases h
      refine ⟨(splitWhile isAttributeNameChar t).2, ?_, .flag hne hchars not_head_dropWhile hread⟩
      exact htext.symm.trans (by simp [Attribute.text])

/-! ## Finding attributes -/

section Find

variable {c : Char} {rest after : Text} {a : Attribute}

theorem AttributeForm.before_ne_nil (h : AttributeForm after a) : a.before ≠ [] := by
  cases h with
  | valued hne hname hvalue => simp [hne]
  | flag hne hname hstop hnone => exact hne

theorem AttributeForm.text_ne_nil (h : AttributeForm after a) : a.text ≠ [] := by
  simp [Attribute.text, h.before_ne_nil]

/-- An attribute begins with every character that may stand in its name. -/
theorem exists_form (h : isAttributeNameChar c = true) (rest : Text) :
    ∃ a after, c :: rest = a.text ++ after ∧ AttributeForm after a := by
  cases hread : readAttribute? (c :: rest) with
  | none =>
    simp only [readAttribute?, splitWhile, List.takeWhile_cons, h, if_true, List.isEmpty_cons,
      Bool.false_eq_true, if_false] at hread
    split at hread <;> cases hread
  | some a => exact ⟨a, exists_of_readAttribute? hread⟩

/-- What is read at a place does not depend on the text before it. -/
theorem scan_eq_pieces (before : Option Char) (t : Text) :
    scan attributeMatcher.step before t = attributeMatcher.pieces t := by
  have hsame : ∀ c rest, attributeMatcher before c rest = attributeMatcher none c rest :=
    fun c rest => rfl
  exact Matcher.scan_of_same hsame t

theorem pieces_pass (h : isAttributeNameChar c = false) (rest : Text) :
    attributeMatcher.pieces (c :: rest) = ⟨[c], none⟩ :: attributeMatcher.pieces rest := by
  have hnone : readAttribute? (c :: rest) = none := by simp [readAttribute?, splitWhile, h]
  have hpass : attributeMatcher none c rest = (0, none) := by
    simp [attributeMatcher, Matcher.ofPattern, hnone]
  rw [Matcher.pieces, scan_cons, scan_eq_pieces]
  simp [Matcher.step, hpass]

theorem pieces_attribute (h : AttributeForm after a) :
    attributeMatcher.pieces (a.text ++ after) =
      ⟨a.text, some a⟩ :: attributeMatcher.pieces after := by
  obtain ⟨c, more, htext⟩ := List.exists_cons_of_ne_nil h.text_ne_nil
  have hsplit : c :: (more ++ after) = a.text ++ after := by rw [htext]; rfl
  have hfound : attributeMatcher none c (more ++ after) = (a.text.length - 1, some a) := by
    simp [attributeMatcher, Matcher.ofPattern, hsplit, readAttribute?_of_form h]
  obtain ⟨htake, hdrop⟩ := take_drop_of_split h.text_ne_nil hsplit
  rw [← hsplit, Matcher.pieces, scan_cons, scan_eq_pieces]
  simp only [Matcher.step, hfound, htake, hdrop]

/-- A text begins with a character that is passed or with an attribute, and so does the rest. -/
theorem attributeInduction {P : Text → Prop} (nil : P [])
    (pass : ∀ c rest, isAttributeNameChar c = false → P rest → P (c :: rest))
    (found : ∀ a after, AttributeForm after a → P after → P (a.text ++ after)) (t : Text) :
    P t := by
  induction hlength : t.length using Nat.strong_induction_on generalizing t with
  | _ n ih =>
    subst hlength
    cases t with
    | nil => exact nil
    | cons c rest =>
      cases hc : isAttributeNameChar c with
      | false => exact pass c rest hc (ih _ (by simp) rest rfl)
      | true =>
        obtain ⟨a, after, hsplit, hform⟩ := exists_form hc rest
        have hpos := List.length_pos_iff.mpr hform.text_ne_nil
        rw [hsplit] at ih ⊢
        refine found a after hform (ih _ ?_ after rfl)
        rw [List.length_append]
        omega

end Find

/-! ## Renaming -/

/-- The text behind the name of a tag with its attribute values renamed. -/
def renamedRest (decode : Text → Text) (renames : Renames) (t : Text) : Text :=
  attributeMatcher.replaceAll (fun a => some (a.renamed decode renames).text) t

section Rename

variable (decode : Text → Text) (renames : Renames) {c : Char} {after : Text} {a : Attribute}

@[simp] theorem renamedRest_nil : renamedRest decode renames [] = [] := by
  simp [renamedRest, Matcher.replaceAll, Matcher.pieces]

theorem renamedRest_pass (h : isAttributeNameChar c = false) (rest : Text) :
    renamedRest decode renames (c :: rest) = c :: renamedRest decode renames rest := by
  simp [renamedRest, Matcher.replaceAll, pieces_pass h]

theorem renamedRest_attribute (h : AttributeForm after a) :
    renamedRest decode renames (a.text ++ after) =
      (a.renamed decode renames).text ++ renamedRest decode renames after := by
  simp [renamedRest, Matcher.replaceAll, pieces_attribute h]

end Rename

end WebTrim.Markup
