import WebTrim.Proofs.Markup.Tag
import WebTrim.Proofs.Naming.Allocation

/-!
# Renamed attribute values

An attribute value ends at its quote, or before the first character that needs one. Renaming brings
in the letters of short names, and the signs of references and of custom properties.

* `Fits` — a text that may stand in the place of another: nonempty if that is, with characters of it
  and of names only.
* `Renames.Lettered` — short names are spelled with letters.
* `fits_renameAttribute` — **a renamed value fits in the place of the value**.
-/

set_option autoImplicit false

namespace WebTrim

open Text

/-- Every short name is made of letters, for a custom property with two hyphens before them. -/
structure Renames.Lettered (r : Renames) : Prop where
  classes : r.classes.Spelled [] isAsciiLetter
  ids : r.ids.Spelled [] isAsciiLetter
  properties : r.properties.Spelled "--".toList isAsciiLetter

namespace Markup

/-! ## Texts in the place of others -/

/-- A character that renaming may bring into a value. -/
def isRenameChar (c : Char) : Bool :=
  isAsciiLetter c || "-#()".toList.contains c

theorem isBareValueChar_of_isRenameChar {c : Char} (h : isRenameChar c = true) :
    isBareValueChar c = true := by
  rw [isRenameChar, Bool.or_eq_true] at h
  rcases h with h | h
  · have hrange := Stylesheet.toNat_of_isAsciiLetter h
    have hblank : isBlank c = false := by
      simp only [isBlank, Bool.or_eq_false_iff, Bool.and_eq_false_iff, decide_eq_false_iff_not,
        beq_eq_false_iff_ne]
      omega
    have hsigns : ("\"'=<>`".toList.all fun d => !isAsciiLetter d) = true := by decide
    have hsign : c ∉ "\"'=<>`".toList := by
      intro hmem
      simpa [h] using List.all_eq_true.mp hsigns c hmem
    simp only [isBareValueChar, hblank, Bool.false_or, Bool.not_eq_true']
    exact Bool.eq_false_iff.mpr fun hmem => hsign (List.contains_iff_mem.mp hmem)
  · have hall : "-#()".toList.all isBareValueChar = true := by decide
    exact List.all_eq_true.mp hall c (List.contains_iff_mem.mp h)

/-- A text that may stand in the place of a value. -/
structure Fits (value value' : Text) : Prop where
  ne_nil : value ≠ [] → value' ≠ []
  chars : ∀ c ∈ value', c ∈ value ∨ isRenameChar c = true

namespace Fits

variable {s t u v : Text}

theorem refl (t : Text) : Fits t t :=
  ⟨id, fun _ hc => .inl hc⟩

theorem of_chars (hne : u ≠ []) (h : ∀ c ∈ u, c ∈ t ∨ isRenameChar c = true) : Fits t u :=
  ⟨fun _ => hne, h⟩

theorem trans (h : Fits t u) (h' : Fits u v) : Fits t v where
  ne_nil hne := h'.ne_nil (h.ne_nil hne)
  chars c hc := by
    rcases h'.chars c hc with hc | hc
    · exact h.chars c hc
    · exact .inr hc

theorem append (h : Fits s t) (h' : Fits u v) : Fits (s ++ u) (t ++ v) where
  ne_nil hne hnil := by
    obtain ⟨rfl, rfl⟩ := List.append_eq_nil_iff.mp hnil
    refine hne (List.append_eq_nil_iff.mpr ⟨?_, ?_⟩)
    · by_contra hs
      exact h.ne_nil hs rfl
    · by_contra hu
      exact h'.ne_nil hu rfl
  chars c hc := by
    rcases List.mem_append.mp hc with hc | hc
    · exact (h.chars c hc).imp_left (List.mem_append_left u)
    · exact (h'.chars c hc).imp_left (List.mem_append_right s)

theorem piecewise : Piecewise Fits :=
  ⟨refl, append⟩

/-- A character that renaming does not bring in was there before. -/
theorem mem_of_mem {c : Char} (h : Fits t u) (hc : c ∈ u) (hnew : isRenameChar c = false) :
    c ∈ t := by
  rcases h.chars c hc with hmem | hrename
  · exact hmem
  · rw [hnew] at hrename
    cases hrename

end Fits

/-! ## What becomes of a value -/

section Rename

variable {m : RenameMap} {name short : Text}

/-- Short names are made of characters that renaming may bring in. -/
theorem chars_of_spelled {lead : Text} (h : m.Spelled lead isAsciiLetter)
    (hlead : lead.all isRenameChar = true) (hfind : m.find? name = some short) :
    short ≠ [] ∧ ∀ c ∈ short, isRenameChar c = true := by
  obtain ⟨word, rfl, hne, hword⟩ := h name short hfind
  refine ⟨by simp [hne], fun c hc => ?_⟩
  rcases List.mem_append.mp hc with hc | hc
  · exact List.all_eq_true.mp hlead c hc
  · simp [isRenameChar, hword c hc]

theorem chars_of_letters (h : m.Spelled [] isAsciiLetter) (hfind : m.find? name = some short) :
    short ≠ [] ∧ ∀ c ∈ short, isRenameChar c = true :=
  chars_of_spelled h rfl hfind

theorem fits_renameTokenList (decode : Text → Text) (h : m.Spelled [] isAsciiLetter)
    (value : Text) : Fits value (Literal.renameTokenList decode m value) := by
  refine Fits.piecewise.mapWords (fun word => ?_) value
  cases hfind : m.find? (decode word) with
  | none => exact .refl word
  | some short =>
    obtain ⟨hne, hchars⟩ := chars_of_letters h hfind
    exact .of_chars hne fun c hc => .inr (hchars c hc)

theorem fits_renameFragment (decode : Text → Text) (h : m.Spelled [] isAsciiLetter) (value : Text) :
    Fits value (renameFragment decode m value) := by
  unfold renameFragment
  split
  · split
    · rename_i short hfind
      obtain ⟨-, hchars⟩ := chars_of_letters h hfind
      refine .of_chars (List.cons_ne_nil _ _) fun c hc => .inr ?_
      rcases List.mem_cons.mp hc with rfl | hc
      · decide
      · exact hchars c hc
    · exact .refl _
  · exact .refl _

theorem fits_renameUrls (h : m.Spelled [] isAsciiLetter) (value : Text) :
    Fits value (Stylesheet.UrlFragment.renameAll m value) := by
  refine Matcher.replaceAll_piecewise Fits.piecewise fun p hp f out hnote hout => ?_
  obtain ⟨short, hfind, rfl⟩ := Option.map_eq_some_iff.mp hout
  obtain ⟨spelled, blanks, more, -, -, -, -, htext⟩ :=
    Stylesheet.UrlFragment.exists_of_mem_pieces hp hnote
  obtain ⟨-, hchars⟩ := chars_of_letters h hfind
  have hword : "url(".toList.all isRenameChar = true := by decide
  have hsign : isRenameChar '#' = true := by decide
  have hbracket : isRenameChar ')' = true := by decide
  -- the quotes around the name stood there before
  refine .of_chars (List.append_ne_nil_of_right_ne_nil _ (List.cons_ne_nil _ _)) fun c hc => ?_
  have hmem : c ∈ "url(".toList ++ f.quote ++ '#' :: short ++ f.quote ++ [')'] := hc
  rw [htext]
  generalize "url(".toList = word at hword hmem
  rw [List.all_eq_true] at hword
  simp only [List.mem_append, List.mem_cons, List.not_mem_nil, or_false] at hmem ⊢
  grind

theorem fits_renameProperties (h : m.Spelled "--".toList isAsciiLetter) (value : Text) :
    Fits value (Stylesheet.renameProperties m value) := by
  refine Matcher.replaceAll_piecewise Fits.piecewise fun p _ found out _ hout => ?_
  obtain ⟨hne, hchars⟩ := chars_of_spelled h (by decide) hout
  exact .of_chars hne fun c hc => .inr (hchars c hc)

end Rename

/-- **A renamed value fits in the place of the value.** -/
theorem fits_renameAttribute (decode : Text → Text) {renames : Renames} (h : renames.Lettered)
    (name value : Text) : Fits value (renameAttribute decode renames name value) := by
  unfold renameAttribute
  refine Fits.trans ?_ (fits_renameProperties h.properties _)
  split
  · exact fits_renameTokenList decode h.classes value
  · split
    · exact fits_renameTokenList decode h.ids value
    · split
      · exact fits_renameFragment decode h.ids value
      · exact fits_renameUrls h.ids value

end Markup

end WebTrim
