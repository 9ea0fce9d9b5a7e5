import WebTrim.Markup.Tag
import WebTrim.Proofs.Stylesheet.Size

/-!
# Start tags in a text

Whether a text holds a start tag depends on its brackets and quotes, and on the characters right
after its opening brackets. Renaming custom properties touches none of these.

* `hasTag_cons` — a tag begins here, or there is one later.
* `isSome_tagLength?_append`, `hasTag_append` — what means nothing to a tag may be dropped.
* `hasTag_renameProperties` — **renaming custom properties neither makes nor breaks a tag**.
-/

set_option autoImplicit false

namespace WebTrim.Markup

open Text

theorem splitTagName_append (tag : Text) : (splitTagName tag).1 ++ (splitTagName tag).2 = tag := by
  unfold splitTagName
  split
  · split
    · simp only [List.cons_append, splitWhile_append]
    · rfl
  · rfl

/-- Does a tag begin with this character? -/
def opensTag (c : Char) (rest : Text) : Bool :=
  c == '<' && rest.head?.any isAsciiLetter && (tagLength? none rest).isSome

theorem tagMatcher_eq_none {before : Option Char} {c : Char} {rest : Text}
    (h : opensTag c rest = false) : tagMatcher before c rest = (0, none) := by
  simp only [tagMatcher, Matcher.ofPattern]
  by_cases hopens : c = '<' ∧ rest.head?.any isAsciiLetter = true
  · have hlength : tagLength? none rest = none := by
      simpa [opensTag, hopens.1, hopens.2] using h
    rw [if_pos hopens, hlength]
    rfl
  · rw [if_neg hopens]

theorem tagMatcher_isSome (before : Option Char) {c : Char} {rest : Text}
    (h : opensTag c rest = true) : (tagMatcher before c rest).2.isSome = true := by
  simp only [opensTag, Bool.and_eq_true, beq_iff_eq] at h
  obtain ⟨⟨hc, hletter⟩, hlength⟩ := h
  obtain ⟨n, hn⟩ := Option.isSome_iff_exists.mp hlength
  simp [tagMatcher, Matcher.ofPattern, hc, hletter, hn]

/-- The matcher for tags does not look at the character before. -/
theorem scan_tagMatcher (before : Option Char) (t : Text) :
    scan tagMatcher.step before t = scan tagMatcher.step none t := by
  cases t with
  | nil => simp
  | cons c rest =>
    rw [scan_cons, scan_cons]
    rfl

/-- **A tag begins here, or there is one later.** -/
theorem hasTag_cons (c : Char) (rest : Text) :
    hasTag (c :: rest) = (opensTag c rest || hasTag rest) := by
  unfold hasTag tags Matcher.findAll Matcher.pieces
  rw [scan_cons]
  cases hopens : opensTag c rest with
  | true =>
    obtain ⟨tag, htag⟩ := Option.isSome_iff_exists.mp (tagMatcher_isSome none hopens)
    simp [Matcher.step, htag]
  | false =>
    simp only [Matcher.step, tagMatcher_eq_none hopens, List.drop_zero]
    rw [scan_tagMatcher]
    simp

/-! ## Characters that mean nothing to a tag -/

/-- A character that neither opens nor closes a tag or a quoted value. -/
def IsPlain (c : Char) : Prop :=
  c ≠ '<' ∧ c ≠ '>' ∧ c ≠ '"' ∧ c ≠ '\''

/-- Only quotes can be open. -/
def IsQuoteState (quote : Option Char) : Prop :=
  ∀ q ∈ quote, q = '"' ∨ q = '\''

theorem isSome_tagLength?_cons {c : Char} (hc : IsPlain c) {quote : Option Char}
    (hquote : IsQuoteState quote) (t : Text) :
    (tagLength? quote (c :: t)).isSome = (tagLength? quote t).isSome := by
  obtain ⟨-, hclose, hdouble, hsingle⟩ := hc
  cases quote with
  | none => simp [tagLength?, hclose, hdouble, hsingle]
  | some q =>
    have hq : c ≠ q := by
      rcases hquote q rfl with rfl | rfl <;> assumption
    simp [tagLength?, hq]

theorem isSome_tagLength?_append {run : Text} (hrun : ∀ c ∈ run, IsPlain c) {quote : Option Char}
    (hquote : IsQuoteState quote) (t : Text) :
    (tagLength? quote (run ++ t)).isSome = (tagLength? quote t).isSome := by
  induction run with
  | nil => rfl
  | cons c run ih =>
    rw [List.cons_append, isSome_tagLength?_cons (hrun c List.mem_cons_self) hquote]
    exact ih fun d hd => hrun d (List.mem_cons_of_mem _ hd)

theorem hasTag_append {run : Text} (hrun : ∀ c ∈ run, IsPlain c) (t : Text) :
    hasTag (run ++ t) = hasTag t := by
  induction run with
  | nil => rfl
  | cons c run ih =>
    have hopens : opensTag c (run ++ t) = false := by
      simp [opensTag, (hrun c List.mem_cons_self).1]
    rw [List.cons_append, hasTag_cons, hopens, Bool.false_or]
    exact ih fun d hd => hrun d (List.mem_cons_of_mem _ hd)

/-! ## Renaming custom properties -/

theorem isPlain_of_isPropertyChar {c : Char} (h : Stylesheet.isPropertyChar c = true) :
    IsPlain c := by
  refine ⟨?_, ?_, ?_, ?_⟩ <;> (rintro rfl; exact absurd h (by decide))

/-- A custom property means nothing to a tag. -/
theorem isPlain_of_mem_property {run : Text}
    (hrun : ∀ c ∈ run, Stylesheet.isPropertyChar c = true) :
    ∀ c ∈ '-' :: '-' :: run, IsPlain c := by
  have hdash : IsPlain '-' := isPlain_of_isPropertyChar (by decide)
  intro c hc
  rcases List.mem_cons.mp hc with rfl | hc
  · exact hdash
  rcases List.mem_cons.mp hc with rfl | hc
  · exact hdash
  · exact isPlain_of_isPropertyChar (hrun c hc)

/-- The texts look the same to a reader of tags. -/
structure SameTags (s t : Text) : Prop where
  head? : s.head? = t.head?
  tagLength? : ∀ quote, IsQuoteState quote →
    (tagLength? quote s).isSome = (tagLength? quote t).isSome
  hasTag : hasTag s = hasTag t

namespace SameTags

variable {s t : Text}

theorem refl (t : Text) : SameTags t t :=
  ⟨rfl, fun _ _ => rfl, rfl⟩

theorem cons (c : Char) (h : SameTags s t) : SameTags (c :: s) (c :: t) where
  head? := rfl
  tagLength? := by
    intro quote hquote
    cases quote with
    | none =>
      simp only [Markup.tagLength?]
      split
      · rfl
      · split
        · rename_i hc
          rw [Option.isSome_map, Option.isSome_map]
          exact h.tagLength? _ fun q hq => by
            cases hq
            exact hc
        · rw [Option.isSome_map, Option.isSome_map]
          exact h.tagLength? none hquote
    | some q =>
      simp only [Markup.tagLength?, Option.isSome_map]
      split
      · exact h.tagLength? none fun _ hq => by cases hq
      · exact h.tagLength? _ hquote
  hasTag := by
    have hopens : opensTag c s = opensTag c t := by
      rw [opensTag, opensTag, h.head?, h.tagLength? none fun _ hq => by cases hq]
    rw [hasTag_cons, hasTag_cons, hopens, h.hasTag]

/-- Plain runs that begin alike may be exchanged. -/
theorem append {run run' : Text} (hhead : run.head? = run'.head?) (hne : run ≠ [])
    (hrun : ∀ c ∈ run, IsPlain c) (hrun' : ∀ c ∈ run', IsPlain c) (h : SameTags s t) :
    SameTags (run ++ s) (run' ++ t) where
  head? := by
    have hne' : run' ≠ [] := by
      rintro rfl
      exact hne (List.head?_eq_none_iff.mp hhead)
    rw [List.head?_append_of_ne_nil _ hne, List.head?_append_of_ne_nil _ hne', hhead]
  tagLength? := by
    intro quote hquote
    rw [isSome_tagLength?_append hrun hquote, isSome_tagLength?_append hrun' hquote,
      h.tagLength? quote hquote]
  hasTag := by
    rw [hasTag_append hrun, hasTag_append hrun', h.hasTag]

end SameTags

/-- **Renaming custom properties neither makes nor breaks a tag.** -/
theorem hasTag_renameProperties {renames : RenameMap}
    (h : renames.Shortens "--".toList isAsciiLetter) (t : Text) :
    hasTag (Stylesheet.renameProperties renames t) = hasTag t := by
  have hsame : SameTags (Stylesheet.renameProperties renames t) t := by
    refine Stylesheet.renameProperties_rel h SameTags (.refl _) (fun c s t hst => hst.cons c) ?_ t
    intro run run' s t hnew hold hst
    have hhead : ('-' :: '-' :: run).head? = ('-' :: '-' :: run').head? := rfl
    exact SameTags.append hhead (List.cons_ne_nil _ _) (isPlain_of_mem_property hnew)
      (isPlain_of_mem_property hold) hst
  exact hsame.hasTag

end WebTrim.Markup
