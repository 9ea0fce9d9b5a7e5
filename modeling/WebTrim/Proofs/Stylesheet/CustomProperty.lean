import Mathlib.Data.List.TakeWhile
import WebTrim.Proofs.Naming.Allocation
import WebTrim.Proofs.Stylesheet.Ident
import WebTrim.Proofs.Text.Scan
import WebTrim.Stylesheet.CustomProperty

/-!
# Custom properties of a renamed text

Whether a custom property begins at a place depends on the character before it and on the next three
characters. A renamed property keeps its two hyphens and ends where the old one did.

* `OpensProperty` — a custom property begins here; `propertyMatcher_run`: how far it goes.
* `answers_property` — **at every place the renamed property is taken from the renamed text**.
* `propertiesIn_renameProperties` — **the properties of a renamed text are the renamed properties**.
-/

set_option autoImplicit false

namespace WebTrim.Stylesheet

open Text

/-! ## Where a custom property begins -/

/-- May a custom property begin behind this character? -/
def mayPrecedeProperty (before : Option Char) : Bool :=
  !(before.any fun b => isWordChar b || b == '-')

/-- Behind both characters, or behind neither, a custom property may begin. -/
def AlikeBefore (before before' : Option Char) (_ : Text) : Prop :=
  mayPrecedeProperty before = mayPrecedeProperty before'

/-- A custom property begins here. -/
def OpensProperty (before : Option Char) (c : Char) (rest : Text) : Prop :=
  mayPrecedeProperty before = true ∧ c = '-' ∧
    ∃ d more, rest = '-' :: d :: more ∧ isPropertyChar d = true

theorem propertyMatcher_run {before : Option Char} {run after : Text}
    (hbefore : mayPrecedeProperty before = true) (hne : run ≠ [])
    (hrun : ∀ d ∈ run, isPropertyChar d = true)
    (hafter : ∀ d ∈ after.head?, isPropertyChar d = false) :
    propertyMatcher before '-' ('-' :: (run ++ after)) =
      (1 + run.length, some ('-' :: '-' :: run)) := by
  have htaken : (run ++ after).takeWhile isPropertyChar = run := by
    rw [takeWhile_append_of_stop hafter, List.takeWhile_eq_self_iff.mpr hrun]
  unfold mayPrecedeProperty at hbefore
  simp [propertyMatcher, Matcher.ofPattern, hbefore, htaken, hne]

theorem propertyMatcher_pass {before : Option Char} {c : Char} {rest : Text}
    (h : ¬OpensProperty before c rest) : propertyMatcher before c rest = (0, none) := by
  simp only [propertyMatcher, Matcher.ofPattern]
  by_cases hopens : c = '-' ∧ rest.head? = some '-' ∧
      (!(before.any fun b => isWordChar b || b == '-')) = true
  · obtain ⟨rfl, hhead, hbefore⟩ := id hopens
    obtain ⟨more, rfl⟩ := List.head?_eq_some_iff.mp hhead
    have hrun : more.takeWhile isPropertyChar = [] := by
      cases more with
      | nil => rfl
      | cons d more =>
        have hd : isPropertyChar d = false := by
          by_contra hd
          exact h ⟨hbefore, rfl, d, more, rfl, Bool.not_eq_false _ ▸ hd⟩
        simp [hd]
    rw [if_pos hopens]
    simp [hrun]
  · rw [if_neg hopens]

/-- A custom property that begins here goes on to the first character that is no part of it. -/
theorem OpensProperty.exists_run {before : Option Char} {c : Char} {rest : Text}
    (h : OpensProperty before c rest) :
    ∃ run after, c = '-' ∧ rest = '-' :: (run ++ after) ∧ run ≠ [] ∧
      (∀ d ∈ run, isPropertyChar d = true) ∧ ∀ d ∈ after.head?, isPropertyChar d = false := by
  obtain ⟨-, rfl, d, more, rfl, hd⟩ := h
  obtain ⟨run, after, hsplit, hrun, hafter, hne⟩ := Text.exists_run isPropertyChar (d :: more)
  exact ⟨run, after, rfl, congrArg ('-' :: ·) hsplit, hne d rfl hd, hrun, hafter⟩

theorem isPropertyChar_of_isAsciiLetter {c : Char} (h : isAsciiLetter c = true) :
    isPropertyChar c = true := by
  simp [isPropertyChar, isAsciiAlnum, h]

/-- No custom property begins behind another one. -/
theorem mayPrecedeProperty_of_isPropertyChar {c : Char} (h : isPropertyChar c = true) :
    mayPrecedeProperty (some c) = false := by
  simp only [isPropertyChar, Bool.or_eq_true, beq_iff_eq] at h
  rcases h with (h | rfl) | rfl
  · have hnarrow : c.toNat < 0x80 := by
      rw [isAsciiAlnum, Bool.or_eq_true] at h
      rcases h with h | h
      · have := toNat_of_isAsciiLetter h
        omega
      · have := toNat_of_isAsciiDigit h
        omega
    have hword : isWordChar c = true := by simp [isWordChar, isAlnum, hnarrow, h]
    simp [mayPrecedeProperty, hword]
  · decide
  · decide

/-! ## Renaming -/

section Rename

variable {renames : RenameMap} (h : renames.Spelled "--".toList isAsciiLetter)

include h

/-- A renamed property is a property: two hyphens and a word. -/
theorem exists_of_rename_property {run : Text} (hne : run ≠ [])
    (hrun : ∀ d ∈ run, isPropertyChar d = true) :
    ∃ word, renames.rename ('-' :: '-' :: run) = '-' :: '-' :: word ∧ word ≠ [] ∧
      ∀ d ∈ word, isPropertyChar d = true := by
  cases hfind : renames.find? ('-' :: '-' :: run) with
  | none => exact ⟨run, RenameMap.rename_of_find?_none hfind, hne, hrun⟩
  | some short =>
    obtain ⟨word, rfl, hword, hletters⟩ := h _ _ hfind
    refine ⟨word, RenameMap.rename_of_find? hfind, hword, fun d hd => ?_⟩
    exact isPropertyChar_of_isAsciiLetter (hletters d hd)

/-- The text with its properties renamed begins as before. -/
theorem head?_rewritten_property (before : Option Char) (t : Text) :
    (rewritten propertyMatcher.step (Matcher.replacement renames.find?) before t).head? =
      t.head? := by
  refine Matcher.head?_rewritten (fun before c rest n found out hstep hout => ?_) before
  obtain ⟨word, rfl, -⟩ := h found out hout
  by_cases hopens : OpensProperty before c rest
  · rw [hopens.2.1]
    rfl
  · rw [propertyMatcher_pass hopens] at hstep
    cases hstep

/-- A place where no property begins stays one. -/
theorem not_opensProperty_rewritten {before before' : Option Char} {c : Char} {rest : Text}
    (hbefore : mayPrecedeProperty before = mayPrecedeProperty before')
    (hopens : ¬OpensProperty before c rest) :
    ¬OpensProperty before' c
      (rewritten propertyMatcher.step (Matcher.replacement renames.find?) (some c) rest) := by
  rintro ⟨hfree, rfl, d, more, hrest, hd⟩
  have hhead := head?_rewritten_property h (some '-') rest
  rw [hrest] at hhead
  obtain ⟨behind, rfl⟩ := List.head?_eq_some_iff.mp hhead.symm
  -- behind a hyphen no property begins, so the second hyphen is passed as well
  have hpass : propertyMatcher (some '-') '-' behind = (0, none) :=
    propertyMatcher_pass fun hopens => absurd hopens.1 (by decide)
  rw [Matcher.rewritten_pass hpass, List.cons.injEq] at hrest
  have hnext := head?_rewritten_property h (some '-') behind
  rw [hrest.2] at hnext
  obtain ⟨last, rfl⟩ := List.head?_eq_some_iff.mp hnext.symm
  exact hopens ⟨hbefore.trans hfree, rfl, d, last, rfl, hd⟩

/-- **At every place the renamed property is taken from the renamed text.** -/
theorem answers_property (before before' : Option Char) (c : Char) (rest : Text)
    (hbefore : AlikeBefore before before' (c :: rest)) :
    Answers propertyMatcher.step (Matcher.replacement renames.find?) (Option.map renames.rename)
      AlikeBefore before before' c rest := by
  unfold AlikeBefore at hbefore
  by_cases hopens : OpensProperty before c rest
  · have hfree := hopens.1
    obtain ⟨run, after, rfl, rfl, hne, hrun, hafter⟩ := hopens.exists_run
    obtain ⟨word, hword, hwordne, hwordrun⟩ := exists_of_rename_property h hne hrun
    have htake : ('-' :: (run ++ after)).take (1 + run.length) = '-' :: run := by
      rw [Nat.add_comm, List.take_succ_cons, List.take_left]
    have hdrop : ('-' :: (run ++ after)).drop (1 + run.length) = after := by
      rw [Nat.add_comm, List.drop_succ_cons, List.drop_left]
    have hlast : ∀ body : Text, (∀ d ∈ body, isPropertyChar d = true) →
        mayPrecedeProperty (some (('-' :: body).getLastD '-')) = false := by
      intro body hbody
      refine mayPrecedeProperty_of_isPropertyChar ?_
      rw [List.getLastD_cons]
      rcases List.eq_nil_or_concat' body with rfl | ⟨front, last, rfl⟩
      · decide
      · rw [List.getLastD_concat]
        exact hbody last (by simp)
    simp only [Answers, Matcher.step, propertyMatcher_run hfree hne hrun hafter, htake, hdrop]
    refine ⟨'-', '-' :: word, hword, fun tail htail => ?_⟩
    have hstop : ∀ d ∈ tail.head?, isPropertyChar d = false := by
      rw [htail, head?_rewritten_property h]
      exact hafter
    have htake' : ('-' :: (word ++ tail)).take (1 + word.length) = '-' :: word := by
      rw [Nat.add_comm, List.take_succ_cons, List.take_left]
    rw [List.cons_append, propertyMatcher_run (hbefore ▸ hfree) hwordne hwordrun hstop, htake',
      Option.map_some, hword]
    exact ⟨rfl, rfl, (hlast run hrun).trans (hlast word hwordrun).symm⟩
  · exact Matcher.answers_of_pass (fun _ _ => rfl) (propertyMatcher_pass hopens)
      (propertyMatcher_pass (not_opensProperty_rewritten h hbefore hopens))

/-- **The properties of a renamed text are the renamed properties.** -/
theorem propertiesIn_renameProperties (t : Text) :
    propertiesIn (renameProperties renames t) = (propertiesIn t).map renames.rename :=
  Matcher.findAll_replaceAll (answers_property h) rfl

end Rename

end WebTrim.Stylesheet
