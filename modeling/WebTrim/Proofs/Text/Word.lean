import Mathlib.Data.List.Forall2
import WebTrim.Text.Case
import WebTrim.Text.Search

/-!
# Words and where they stand

* `dropWord?_eq_some_iff` — a word is read exactly if its letters stand at the beginning.
* `search_eq_true_iff` — a search finds something exactly if the test holds at one of the places.
-/

set_option autoImplicit false

namespace WebTrim.Text

/-- A run of the lower case table stays beyond ASCII, except for the sign of the unit kelvin. -/
theorem lowerRuns_range : ∀ run ∈ lowerRuns,
    (run.1 = run.2.1 ∧ run.1 + run.2.2.2 = 107) ∨
      (0x80 ≤ run.1 + run.2.2.2 ∧ run.2.1 + run.2.2.2 < 0xD800) ∨
      (0xE000 ≤ run.1 + run.2.2.2 ∧ run.2.1 + run.2.2.2 < 0x110000) := by
  decide +kernel

theorem toNat_ofNat {n : Nat} (h : n < 0xD800 ∨ 0xE000 ≤ n ∧ n < 0x110000) :
    (Char.ofNat n).toNat = n := by
  have hvalid : n.isValidChar := by
    unfold Nat.isValidChar
    omega
  rw [Char.ofNat, dif_pos hvalid]
  rfl

/-- Beyond ASCII only two characters have a lower case form in ASCII, an i and a k. -/
theorem lowerChar_cases (c : Char) :
    c.toNat < 0x80 ∨ lowerChar c = 'i' ∨ lowerChar c = 'k' ∨ 0x80 ≤ (lowerChar c).toNat := by
  by_cases hascii : c.toNat < 0x80
  · exact .inl hascii
  refine .inr ?_
  simp only [lowerChar, if_neg hascii]
  split
  · exact .inl rfl
  split
  · next low high stride shift hfind =>
    have hmem := List.mem_of_find?_eq_some hfind
    have hrange := List.find?_some hfind
    simp only [Bool.and_eq_true, decide_eq_true_eq] at hrange
    obtain ⟨⟨hlow, hhigh⟩, -⟩ := hrange
    rcases lowerRuns_range _ hmem with ⟨hsame, hkelvin⟩ | hrange | hrange <;> dsimp only at *
    · have : (c.toNat + shift).toNat = 107 := by omega
      rw [this]
      exact .inr (.inl rfl)
    · have hn := toNat_ofNat (n := (c.toNat + shift).toNat) (by omega)
      exact .inr (.inr (by omega))
    · have hn := toNat_ofNat (n := (c.toNat + shift).toNat) (by omega)
      exact .inr (.inr (by omega))
  · exact .inr (.inr (Nat.le_of_not_lt hascii))

/-- Which characters read as a letter or sign of ASCII other than an i, a k or an s: that character
itself and, for a letter, another ASCII letter. -/
theorem eq_or_isAsciiLetter_of_matchesLetter {letter c : Char} (h : matchesLetter letter c = true)
    (hascii : letter.toNat < 0x80) (hletter : letter ≠ 'i' ∧ letter ≠ 'k' ∧ letter ≠ 's') :
    c = letter ∨ isAsciiLetter letter = true ∧ isAsciiLetter c = true := by
  obtain ⟨hi, hk, hs⟩ := hletter
  have hlower : lowerChar c = letter := by
    simpa [matchesLetter, hi, hs] using h
  have hc : c.toNat < 0x80 := by
    rcases lowerChar_cases c with hc | hc | hc | hc
    · exact hc
    · exact absurd (hlower.symm.trans hc) hi
    · exact absurd (hlower.symm.trans hc) hk
    · rw [hlower] at hc
      omega
  simp only [lowerChar, if_pos hc] at hlower
  split at hlower
  · next hupper =>
    have hrange : 65 ≤ c.toNat ∧ c.toNat ≤ 90 := by
      simpa [Char.le_def, UInt32.le_iff_toNat_le] using hupper
    have hn : letter.toNat = c.toNat + 0x20 := by
      rw [← hlower]
      exact toNat_ofNat (by omega)
    refine .inr ⟨?_, by simp only [isAsciiLetter, hupper, Bool.or_true]⟩
    have hlow : 97 ≤ letter.toNat ∧ letter.toNat ≤ 122 := by omega
    simpa [isAsciiLetter, Char.le_def, UInt32.le_iff_toNat_le] using Or.inl hlow
  · exact .inl hlower

/-- The spelling of a word without regard to case. -/
def Spelling (word spelled : Text) : Prop :=
  List.Forall₂ (fun letter c => matchesLetter letter c = true) word spelled

/-- Each letter of a word stands in its spelling. -/
theorem Spelling.exists_mem {word spelled : Text} (h : Spelling word spelled) :
    ∀ letter ∈ word, ∃ c ∈ spelled, matchesLetter letter c = true := by
  induction h with
  | nil => simp
  | cons hc _ ih =>
    intro letter hletter
    rcases List.mem_cons.mp hletter with rfl | hletter
    · exact ⟨_, List.mem_cons_self, hc⟩
    · obtain ⟨d, hd, hmatch⟩ := ih letter hletter
      exact ⟨d, List.mem_cons_of_mem _ hd, hmatch⟩

/-- Each character of a spelling reads as a letter of the word. -/
theorem Spelling.exists_letter {word spelled : Text} (h : Spelling word spelled) :
    ∀ c ∈ spelled, ∃ letter ∈ word, matchesLetter letter c = true := by
  induction h with
  | nil => simp
  | cons hc _ ih =>
    intro c hmem
    rcases List.mem_cons.mp hmem with rfl | hmem
    · exact ⟨_, List.mem_cons_self, hc⟩
    · obtain ⟨letter, hletter, hmatch⟩ := ih c hmem
      exact ⟨letter, List.mem_cons_of_mem _ hletter, hmatch⟩

theorem Spelling.exists_concat {word spelled : Text} {last : Char}
    (h : Spelling (word ++ [last]) spelled) :
    ∃ name c, spelled = name ++ [c] ∧ Spelling word name ∧ matchesLetter last c = true := by
  induction word generalizing spelled with
  | nil =>
    obtain ⟨c, _, hc, hnil, rfl⟩ := List.forall₂_cons_left_iff.mp h
    cases hnil
    exact ⟨[], c, rfl, .nil, hc⟩
  | cons w word ih =>
    obtain ⟨d, rest, hd, hrest, rfl⟩ := List.forall₂_cons_left_iff.mp h
    obtain ⟨name, c, rfl, hname, hc⟩ := ih hrest
    exact ⟨d :: name, c, rfl, .cons hd hname, hc⟩

/-- **A word is read exactly if a spelling of it stands at the beginning.** -/
theorem dropWord?_eq_some_iff {word t rest : Text} :
    dropWord? word t = some rest ↔ ∃ spelled, Spelling word spelled ∧ t = spelled ++ rest := by
  induction word generalizing t with
  | nil =>
    simp only [dropWord?, Option.some.injEq]
    constructor
    · rintro rfl
      exact ⟨[], .nil, rfl⟩
    · rintro ⟨_, ⟨⟩, rfl⟩
      rfl
  | cons w word ih =>
    cases t with
    | nil =>
      constructor
      · intro h
        cases h
      · rintro ⟨_, ⟨-, -⟩, hnil⟩
        cases hnil
    | cons c t =>
      rw [dropWord?, Option.ite_none_right_eq_some, ih]
      constructor
      · rintro ⟨hc, spelled, hspelled, rfl⟩
        exact ⟨c :: spelled, .cons hc hspelled, rfl⟩
      · rintro ⟨_, hspelling, heq⟩
        cases hspelling with
        | cons hc hspelled =>
          cases heq
          exact ⟨hc, _, hspelled, rfl⟩

/-- A search finds something exactly if the test holds at one of the places. -/
theorem search_eq_true_iff {test : Text → Bool} {before : Option Char} {t : Text} :
    search (fun _ => test) before t = true ↔ ∃ rest, rest <:+ t ∧ test rest = true := by
  induction t generalizing before with
  | nil =>
    constructor
    · intro h
      exact ⟨[], List.suffix_refl _, h⟩
    · rintro ⟨rest, hsuffix, htest⟩
      rw [List.suffix_nil.mp hsuffix] at htest
      exact htest
  | cons c t ih =>
    rw [search, Bool.or_eq_true, ih]
    constructor
    · rintro (htest | ⟨rest, hsuffix, htest⟩)
      · exact ⟨c :: t, List.suffix_refl _, htest⟩
      · exact ⟨rest, hsuffix.trans (List.suffix_cons c t), htest⟩
    · rintro ⟨rest, hsuffix, htest⟩
      rcases List.suffix_cons_iff.mp hsuffix with rfl | hsuffix
      · exact .inl htest
      · exact .inr ⟨rest, hsuffix, htest⟩

end WebTrim.Text
