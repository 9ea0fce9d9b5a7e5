import WebTrim.Color.Fold
import WebTrim.Proofs.Text.Scan
import WebTrim.Proofs.Text.Word

/-!
# Folded colours

* `exists_of_convert` — a call is converted to a number sign and hexadecimal digits.
* `foldPiece_cases`, `exists_of_foldPiece` — **what stands in place of a call that is replaced**.
* `callMatcher_plain`, `exists_of_callMatcher`, `scan_call` — where calls are found, and that a call
  is found whatever follows it.
-/

set_option autoImplicit false

namespace WebTrim.Color

open Text

/-! ## Hexadecimal notation -/

theorem isHexDigit_digitChar {n : Nat} (h : n < 16) : isHexDigit (Nat.digitChar n) = true := by
  have hall : ∀ n < 16, isHexDigit (Nat.digitChar n) = true := by decide
  exact hall n h

/-- Bytes are written with hexadecimal digits after a number sign. -/
theorem exists_hexOfBytes (bytes : List Nat) :
    ∃ digits, hexOfBytes bytes = '#' :: digits ∧ ∀ c ∈ digits, isHexDigit c = true := by
  have hpair : ∀ pair ∈ bytes.map bytePair,
      isHexDigit pair.1 = true ∧ isHexDigit pair.2 = true := by
    intro pair hpair
    obtain ⟨n, -, rfl⟩ := List.mem_map.mp hpair
    exact ⟨isHexDigit_digitChar (Nat.mod_lt _ (by decide)),
      isHexDigit_digitChar (Nat.mod_lt _ (by decide))⟩
  unfold hexOfBytes
  dsimp only
  split
  · refine ⟨_, rfl, fun c hc => ?_⟩
    obtain ⟨pair, hmem, rfl⟩ := List.mem_map.mp hc
    exact (hpair pair hmem).1
  · refine ⟨_, rfl, fun c hc => ?_⟩
    obtain ⟨pair, hmem, hc⟩ := List.mem_flatMap.mp hc
    simp only [List.mem_cons, List.not_mem_nil, or_false] at hc
    rcases hc with rfl | rfl
    · exact (hpair pair hmem).1
    · exact (hpair pair hmem).2

/-- What a call is converted to is a colour in hexadecimal notation. -/
theorem exists_of_convert {t color : Text} (h : convert t = .ok (some color)) :
    ∃ digits, color = '#' :: digits ∧ ∀ c ∈ digits, isHexDigit c = true := by
  unfold convert at h
  split at h
  · cases h
  · obtain ⟨lightness, -, h⟩ := exists_of_bind_eq_ok h
    obtain ⟨chroma, -, h⟩ := exists_of_bind_eq_ok h
    obtain ⟨hue, -, h⟩ := exists_of_bind_eq_ok h
    dsimp only at h
    -- With an opacity and without one the call goes on in the same way.
    split at h <;>
    · obtain ⟨alpha, -, h⟩ := exists_of_bind_eq_ok h
      split at h
      · split at h
        · cases h
        · obtain ⟨channels, -, h⟩ := exists_of_bind_eq_ok h
          obtain ⟨found, -, rfl⟩ := Option.map_eq_some_iff.mp (Except.ok.inj h)
          exact exists_hexOfBytes _
      · cases h

/-! ## Calls -/

section FoldPiece

variable {ε : Type} {conv : Text → Except ε (Option Text)}

/-- What stands in place of a piece: the piece, or what its call is converted to. -/
theorem foldPiece_cases {p : Piece (Option Text)} {literal : Text}
    (h : foldPiece conv p = .ok literal) :
    literal = p.text ∨ ∃ body, p.note = some body ∧ conv body = .ok (some literal) ∧
      byteLength literal < byteLength p.text := by
  unfold foldPiece at h
  split at h
  · cases h
    exact .inl rfl
  · next body hnote =>
    split at h
    · cases h
      exact .inl rfl
    split at h
    · cases h
    · cases h
      exact .inl rfl
    · next color hconv =>
      split at h
      · next hsmaller =>
        cases h
        exact .inr ⟨body, hnote, hconv, hsmaller⟩
      · cases h
        exact .inl rfl

/-- What stands in place of a call that is replaced. -/
theorem exists_of_foldPiece {p : Piece (Option Text)} {literal : Text}
    (h : foldPiece conv p = .ok literal) (hne : literal ≠ p.text) :
    ∃ body, p.note = some body ∧ conv body = .ok (some literal) := by
  rcases foldPiece_cases h with heq | ⟨body, hnote, hconv, -⟩
  · exact absurd heq hne
  · exact ⟨body, hnote, hconv⟩

end FoldPiece

/-- No call begins at a character that is no letter. -/
theorem callMatcher_plain {before : Option Char} {c : Char} {rest : Text}
    (h : isAsciiLetter c = false) : callMatcher before c rest = (0, none) := by
  have hdrop : dropWord? "oklch(".toList (c :: rest) = none := by
    have hletter : matchesLetter 'o' c = false := by
      by_contra hmatch
      rcases eq_or_isAsciiLetter_of_matchesLetter (Bool.not_eq_false _ ▸ hmatch) (by decide)
        (by decide) with rfl | ⟨-, hc⟩
      · exact absurd h (by decide)
      · rw [h] at hc
        cases hc
    show (if matchesLetter 'o' c = true then _ else none) = none
    rw [hletter]
    rfl
  unfold callMatcher
  rw [hdrop]

/-- What is taken for a call: the name and its bracket, the inside and the closing bracket. -/
theorem exists_of_callMatcher {before : Option Char} {c : Char} {rest body : Text} {n : Nat}
    (h : callMatcher before c rest = (n, some body)) :
    ∃ opening, Spelling "oklch(".toList opening ∧
      c :: rest.take n = opening ++ body ++ [')'] := by
  unfold callMatcher at h
  split at h
  · cases h
  · next inside hdrop =>
    obtain ⟨opening, hopening, htext⟩ := dropWord?_eq_some_iff.mp hdrop
    split at h
    · cases h
    split at h
    · cases h
    · next found after hcut =>
      cases h
      obtain ⟨rfl, -⟩ := cut?_eq_some hcut
      refine ⟨opening, hopening, ?_⟩
      have hlength : opening.length = 6 := hopening.length_eq.symm
      have hsplit : c :: rest = (opening ++ body ++ [')']) ++ after := by
        rw [htext]
        simp
      rw [← List.take_succ_cons, hsplit]
      apply List.take_left'
      rw [List.length_append, List.length_append, hlength]
      rfl

/-- **A call is found whatever follows it.** -/
theorem scan_call {before : Option Char} {opening body : Text}
    (hword : Calc.opensWord before = true) (hopening : Spelling "oklch(".toList opening)
    (hbody : ')' ∉ body) (after : Text) :
    scan callMatcher.step before (opening ++ body ++ ')' :: after) =
      ⟨opening ++ body ++ [')'], some body⟩ :: scan callMatcher.step (some ')') after := by
  have hlength : opening.length = 6 := hopening.length_eq.symm
  refine Matcher.scan_append fun c rest hcons => ?_
  have hdrop : dropWord? "oklch(".toList (c :: rest) = some (body ++ ')' :: after) :=
    dropWord?_eq_some_iff.mpr ⟨opening, hopening, by rw [hcons, List.append_assoc]⟩
  unfold callMatcher
  rw [hdrop]
  simp only [hword, cut?_singleton hbody]
  rw [List.length_append, hlength]
  rfl

end WebTrim.Color
