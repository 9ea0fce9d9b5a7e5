import WebTrim.Gate
import WebTrim.Proofs.Text.Scan

/-!
# Texts that stay or get smaller

A step that never makes a text larger, and that changes it only if it makes it strictly smaller,
always passes the size gate.

* `ShrinksTo` — the text itself or a strictly smaller one; closed under composition (`trans`) and
  piece by piece (`piecewise`).
* `forall_mem_scan_of` — what holds of every piece, given what every place of the scan keeps.
* `Gate.pass_of_shrinks` — **such a step passes the gate whole**.
-/

set_option autoImplicit false

namespace WebTrim

namespace Text

/-- The text itself, or a strictly smaller one. -/
def ShrinksTo (t u : Text) : Prop :=
  u = t ∨ byteLength u < byteLength t

namespace ShrinksTo

variable {s t u v : Text}

theorem refl (t : Text) : ShrinksTo t t :=
  .inl rfl

theorem of_lt (h : byteLength u < byteLength t) : ShrinksTo t u :=
  .inr h

theorem byteLength_le (h : ShrinksTo t u) : byteLength u ≤ byteLength t := by
  rcases h with rfl | h
  · exact Nat.le_refl _
  · exact Nat.le_of_lt h

theorem trans (h : ShrinksTo t u) (h' : ShrinksTo u v) : ShrinksTo t v := by
  rcases h with rfl | h
  · exact h'
  · exact .inr (Nat.lt_of_le_of_lt h'.byteLength_le h)

theorem append (h : ShrinksTo s t) (h' : ShrinksTo u v) : ShrinksTo (s ++ u) (t ++ v) := by
  have hle := h.byteLength_le
  have hle' := h'.byteLength_le
  rcases h with rfl | h
  · rcases h' with rfl | h'
    · exact .refl _
    · right
      simpa using h'
  · right
    simp only [byteLength_append]
    omega

theorem piecewise : Piecewise ShrinksTo :=
  ⟨refl, append⟩

end ShrinksTo

/-! ## Scanning -/

variable {σ β α : Type}

/-- What holds of the piece at every place that satisfies an invariant holds of all pieces of a text
that satisfies it, if the scan keeps the invariant. -/
theorem forall_mem_scan_of {step : σ → Char → Text → Step σ β} (Inv : Text → Prop)
    {P : Piece β → Prop}
    (hnext : ∀ s c rest, Inv (c :: rest) → Inv (rest.drop (step s c rest).extra))
    (hpiece : ∀ s c rest, Inv (c :: rest) →
      P ⟨c :: rest.take (step s c rest).extra, (step s c rest).note⟩)
    (s : σ) (t : Text) (h : Inv t) : ∀ p ∈ scan step s t, P p := by
  fun_induction scan step s t with
  | case1 => simp
  | case2 s c rest st ih =>
    intro p hp
    rcases List.mem_cons.mp hp with rfl | hp
    · exact hpiece s c rest h
    · exact ih (hnext s c rest h) p hp

/-- Taking all but the text after a find takes the find. -/
theorem cons_take_of_append {c : Char} {rest body after : Text} (hne : body ≠ [])
    (h : c :: rest = body ++ after) : c :: rest.take (rest.length - after.length) = body := by
  obtain ⟨d, more, rfl⟩ := List.exists_cons_of_ne_nil hne
  rw [List.cons_append, List.cons.injEq] at h
  obtain ⟨rfl, rfl⟩ := h
  rw [List.length_append, Nat.add_sub_cancel, List.take_left]

/-- A matcher for one pattern takes the text that the pattern matched. -/
theorem Matcher.piece_of_ofPattern
    {pattern : Option Char → Char → Text → Option (Nat × α)} {t : Text} {P : Text → α → Prop}
    (h : ∀ before c rest n found, pattern before c rest = some (n, found) →
      P (c :: rest.take n) found) :
    ∀ p ∈ (Matcher.ofPattern pattern).pieces t, ∀ found, p.note = some found → P p.text found := by
  refine forall_mem_scan (fun before c rest _ found hfound => ?_) none
  simp only [Matcher.step, Matcher.ofPattern] at hfound ⊢
  cases hpattern : pattern before c rest with
  | none => simp [hpattern] at hfound
  | some pair =>
    obtain ⟨n, a⟩ := pair
    simp only [hpattern, Option.some.injEq] at hfound ⊢
    exact h before c rest n found (hfound ▸ hpattern)

end Text

/-- **A step that leaves the text or makes it strictly smaller passes the gate whole.** -/
theorem Gate.pass_of_shrinks {step : Text → Text} {t : Text} (h : Text.ShrinksTo t (step t)) :
    Gate.pass step t = step t := by
  unfold Gate.pass Gate.smaller
  split
  · rfl
  · rename_i hsmaller
    exact (h.resolve_right hsmaller).symm

end WebTrim
