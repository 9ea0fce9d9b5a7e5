import Mathlib.Data.List.Forall2
import Mathlib.Logic.Function.Basic
import WebTrim.Failure

/-!
# Computations that may fail

When a computation made of others has a result.
-/

set_option autoImplicit false

namespace WebTrim

/-- A computation has a result if its parts have. -/
theorem exists_of_bind_eq_ok {ε α β : Type} {x : Except ε α} {f : α → Except ε β} {b : β}
    (h : x >>= f = .ok b) : ∃ a, x = .ok a ∧ f a = .ok b := by
  cases x with
  | error e => cases h
  | ok a => exact ⟨a, rfl, h⟩

theorem exists_of_map_eq_ok {ε α β : Type} {x : Except ε α} {f : α → β} {b : β}
    (h : x.map f = .ok b) : ∃ a, x = .ok a ∧ f a = b := by
  cases x with
  | error e => cases h
  | ok a =>
    cases h
    exact ⟨a, rfl, rfl⟩

theorem map_eq_ok_iff {ε α β : Type} {x : Except ε α} {f : α → β} (hf : Function.Injective f)
    {a : α} : x.map f = .ok (f a) ↔ x = .ok a := by
  constructor
  · intro h
    obtain ⟨b, rfl, hb⟩ := exists_of_map_eq_ok h
    rw [hf hb]
  · rintro rfl
    rfl

/-- The results of a computation on each member of a list, one for each. -/
theorem forall₂_of_mapM_eq_ok {ε α β : Type} {f : α → Except ε β} {xs : List α} {ys : List β}
    (h : xs.mapM f = .ok ys) : List.Forall₂ (fun x y => f x = .ok y) xs ys := by
  induction xs generalizing ys with
  | nil =>
    cases h
    exact .nil
  | cons x xs ih =>
    rw [List.mapM_cons] at h
    obtain ⟨y, hy, h⟩ := exists_of_bind_eq_ok h
    obtain ⟨ys', hys, h⟩ := exists_of_bind_eq_ok h
    cases h
    exact .cons hy (ih hys)

end WebTrim
