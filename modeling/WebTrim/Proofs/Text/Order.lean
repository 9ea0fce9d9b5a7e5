import Mathlib.Data.Char
import Mathlib.Data.List.Lex
import Mathlib.Order.Lattice
import WebTrim.Text.Basic

/-!
# Sorting by a key

Texts are ordered by code points, which is the lexicographic order of lists. A list that is sorted by
a key is determined by its members wherever the key tells them apart; members with equal keys keep
the order they had.

* `Text.le_iff` — the order of texts is a linear order.
* `Sorting.mergeSort_eq_of_perm` — **the order before the sort does not show**, if keys differ.
* `Sorting.pair_sublist_of_mergeSort` — members with equal keys keep their order.
* `Text.sorted_eq` — texts in order with the members of a list are that list, sorted.
* `Text.mem_sorted_distinct` — sorting without repetitions keeps the members.
-/

set_option autoImplicit false

namespace WebTrim

variable {α κ : Type} [LinearOrder κ]

/-! ## Lexicographic order -/

theorem nil_le (t : List κ) : [] ≤ t := by
  cases t with
  | nil => exact le_refl []
  | cons y t => exact le_of_lt (List.nil_lt_cons y t)

theorem cons_le_cons_iff {x y : κ} {s t : List κ} :
    x :: s ≤ y :: t ↔ x < y ∨ x = y ∧ s ≤ t := by
  rw [le_iff_lt_or_eq, le_iff_lt_or_eq, List.cons_lt_cons_iff, List.cons.injEq]
  tauto

theorem Text.le_iff (s t : Text) : Text.le s t = true ↔ s ≤ t := by
  induction s generalizing t with
  | nil => simp [Text.le, nil_le]
  | cons a s ih =>
    cases t with
    | nil => simp [Text.le]
    | cons b t =>
      rw [Text.le, cons_le_cons_iff]
      by_cases hab : a = b
      · simp [hab, ih]
      · simp only [hab, if_false, false_and, or_false, decide_eq_true_eq]
        rfl

/-! ## Sorted lists -/

namespace Sorting

variable {key : α → κ} {le : α → α → Bool} {l l' : List α} {a b : α}

theorem trans_of_key (hle : ∀ a b, le a b = true ↔ key a ≤ key b) :
    ∀ a b c, le a b = true → le b c = true → le a c = true := by
  intro a b c hab hbc
  rw [hle] at hab hbc ⊢
  exact hab.trans hbc

theorem total_of_key (hle : ∀ a b, le a b = true ↔ key a ≤ key b) :
    ∀ a b, (le a b || le b a) = true := by
  intro a b
  rw [Bool.or_eq_true, hle, hle]
  exact le_total (key a) (key b)

theorem pairwise_mergeSort (hle : ∀ a b, le a b = true ↔ key a ≤ key b) (l : List α) :
    (l.mergeSort le).Pairwise fun a b => key a ≤ key b :=
  (List.pairwise_mergeSort (trans_of_key hle) (total_of_key hle) l).imp
    fun {a b} h => (hle a b).mp h

/-- The order before the sort does not show if no two members have the same key. -/
theorem mergeSort_eq_of_perm (hle : ∀ a b, le a b = true ↔ key a ≤ key b) (h : l.Perm l')
    (hinj : ∀ a ∈ l, ∀ b ∈ l, key a = key b → a = b) : l.mergeSort le = l'.mergeSort le := by
  refine List.Perm.eq_of_pairwise ?_ (pairwise_mergeSort hle l) (pairwise_mergeSort hle l') ?_
  · intro a b ha hb hab hba
    rw [List.mem_mergeSort] at ha hb
    exact hinj a ha b (h.mem_iff.mpr hb) (le_antisymm hab hba)
  · exact (List.mergeSort_perm l le).trans (h.trans (List.mergeSort_perm l' le).symm)

/-- Members with equal keys keep the order they had before the sort. -/
theorem pair_sublist_of_mergeSort (hle : ∀ a b, le a b = true ↔ key a ≤ key b)
    (hab : key a = key b) (h : [a, b].Sublist (l.mergeSort le)) : [a, b].Sublist l := by
  -- the members with this key form a sorted part of the list, so the sort leaves them as they are
  let same : α → Bool := fun c => decide (key c = key b)
  have hties : (l.filter same).Pairwise fun a b => le a b = true := by
    refine List.pairwise_of_forall_mem_list fun c hc d hd => ?_
    have hc' : key c = key b := of_decide_eq_true (List.mem_filter.mp hc).2
    have hd' : key d = key b := of_decide_eq_true (List.mem_filter.mp hd).2
    rw [hle, hc', hd']
  have hkept : (l.filter same).Sublist (l.mergeSort le) :=
    List.sublist_mergeSort (trans_of_key hle) (total_of_key hle) hties List.filter_sublist
  have heq : l.filter same = (l.mergeSort le).filter same := by
    apply List.Sublist.eq_of_length
    · simpa using hkept.filter same
    · exact ((List.mergeSort_perm l le).filter same).length_eq.symm
  have hpair : [a, b].Sublist ((l.mergeSort le).filter same) := by
    simpa [same, hab] using h.filter same
  rw [← heq] at hpair
  exact hpair.trans List.filter_sublist

end Sorting

/-! ## Sets of texts -/

namespace Text

theorem mem_foldl_distinct {x : Text} (names : List Text) :
    ∀ seen : List Text,
      x ∈ names.foldl (fun seen x => if seen.contains x then seen else x :: seen) seen ↔
        x ∈ seen ∨ x ∈ names := by
  induction names with
  | nil => simp
  | cons name names ih =>
    intro seen
    rw [List.foldl_cons, ih, List.mem_cons]
    split
    · rename_i hseen
      rw [List.contains_iff_mem] at hseen
      constructor
      · rintro (h | h)
        · exact .inl h
        · exact .inr (.inr h)
      · rintro (h | rfl | h)
        · exact .inl h
        · exact .inl hseen
        · exact .inr h
    · rw [List.mem_cons, or_comm (a := x = name), or_assoc]

theorem sorted_eq {names ordered : List Text} (h : names.Perm ordered)
    (hordered : ordered.Pairwise fun s t => le s t = true) : sorted names = ordered := by
  rw [sorted, Sorting.mergeSort_eq_of_perm le_iff h fun _ _ _ _ hst => hst,
    List.mergeSort_of_pairwise hordered]

/-- A sorted list without repetitions has the members of the list. -/
theorem mem_sorted_distinct {names : List Text} {x : Text} :
    x ∈ sorted (distinct names) ↔ x ∈ names := by
  unfold sorted distinct
  rw [List.mem_mergeSort, List.mem_reverse, mem_foldl_distinct]
  simp

end Text

end WebTrim
