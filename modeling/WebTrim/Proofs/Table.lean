import Mathlib.Data.List.Induction
import Mathlib.Data.List.Nodup
import WebTrim.Table

/-!
# Pairs with distinct keys, and tables

* `lookup_eq_some_iff_mem` — where keys are distinct, looking a key up finds the pair that is there.
* `Table.names_put`, `Table.mem_names_ofPairs`, `Table.nodup_names_ofPairs` — the names of a table.
-/

set_option autoImplicit false

namespace WebTrim

section Lookup

variable {κ α : Type} [BEq κ] [LawfulBEq κ] {pairs : List (κ × α)} {key : κ} {a : α}

theorem lookup_eq_none_of_not_mem (h : key ∉ pairs.map Prod.fst) : pairs.lookup key = none := by
  rw [List.lookup_eq_none_iff]
  intro pair hpair
  rw [bne_iff_ne]
  rintro rfl
  exact h (List.mem_map_of_mem hpair)

theorem lookup_eq_some_iff_mem (h : (pairs.map Prod.fst).Nodup) :
    pairs.lookup key = some a ↔ (key, a) ∈ pairs := by
  induction pairs with
  | nil => simp
  | cons pair pairs ih =>
    obtain ⟨other, b⟩ := pair
    rw [List.map_cons, List.nodup_cons] at h
    rw [List.lookup_cons, List.mem_cons, ← ih h.2]
    by_cases hkey : key = other
    · subst hkey
      simp [lookup_eq_none_of_not_mem h.1, eq_comm]
    · simp [hkey, beq_false_of_ne hkey]

end Lookup

namespace Table

variable {α : Type}

theorem names_put (table : Table α) (name : Text) (value : α) :
    (table.put name value).names =
      if name ∈ table.names then table.names else table.names ++ [name] := by
  induction table with
  | nil => simp [put, names]
  | cons head rest ih =>
    obtain ⟨n, v⟩ := head
    unfold put
    by_cases hn : n = name
    · subst hn
      simp [names]
    · have hne : name ≠ n := fun h => hn h.symm
      simp only [if_neg hn, names, List.map_cons, List.mem_cons, hne, false_or]
      simp only [names] at ih
      rw [ih]
      by_cases hmem : name ∈ List.map Prod.fst rest <;> simp [hmem]

theorem mem_names_put {table : Table α} {name other : Text} {value : α} :
    other ∈ (table.put name value).names ↔ other = name ∨ other ∈ table.names := by
  rw [names_put]
  split
  · rename_i hn
    exact ⟨.inr, fun h => h.elim (fun h => h ▸ hn) id⟩
  · rw [List.mem_append, List.mem_singleton, or_comm]

theorem nodup_names_put {table : Table α} (h : table.names.Nodup) (name : Text) (value : α) :
    (table.put name value).names.Nodup := by
  rw [names_put]
  split
  · exact h
  · rename_i hnew
    rw [List.nodup_append]
    refine ⟨h, List.nodup_singleton name, fun x hx y hy hxy => ?_⟩
    rw [List.mem_singleton] at hy
    exact hnew (hy ▸ hxy ▸ hx)

/-- The last pair is put last. -/
theorem ofPairs_concat (pairs : List (Text × α)) (pair : Text × α) :
    ofPairs (pairs ++ [pair]) = (ofPairs pairs).put pair.1 pair.2 := by
  simp [ofPairs]

/-- The names of a table are those of the pairs that were put. -/
theorem mem_names_ofPairs {pairs : List (Text × α)} {n : Text} :
    n ∈ (ofPairs pairs).names ↔ n ∈ pairs.map Prod.fst := by
  induction pairs using List.reverseRecOn with
  | nil => rfl
  | append_singleton pairs pair ih =>
    rw [ofPairs_concat, mem_names_put, ih, List.map_append, List.mem_append, List.map_singleton,
      List.mem_singleton, or_comm]

/-- A table has each of its names once. -/
theorem nodup_names_ofPairs (pairs : List (Text × α)) : (ofPairs pairs).names.Nodup := by
  induction pairs using List.reverseRecOn with
  | nil => exact List.nodup_nil
  | append_singleton pairs pair ih =>
    rw [ofPairs_concat]
    exact nodup_names_put ih pair.1 pair.2

end Table

end WebTrim
