import WebTrim.Text.Basic

/-!
# Tables

A table holds a value per name and keeps the names in the order in which they were first put.
-/

set_option autoImplicit false

namespace WebTrim

/-- Values by name, in the order in which the names were first put. -/
abbrev Table (α : Type) := List (Text × α)

namespace Table

variable {α : Type}

/-- Sets the value of a name: in place if the table has the name, else at the end. -/
def put (name : Text) (value : α) : Table α → Table α
  | [] => [(name, value)]
  | (n, v) :: rest => if n = name then (name, value) :: rest else (n, v) :: put name value rest

/-- The value of a name. -/
def get? (table : Table α) (name : Text) : Option α :=
  table.lookup name

/-- The names, in order. -/
def names (table : Table α) : List Text :=
  table.map Prod.fst

/-- The table that results from putting the pairs one after another. -/
def ofPairs (pairs : List (Text × α)) : Table α :=
  pairs.foldl (fun table (name, value) => table.put name value) []

theorem get?_put (table : Table α) (name other : Text) (value : α) :
    (table.put name value).get? other = if other = name then some value else table.get? other := by
  induction table with
  | nil =>
    by_cases h : other = name
    · simp [put, get?, h]
    · simp [put, get?, List.lookup_cons, h, beq_eq_false_iff_ne.mpr h]
  | cons head rest ih =>
    obtain ⟨n, v⟩ := head
    unfold put
    by_cases hn : n = name
    · by_cases h : other = name
      · simp [get?, hn, h]
      · simp [get?, List.lookup_cons, hn, h, beq_eq_false_iff_ne.mpr h]
    · simp only [hn, if_false]
      simp only [get?, List.lookup_cons] at ih ⊢
      by_cases ho : other = n
      · simp [ho, hn]
      · simp [beq_eq_false_iff_ne.mpr ho, ih]

end Table

end WebTrim
