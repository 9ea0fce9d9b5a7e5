import WebTrim.Naming.Rename
import WebTrim.Table

/-!
# Giving out short names

Names are ranked by usage. Each in turn gets the next free short name, provided that the short name
is strictly smaller than the name.

* `rank` — usage descending, then size descending, then code point order.
* `search` — the first free candidate from a given index on, while candidates are small enough.
* `allocate` — the rename map for a list of records.
-/

set_option autoImplicit false

namespace WebTrim.Naming

open Text

/-- What is known of a name that may be renamed. A reserved name keeps its spelling. -/
structure Candidate where
  name : Text
  usage : Int := 0
  reserved : Bool := false
  deriving DecidableEq, Repr

/-- Does `a` rank before `b`, or share its rank? More used names come first, then larger names, then
code point order. -/
def ranksBefore (usage : Text → Int) (a b : Text) : Bool :=
  if usage a ≠ usage b then usage a > usage b
  else if byteLength a ≠ byteLength b then byteLength a > byteLength b
  else Text.le a b

/-- The names in order of rank. -/
def rank (usage : Text → Int) (names : List Text) : List Text :=
  names.mergeSort (ranksBefore usage)

/-- The candidate at an index: a fixed beginning and a short name. -/
def candidate (a : Alphabet) (lead : Text) (i : Nat) : Text :=
  lead ++ a.shortName i

theorem length_le_byteLength (t : Text) : t.length ≤ byteLength t := by
  induction t with
  | nil => simp
  | cons c t ih =>
    have := Char.utf8Size_pos c
    simp only [List.length_cons, byteLength_cons]
    omega

theorem le_byteLength_candidate (a : Alphabet) (lead : Text) (limit i : Nat)
    (h : a.nameCount limit ≤ i) : limit ≤ byteLength (candidate a lead i) := by
  have h₁ := a.lt_length_shortName limit i h
  have h₂ := length_le_byteLength (a.shortName i)
  simp only [candidate, byteLength_append]
  omega

/-- The first free candidate from `index` on, with the index after it, as long as candidates are
smaller than `limit` bytes. When none is left the index stays at the candidate that was too large.
-/
def search (a : Alphabet) (lead : Text) (taken : List Text) (limit index : Nat) :
    Option Text × Nat :=
  if limit ≤ byteLength (candidate a lead index) then (none, index)
  else if candidate a lead index ∈ taken then search a lead taken limit (index + 1)
  else (some (candidate a lead index), index + 1)
termination_by a.nameCount limit - index
decreasing_by
  rename_i h _
  have : ¬ a.nameCount limit ≤ index := fun hle => h (le_byteLength_candidate a lead limit index hle)
  omega

/-- Names that are taken, the index to go on from, and the pairs given out so far. -/
structure Allocation where
  taken : List Text
  index : Nat := 0
  entries : List (Text × Text) := []

/-- Gives the next free short name to `name`, if one is small enough. -/
def Allocation.give (a : Alphabet) (lead : Text) (s : Allocation) (name : Text) : Allocation :=
  match search a lead s.taken (byteLength name) s.index with
  | (some short, index) => ⟨short :: s.taken, index, s.entries ++ [(name, short)]⟩
  | (none, index) => { s with index }

/-- Usage by name of the records that are not reserved. The last record of a name counts. -/
def eligible (records : List Candidate) : Table Int :=
  Table.ofPairs ((records.filter fun r => !r.reserved).map fun r => (r.name, r.usage))

/-- The eligible names in the order in which they are served. -/
def ranked (records : List Candidate) : List Text :=
  let table := eligible records
  rank (fun name => (table.get? name).getD 0) table.names

/-- The rename map for the records. Short names avoid the reserved names and every record's name. -/
def allocate (a : Alphabet) (lead : Text) (records : List Candidate) (reserved : List Text) :
    RenameMap :=
  let start : Allocation := { taken := reserved ++ records.map Candidate.name }
  ⟨((ranked records).foldl (Allocation.give a lead) start).entries⟩

/-- The rename map over arbitrary letters, which must not be empty if any name is eligible. -/
def allocateOver (letters lead : Text) (records : List Candidate) (reserved : List Text) :
    Except NamingError RenameMap :=
  match Alphabet.ofLetters? letters with
  | some a => .ok (allocate a lead records reserved)
  | none => if (eligible records).isEmpty then .ok {} else .error .emptyAlphabet

end WebTrim.Naming
