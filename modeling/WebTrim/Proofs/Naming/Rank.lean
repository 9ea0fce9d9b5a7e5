import Mathlib.Data.Prod.Lex
import WebTrim.Proofs.Naming.Allocation
import WebTrim.Proofs.Text.Order

/-!
# The ranking of names

Names are served in order of rank: more used names first, then larger ones, then code point order.
The rank of a name is a key in a linear order, so the ranking of distinct names does not depend on the
order in which they are given.

* `usageOf` — how often a name is used, according to the records.
* `Outranks` — one name ranks before another; `outranks_iff` gives the key it compares.
* `pairwise_ranked` — **the names of the records, each ranking before those after it**.
* `ranked_perm` — **the order of the records does not show**, if their names are distinct.
-/

set_option autoImplicit false

namespace WebTrim.Naming

open Text

/-! ## The order of ranks -/

/-- `x` ranks before `y`: it is used more often, or as often and is larger, or is also as large and
comes first in code point order. -/
def Outranks (usage : Text → Int) (x y : Text) : Prop :=
  usage y < usage x ∨
    usage x = usage y ∧ (byteLength y < byteLength x ∨ byteLength x = byteLength y ∧ x < y)

/-- The place of a name in the ranking; the smallest comes first. -/
def rankKey (usage : Text → Int) (name : Text) : Int ×ₗ Int ×ₗ Text :=
  toLex (-usage name, toLex (-(byteLength name : Int), name))

section Order

variable (usage : Text → Int) (x y : Text)

theorem outranks_iff : Outranks usage x y ↔ rankKey usage x < rankKey usage y := by
  simp only [Outranks, rankKey, Prod.Lex.toLex_lt_toLex, Int.neg_lt_neg_iff, Int.neg_inj,
    Int.ofNat_lt, Int.ofNat_inj]

theorem ranksBefore_iff : ranksBefore usage x y = true ↔ rankKey usage x ≤ rankKey usage y := by
  simp only [rankKey, Prod.Lex.toLex_le_toLex, Int.neg_lt_neg_iff, Int.neg_inj, Int.ofNat_lt,
    Int.ofNat_inj, ← Text.le_iff]
  unfold ranksBefore
  by_cases husage : usage x = usage y
  · by_cases hsize : byteLength x = byteLength y
    · simp [husage, hsize]
    · simp [husage, hsize]
  · simp [husage]

/-- A name is part of its key. -/
theorem rankKey_injective : Function.Injective (rankKey usage) := by
  intro x y h
  have hkeys := toLex_inj.mp h
  exact (Prod.ext_iff.mp (toLex_inj.mp (Prod.ext_iff.mp hkeys).2)).2

end Order

theorem Outranks.asymm {usage : Text → Int} {x y : Text} (h : Outranks usage x y) :
    ¬ Outranks usage y x := by
  rw [outranks_iff] at h ⊢
  exact lt_asymm h

/-- A ranking lists distinct names in strictly falling rank. -/
theorem pairwise_rank (usage : Text → Int) {names : List Text} (hnames : names.Nodup) :
    (rank usage names).Pairwise (Outranks usage) := by
  have hsorted := Sorting.pairwise_mergeSort (ranksBefore_iff usage) names
  have hdistinct : (rank usage names).Nodup := (List.mergeSort_perm _ _).nodup_iff.mpr hnames
  refine hsorted.imp₂ (fun x y hle hne => ?_) hdistinct
  rw [outranks_iff]
  exact lt_of_le_of_ne hle fun heq => hne (rankKey_injective usage heq)

/-! ## The ranking of records -/

/-- Does the record ask for a short name for `name`? -/
def Candidate.asksFor (name : Text) (r : Candidate) : Bool :=
  !r.reserved && r.name == name

/-- How often a name is used: what the last record of the name says, reserved ones apart. -/
def usageOf (records : List Candidate) (name : Text) : Int :=
  ((records.filter (Candidate.asksFor name)).getLast?.map Candidate.usage).getD 0

/-- A record that comes last is put last, unless it is reserved. -/
theorem eligible_concat (records : List Candidate) (r : Candidate) :
    eligible (records ++ [r]) =
      if r.reserved then eligible records else (eligible records).put r.name r.usage := by
  unfold eligible
  cases hr : r.reserved with
  | true => simp [hr]
  | false => simp [hr, Table.ofPairs_concat]

theorem get?_eligible (records : List Candidate) (name : Text) :
    ((eligible records).get? name).getD 0 = usageOf records name := by
  unfold usageOf
  induction records using List.reverseRecOn with
  | nil => rfl
  | append_singleton records r ih =>
    rw [eligible_concat, List.filter_append]
    cases hr : r.reserved with
    | true => simpa [hr, Candidate.asksFor] using ih
    | false =>
      by_cases hname : r.name = name
      · simp [hr, hname, Candidate.asksFor, Table.get?_put]
      · have hother : name ≠ r.name := fun h => hname h.symm
        simpa [hr, hname, hother, Candidate.asksFor, Table.get?_put] using ih

theorem nodup_names_eligible (records : List Candidate) : (eligible records).names.Nodup :=
  Table.nodup_names_ofPairs _

theorem ranked_eq (records : List Candidate) :
    ranked records = rank (usageOf records) (eligible records).names := by
  unfold ranked
  exact congrArg (rank · _) (funext (get?_eligible records))

/-- **Each name that is served ranks before those served after it.** -/
theorem pairwise_ranked (records : List Candidate) :
    (ranked records).Pairwise (Outranks (usageOf records)) := by
  rw [ranked_eq]
  exact pairwise_rank _ (nodup_names_eligible records)

theorem nodup_ranked (records : List Candidate) : (ranked records).Nodup := by
  refine (pairwise_ranked records).imp fun {x y} h heq => ?_
  subst heq
  exact h.asymm h

/-! ## The order of the records -/

section Order

variable {records records' : List Candidate}

/-- With distinct names, at most one record asks for a given name. -/
theorem length_filter_asksFor_le (hnames : (records.map Candidate.name).Nodup) (name : Text) :
    (records.filter (Candidate.asksFor name)).length ≤ 1 := by
  have hsame : (records.filter (Candidate.asksFor name)).map Candidate.name =
      List.replicate (records.filter (Candidate.asksFor name)).length name := by
    rw [List.eq_replicate_iff]
    refine ⟨List.length_map _, fun n hn => ?_⟩
    obtain ⟨r, hr, rfl⟩ := List.mem_map.mp hn
    have hasks := (List.mem_filter.mp hr).2
    simp only [Candidate.asksFor, Bool.and_eq_true, beq_iff_eq] at hasks
    exact hasks.2
  have hdistinct : ((records.filter (Candidate.asksFor name)).map Candidate.name).Nodup :=
    (List.filter_sublist.map _).nodup hnames
  rw [hsame] at hdistinct
  exact List.nodup_replicate.mp hdistinct

theorem usageOf_perm (hnames : (records.map Candidate.name).Nodup) (h : records'.Perm records) :
    usageOf records' = usageOf records := by
  funext name
  have hfilter := h.filter (Candidate.asksFor name)
  have hlength := length_filter_asksFor_le hnames name
  unfold usageOf
  generalize records.filter (Candidate.asksFor name) = found at hfilter hlength ⊢
  rcases found with _ | ⟨r, _ | ⟨r', found⟩⟩
  · rw [hfilter.eq_nil]
  · rw [hfilter.eq_singleton]
  · simp at hlength

/-- **The order of the records does not show**, if their names are distinct. -/
theorem ranked_perm (hnames : (records.map Candidate.name).Nodup) (h : records'.Perm records) :
    ranked records' = ranked records := by
  have hnames' : (eligible records').names.Perm (eligible records).names := by
    rw [List.perm_ext_iff_of_nodup (nodup_names_eligible _) (nodup_names_eligible _)]
    intro name
    unfold eligible
    rw [Table.mem_names_ofPairs, Table.mem_names_ofPairs]
    exact (((h.filter _).map _).map _).mem_iff
  rw [ranked_eq, ranked_eq, usageOf_perm hnames h]
  exact Sorting.mergeSort_eq_of_perm (ranksBefore_iff _) hnames'
    fun x _ y _ hkey => rankKey_injective _ hkey

end Order

end WebTrim.Naming
