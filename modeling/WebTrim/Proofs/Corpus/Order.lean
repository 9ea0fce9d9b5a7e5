import WebTrim.Corpus.Allocation
import WebTrim.Proofs.Corpus.Safety
import WebTrim.Proofs.Text.Order

/-!
# The harvest does not depend on the order of the files

Findings add up by concatenation, and all that a harvest takes from them is how often each name
occurs where. So neither the order of the files nor their paths show in it.

* `Findings.Alike` — the same occurrences in another order; concatenation respects it.
* `Harvest.ofFindings_congr` — alike findings have one harvest.
* `Harvest.combine_toOption` — **the harvest of a corpus is that of its findings in any order**, and it
  is missing exactly if some literal holds a name that cannot be decoded.
-/

set_option autoImplicit false

namespace WebTrim

open Text

/-! ## Sets of names -/

theorem nodup_foldl_distinct (names : List Text) :
    ∀ seen : List Text, seen.Nodup →
      (names.foldl (fun seen x => if seen.contains x then seen else x :: seen) seen).Nodup := by
  induction names with
  | nil => exact fun _ h => h
  | cons name names ih =>
    intro seen hseen
    rw [List.foldl_cons]
    apply ih
    split
    · exact hseen
    · rename_i hnew
      rw [List.contains_iff_mem] at hnew
      exact List.nodup_cons.mpr ⟨hnew, hseen⟩

theorem nodup_nameSet (names : List Text) : (nameSet names).Nodup := by
  unfold nameSet sorted distinct
  rw [(List.mergeSort_perm _ _).nodup_iff, List.nodup_reverse]
  exact nodup_foldl_distinct names [] List.nodup_nil

/-- A set of names is determined by its members. -/
theorem nameSet_congr {names names' : List Text} (h : ∀ x, x ∈ names ↔ x ∈ names') :
    nameSet names = nameSet names' := by
  have hperm : (nameSet names).Perm (nameSet names') := by
    rw [List.perm_ext_iff_of_nodup (nodup_nameSet names) (nodup_nameSet names')]
    intro x
    rw [mem_nameSet, mem_nameSet, h]
  refine List.Perm.eq_of_pairwise ?_ (Sorting.pairwise_mergeSort Text.le_iff _)
    (Sorting.pairwise_mergeSort Text.le_iff _) hperm
  intro a b _ _ hab hba
  exact le_antisymm hab hba

theorem nameSet_perm {names names' : List Text} (h : names.Perm names') :
    nameSet names = nameSet names' :=
  nameSet_congr fun _ => h.mem_iff

theorem contains_perm {names names' : List Text} (h : names.Perm names') :
    names.contains = names'.contains := by
  funext x
  rw [Bool.eq_iff_iff, List.contains_iff_mem, List.contains_iff_mem, h.mem_iff]

/-! ## The same occurrences in another order -/

/-- The same places in another order. -/
structure NameFindings.Alike (a b : NameFindings) : Prop where
  declared : a.declared.Perm b.declared
  spellings : a.spellings.Perm b.spellings
  uses : a.uses.Perm b.uses
  pinned : a.pinned.Perm b.pinned
  patterns : a.patterns.Perm b.patterns

namespace NameFindings.Alike

variable {a b c d : NameFindings}

theorem refl (a : NameFindings) : a.Alike a :=
  ⟨.refl _, .refl _, .refl _, .refl _, .refl _⟩

theorem trans (h : a.Alike b) (h' : b.Alike c) : a.Alike c :=
  ⟨h.declared.trans h'.declared, h.spellings.trans h'.spellings, h.uses.trans h'.uses,
    h.pinned.trans h'.pinned, h.patterns.trans h'.patterns⟩

theorem append (h : a.Alike b) (h' : c.Alike d) : (a.append c).Alike (b.append d) :=
  ⟨h.declared.append h'.declared, h.spellings.append h'.spellings, h.uses.append h'.uses,
    h.pinned.append h'.pinned, h.patterns.append h'.patterns⟩

theorem append_left_comm (a b c : NameFindings) :
    (a.append (b.append c)).Alike (b.append (a.append c)) :=
  ⟨List.perm_append_comm_assoc .., List.perm_append_comm_assoc .., List.perm_append_comm_assoc ..,
    List.perm_append_comm_assoc .., List.perm_append_comm_assoc ..⟩

end NameFindings.Alike

/-- The same findings in another order. -/
structure Findings.Alike (a b : Findings) : Prop where
  classes : a.classes.Alike b.classes
  ids : a.ids.Alike b.ids
  literals : a.literals.Perm b.literals
  properties : a.properties.Perm b.properties
  allProperties : a.allProperties.Perm b.allProperties
  scopeIds : a.scopeIds.Perm b.scopeIds

namespace Findings

theorem Alike.refl (a : Findings) : a.Alike a :=
  ⟨.refl _, .refl _, .refl _, .refl _, .refl _, .refl _⟩

theorem Alike.trans {a b c : Findings} (h : a.Alike b) (h' : b.Alike c) : a.Alike c :=
  ⟨h.classes.trans h'.classes, h.ids.trans h'.ids, h.literals.trans h'.literals,
    h.properties.trans h'.properties, h.allProperties.trans h'.allProperties,
    h.scopeIds.trans h'.scopeIds⟩

theorem Alike.append {a b c d : Findings} (h : a.Alike b) (h' : c.Alike d) :
    (a.append c).Alike (b.append d) :=
  ⟨h.classes.append h'.classes, h.ids.append h'.ids, h.literals.append h'.literals,
    h.properties.append h'.properties, h.allProperties.append h'.allProperties,
    h.scopeIds.append h'.scopeIds⟩

theorem Alike.append_left_comm (a b c : Findings) :
    (a.append (b.append c)).Alike (b.append (a.append c)) :=
  ⟨.append_left_comm .., .append_left_comm .., List.perm_append_comm_assoc ..,
    List.perm_append_comm_assoc .., List.perm_append_comm_assoc .., List.perm_append_comm_assoc ..⟩

/-- The order of the parts is only the order of the findings. -/
theorem concat_alike {parts parts' : List Findings} (h : parts.Perm parts') :
    (concat parts).Alike (concat parts') := by
  induction h with
  | nil => exact .refl _
  | cons part _ ih => exact (Alike.refl part).append ih
  | swap part other parts => exact .append_left_comm other part (concat parts)
  | trans _ _ ih ih' => exact ih.trans ih'

end Findings

/-! ## Inventories -/

theorem Inventory.ofNames_congr {a b : NameFindings} {shares shares' : List Share}
    (h : a.Alike b) (hshares : shares.Perm shares') :
    Inventory.ofNames a shares = Inventory.ofNames b shares' := by
  have hused : (a.uses.filter a.declared.contains ++ shares.flatMap (·.used)).Perm
      (b.uses.filter b.declared.contains ++ shares'.flatMap (·.used)) := by
    rw [contains_perm h.declared]
    exact (h.uses.filter _).append (hshares.flatMap_right _)
  have hpinned : (a.pinned ++ shares.flatMap (·.pinned)).Perm
      (b.pinned ++ shares'.flatMap (·.pinned)) :=
    h.pinned.append (hshares.flatMap_right _)
  have hspellings : ∀ name,
      nameSet ((a.spellings.filter (·.1 = name)).map (·.2)) =
        nameSet ((b.spellings.filter (·.1 = name)).map (·.2)) :=
    fun name => nameSet_perm ((h.spellings.filter _).map _)
  have hpatterns : ∀ name,
      a.patterns.any (occursIn · name) = b.patterns.any (occursIn · name) :=
    fun name => h.patterns.any_eq
  have hreserved := nameSet_perm
    (((h.declared.append h.uses).append hpinned).append (hshares.flatMap_right (·.reserved)))
  simp only [Inventory.ofNames, Inventory.mk.injEq]
  refine ⟨?_, hreserved⟩
  rw [nameSet_perm h.declared]
  apply List.map_congr_left
  intro name _
  rw [hspellings, hpatterns, contains_perm hused, contains_perm hpinned, hused.count_eq,
    h.declared.count_eq]

theorem Inventory.ofOccurrences_congr (wanted : Text → Bool) {names names' others others' : List Text}
    (h : names.Perm names') (hothers : others.Perm others') :
    Inventory.ofOccurrences wanted names others = Inventory.ofOccurrences wanted names' others' := by
  simp only [Inventory.ofOccurrences, Inventory.mk.injEq]
  refine ⟨?_, nameSet_perm (h.append hothers)⟩
  rw [nameSet_perm h]
  apply List.map_congr_left
  intro name _
  rw [h.count_eq]

/-! ## The corpus -/

theorem Harvest.ofFindings_congr (decode : Text → Text) (minLength : Nat) {a b : Findings}
    (h : a.Alike b) : Harvest.ofFindings decode minLength a = Harvest.ofFindings decode minLength b := by
  simp only [Harvest.ofFindings, Harvest.mk.injEq]
  rw [contains_perm h.classes.declared, contains_perm h.ids.declared]
  exact ⟨Inventory.ofOccurrences_congr _ h.properties h.allProperties,
    Inventory.ofNames_congr h.classes ((h.literals.map _).map _),
    Inventory.ofNames_congr h.ids ((h.literals.map _).map _),
    Inventory.ofOccurrences_congr _ h.scopeIds (.refl [])⟩

theorem Harvest.ofScans_congr (decode : Text → Text) (minLength : Nat) {scans scans' : List FileScan}
    (h : (scans.map (·.findings)).Perm (scans'.map (·.findings))) :
    Harvest.ofScans decode minLength scans = Harvest.ofScans decode minLength scans' :=
  Harvest.ofFindings_congr decode minLength (Findings.concat_alike h)

/-- Some literal of the files holds a name that cannot be decoded. -/
def undecodable (refusal? : Text → Option Crash) (scans : List FileScan) : Bool :=
  scans.any fun scan => scan.encodedNames.any fun name => (refusal? name).isSome

theorem undecodable_congr (refusal? : Text → Option Crash) {scans scans' : List FileScan}
    (h : (scans.map (·.findings)).Perm (scans'.map (·.findings))) :
    undecodable refusal? scans = undecodable refusal? scans' := by
  have hparts : ∀ scans : List FileScan, undecodable refusal? scans =
      (scans.map (·.findings)).any fun findings =>
        (findings.literals.flatMap (Markup.encodedNames true true)).any
          fun name => (refusal? name).isSome := by
    intro scans
    rw [List.any_map]
    rfl
  rw [hparts, hparts, h.any_eq]

theorem Markup.requireDecodable_cases (refusal? : Text → Option Crash) (texts : List Text) :
    ((texts.any fun t => (refusal? t).isSome) = true ∧
      ∃ crash, Markup.requireDecodable refusal? texts = .error crash) ∨
    ((texts.any fun t => (refusal? t).isSome) = false ∧
      Markup.requireDecodable refusal? texts = .ok ()) := by
  unfold Markup.requireDecodable
  cases hfirst : texts.findSome? refusal? with
  | some crash =>
    obtain ⟨t, ht, hrefused⟩ := List.exists_of_findSome?_eq_some hfirst
    exact .inl ⟨List.any_eq_true.mpr ⟨t, ht, by rw [hrefused]; rfl⟩, crash, rfl⟩
  | none =>
    rw [List.findSome?_eq_none_iff] at hfirst
    refine .inr ⟨?_, rfl⟩
    rw [List.any_eq_false]
    intro t ht
    rw [hfirst t ht]
    exact Bool.false_ne_true

theorem toOption_eq_some_iff {ε α : Type} {result : Except ε α} {a : α} :
    result.toOption = some a ↔ result = .ok a := by
  cases result <;> simp [Except.toOption]

/-- The harvest of a corpus, in whatever order its files are listed. -/
theorem Harvest.combine_toOption (decode : Text → Text) (refusal? : Text → Option Crash)
    (minLength : Nat) (scans : List FileScan) :
    (Harvest.combine decode refusal? minLength scans).toOption =
      if undecodable refusal? scans then none else some (Harvest.ofScans decode minLength scans) := by
  have hperm := (List.mergeSort_perm scans fun a b => Text.le a.path b.path).map (·.findings)
  rw [← undecodable_congr refusal? hperm, ← Harvest.ofScans_congr decode minLength hperm]
  generalize hordered : scans.mergeSort (fun a b => Text.le a.path b.path) = ordered
  have hany : undecodable refusal? ordered =
      (ordered.flatMap FileScan.encodedNames).any fun name => (refusal? name).isSome := by
    rw [List.any_flatMap]
    rfl
  unfold Harvest.combine
  simp only [hordered, hany]
  rcases Markup.requireDecodable_cases refusal? (ordered.flatMap FileScan.encodedNames) with
    ⟨hrefused, crash, hrequire⟩ | ⟨hdecoded, hrequire⟩
  · rw [hrefused, hrequire]
    rfl
  · rw [hdecoded, hrequire]
    rfl

/-- A harvest that comes about is that of the scans as they are listed. -/
theorem Harvest.combine_eq_ok_iff {decode : Text → Text} {refusal? : Text → Option Crash}
    {minLength : Nat} {scans : List FileScan} {harvest : Harvest} :
    Harvest.combine decode refusal? minLength scans = .ok harvest ↔
      undecodable refusal? scans = false ∧ Harvest.ofScans decode minLength scans = harvest := by
  rw [← toOption_eq_some_iff, Harvest.combine_toOption]
  cases undecodable refusal? scans <;> simp

end WebTrim
