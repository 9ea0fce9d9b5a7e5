import WebTrim.Proofs.Naming.Rank
import WebTrim.Proofs.Naming.ShortName

/-!
# Short names are given out greedily

The index of a run only grows. Every candidate that it passes was taken before or is given out, so a
name that goes without a short name goes without because nothing smaller was left for it.

* `Allocation.Spends` — the invariant: what lies below the index is spent, in order. `Spends.give` is
  one step, `Spends.foldl` the run.
* `allocate_perm` — the order of the records does not show.
* `lt_of_outranks`, `taken_of_find?_none` — the order of short names, and what a name without one finds
  taken.
* `allocate_safe_ranked_maximal` — **short names are safe, follow the ranking, and are withheld only
  where none is left**.
-/

set_option autoImplicit false

namespace WebTrim.Naming

open Text

variable {a : Alphabet} {lead : Text}

/-! ## Candidates -/

theorem byteLength_of_single {t : Text} (h : ∀ c ∈ t, c.utf8Size = 1) : byteLength t = t.length := by
  induction t with
  | nil => rfl
  | cons c t ih =>
    rw [byteLength_cons, h c List.mem_cons_self, ih fun d hd => h d (List.mem_cons_of_mem _ hd),
      List.length_cons, Nat.add_comm]

/-- Over letters of one byte, candidates never get smaller. -/
theorem byteLength_candidate_mono (hbytes : ∀ c ∈ a.letters, c.utf8Size = 1) {i j : Nat}
    (h : i ≤ j) : byteLength (candidate a lead i) ≤ byteLength (candidate a lead j) := by
  have hsize : ∀ k, byteLength (a.shortName k) = (a.shortName k).length := fun k =>
    byteLength_of_single fun c hc => hbytes c (a.mem_letters_of_mem_shortName k c hc)
  rw [candidate, candidate, byteLength_append, byteLength_append, hsize, hsize]
  exact Nat.add_le_add_left (a.length_shortName_mono h) _

theorem candidate_injective (hdistinct : a.letters.Nodup) :
    Function.Injective (candidate a lead) :=
  fun _ _ h => a.shortName_injective hdistinct (List.append_cancel_left h)

/-! ## The invariant of a run -/

namespace Allocation

/-- The invariant of a run that began with the names `fixed` taken. -/
structure Spends (a : Alphabet) (lead : Text) (fixed : List Text) (s : Allocation) : Prop where
  /-- What is taken was taken at the beginning or given out. -/
  taken_from : ∀ t ∈ s.taken, t ∈ fixed ∨ ∃ e ∈ s.entries, e.2 = t
  /-- Every candidate below the index is taken. -/
  spent : ∀ i < s.index, candidate a lead i ∈ s.taken
  /-- Only candidates below the index have been given out. -/
  below : ∀ e ∈ s.entries, ∃ i < s.index, e.2 = candidate a lead i
  /-- Candidates are given out in their order. -/
  ordered : s.entries.Pairwise fun e f =>
    ∃ i j, i < j ∧ e.2 = candidate a lead i ∧ f.2 = candidate a lead j

namespace Spends

variable {fixed : List Text} {s : Allocation}

theorem start (a : Alphabet) (lead : Text) (fixed : List Text) :
    Spends a lead fixed { taken := fixed } where
  taken_from := fun _ h => .inl h
  spent := fun i hi => absurd hi (Nat.not_lt_zero i)
  below := by simp
  ordered := List.Pairwise.nil

/-- Up to where a search stops, everything is spent. -/
theorem spent_to (h : Spends a lead fixed s) {i limit : Nat}
    (hpassed : ∀ k, s.index ≤ k → k < i →
      candidate a lead k ∈ s.taken ∧ byteLength (candidate a lead k) < limit) :
    ∀ k < i, candidate a lead k ∈ s.taken := by
  intro k hk
  by_cases hindex : k < s.index
  · exact h.spent k hindex
  · exact (hpassed k (Nat.not_lt.mp hindex) hk).1

/-- **One step of the run keeps the invariant.** -/
theorem give (h : Spends a lead fixed s) (name : Text) :
    Spends a lead fixed (s.give a lead name) := by
  obtain ⟨i, hle, hpassed, ⟨hgive, -⟩ | ⟨hgive, -⟩⟩ := give_cases a lead s name
  · have hbelow : ∀ e ∈ s.entries, ∃ k < i, e.2 = candidate a lead k := by
      intro e he
      obtain ⟨k, hk, hek⟩ := h.below e he
      exact ⟨k, by omega, hek⟩
    rw [hgive]
    refine ⟨?_, ?_, ?_, ?_⟩
    · intro t ht
      rcases List.mem_cons.mp ht with rfl | ht
      · exact .inr ⟨_, List.mem_append_right _ (List.mem_singleton_self _), rfl⟩
      · rcases h.taken_from t ht with hfixed | ⟨e, he, het⟩
        · exact .inl hfixed
        · exact .inr ⟨e, List.mem_append_left _ he, het⟩
    · intro k hk
      by_cases hki : k = i
      · exact hki ▸ List.mem_cons_self
      · have hk' : k < i := Nat.lt_of_le_of_ne (Nat.lt_succ_iff.mp hk) hki
        exact List.mem_cons_of_mem _ (h.spent_to hpassed k hk')
    · intro e he
      rcases List.mem_append.mp he with he | he
      · obtain ⟨k, hk, hek⟩ := hbelow e he
        exact ⟨k, Nat.lt_succ_of_lt hk, hek⟩
      · rw [List.mem_singleton.mp he]
        exact ⟨i, Nat.lt_succ_self i, rfl⟩
    · rw [List.pairwise_append]
      refine ⟨h.ordered, List.pairwise_singleton _ _, fun e he f hf => ?_⟩
      obtain ⟨k, hk, hek⟩ := hbelow e he
      rw [List.mem_singleton.mp hf]
      exact ⟨k, i, hk, hek, rfl⟩
  · rw [hgive]
    refine { h with spent := h.spent_to hpassed, below := fun e he => ?_ }
    obtain ⟨k, hk, hek⟩ := h.below e he
    exact ⟨k, Nat.lt_of_lt_of_le hk hle, hek⟩

/-- **The whole run keeps the invariant.** -/
theorem foldl (names : List Text) :
    ∀ {s : Allocation}, Spends a lead fixed s →
      Spends a lead fixed (names.foldl (Allocation.give a lead) s) := by
  induction names with
  | nil => exact fun h => h
  | cons name names ih => exact fun h => ih (h.give name)

/-- A name that gets no short name leaves no smaller candidate free. -/
theorem taken_of_not_given (h : Spends a lead fixed s)
    (hbytes : ∀ c ∈ a.letters, c.utf8Size = 1) {name : Text}
    (hnone : (s.give a lead name).entries = s.entries) {i : Nat}
    (hsmall : byteLength (candidate a lead i) < byteLength name) :
    candidate a lead i ∈ s.taken := by
  obtain ⟨j, -, hpassed, ⟨hgive, -⟩ | ⟨-, hlarge⟩⟩ := give_cases a lead s name
  · rw [hgive] at hnone
    simp at hnone
  · refine h.spent_to hpassed i (Nat.lt_of_not_le fun hij => ?_)
    have hmono : byteLength (candidate a lead j) ≤ byteLength (candidate a lead i) :=
      byteLength_candidate_mono hbytes hij
    omega

end Spends

/-! ## What comes before a name -/

theorem entries_prefix_give (s : Allocation) (name : Text) :
    s.entries <+: (s.give a lead name).entries := by
  obtain ⟨i, -, -, ⟨hgive, -⟩ | ⟨hgive, -⟩⟩ := give_cases a lead s name
  · rw [hgive]
    exact List.prefix_append _ _
  · simp only [hgive, List.prefix_refl]

theorem entries_prefix_foldl (names : List Text) :
    ∀ s : Allocation, s.entries <+: (names.foldl (Allocation.give a lead) s).entries := by
  induction names with
  | nil => exact fun s => List.prefix_refl _
  | cons name names ih => exact fun s => (s.entries_prefix_give name).trans (ih _)

/-- A step that gives the name nothing gives nothing. -/
theorem entries_give_of_not_mem {s : Allocation} {name : Text}
    (h : name ∉ (s.give a lead name).entries.map Prod.fst) :
    (s.give a lead name).entries = s.entries := by
  obtain ⟨i, -, -, ⟨hgive, -⟩ | ⟨hgive, -⟩⟩ := give_cases a lead s name
  · rw [hgive] at h
    simp at h
  · rw [hgive]

/-! ## Taken names as a set -/

theorem search_congr {taken taken' : List Text} (h : ∀ t, t ∈ taken ↔ t ∈ taken')
    (limit index : Nat) :
    search a lead taken limit index = search a lead taken' limit index := by
  fun_induction search a lead taken limit index with
  | case1 index hlarge => rw [search, if_pos hlarge]
  | case2 index hsmall htaken ih =>
    rw [ih, search.eq_def a lead taken' limit index, if_neg hsmall, if_pos ((h _).mp htaken)]
  | case3 index hsmall hfree => rw [search, if_neg hsmall, if_neg (mt (h _).mpr hfree)]

/-- The same state, but for the order in which taken names are listed. -/
structure Agrees (s s' : Allocation) : Prop where
  taken : ∀ t, t ∈ s.taken ↔ t ∈ s'.taken
  index : s.index = s'.index
  entries : s.entries = s'.entries

theorem Agrees.give {s s' : Allocation} (h : Agrees s s') (name : Text) :
    Agrees (s.give a lead name) (s'.give a lead name) := by
  unfold Allocation.give
  rw [← h.index, ← search_congr h.taken]
  split
  · exact ⟨by simp [h.taken], rfl, by rw [h.entries]⟩
  · exact ⟨h.taken, rfl, h.entries⟩

theorem Agrees.foldl (names : List Text) :
    ∀ {s s' : Allocation}, Agrees s s' →
      Agrees (names.foldl (Allocation.give a lead) s) (names.foldl (Allocation.give a lead) s') := by
  induction names with
  | nil => exact fun h => h
  | cons name names ih => exact fun h => ih (h.give name)

end Allocation

/-! ## The rename map -/

section Map

variable {records records' : List Candidate} {reserved reserved' : List Text} {name short : Text}

/-- The order of the records does not show if their names are distinct, and that of the reserved names
never does. -/
theorem allocate_perm (hnames : (records.map Candidate.name).Nodup) (h : records'.Perm records)
    (hreserved : ∀ t, t ∈ reserved' ↔ t ∈ reserved) :
    allocate a lead records' reserved' = allocate a lead records reserved := by
  have hstart : Allocation.Agrees { taken := reserved' ++ records'.map Candidate.name }
      { taken := reserved ++ records.map Candidate.name } :=
    ⟨fun t => by rw [List.mem_append, List.mem_append, hreserved, (h.map _).mem_iff], rfl, rfl⟩
  unfold allocate
  rw [ranked_perm hnames h]
  exact congrArg RenameMap.mk (hstart.foldl (ranked records)).entries

/-- A name has at most one entry. -/
theorem find?_allocate :
    (allocate a lead records reserved).find? name = some short ↔
      (name, short) ∈ (allocate a lead records reserved).entries := by
  obtain ⟨s, hentries, hsound⟩ := allocate_sound a lead records reserved
  apply lookup_eq_some_iff_mem
  rw [hentries]
  exact hsound.names_sublist.nodup (nodup_ranked records)

/-- Of two entries, the one whose name ranks first has the earlier candidate. -/
theorem pairwise_entries (a : Alphabet) (lead : Text) (records : List Candidate)
    (reserved : List Text) :
    (allocate a lead records reserved).entries.Pairwise fun e f =>
      Outranks (usageOf records) e.1 f.1 ∧
        ∃ i j, i < j ∧ e.2 = candidate a lead i ∧ f.2 = candidate a lead j := by
  have hsound := Allocation.Sound.foldl (ranked records)
    (.start a lead (reserved ++ records.map Candidate.name))
  have hspends := Allocation.Spends.foldl (ranked records)
    (.start a lead (reserved ++ records.map Candidate.name))
  have hranks := (pairwise_ranked records).sublist hsound.names_sublist
  rw [List.pairwise_map] at hranks
  exact hranks.and hspends.ordered

/-- Of two names with short names, the one that ranks first has the earlier candidate. -/
theorem lt_of_outranks (hdistinct : a.letters.Nodup) {name' short' : Text}
    (h : (allocate a lead records reserved).find? name = some short)
    (h' : (allocate a lead records reserved).find? name' = some short')
    (hrank : Outranks (usageOf records) name name') {i j : Nat} (hi : short = candidate a lead i)
    (hj : short' = candidate a lead j) : i < j := by
  rw [find?_allocate] at h h'
  -- the entry of the other name cannot come first, since names come in order of rank
  have hearlier : ∃ i j, i < j ∧ short = candidate a lead i ∧ short' = candidate a lead j := by
    obtain ⟨before, after, hsplit⟩ := List.append_of_mem h
    have hpairs := pairwise_entries a lead records reserved
    rw [hsplit] at h' hpairs
    obtain ⟨-, hafter, hbefore⟩ := List.pairwise_append.mp hpairs
    rcases List.mem_append.mp h' with h' | h'
    · exact absurd hrank (hbefore _ h' _ List.mem_cons_self).1.asymm
    · rcases List.mem_cons.mp h' with h' | h'
      · cases h'
        exact absurd hrank hrank.asymm
      · exact ((List.pairwise_cons.mp hafter).1 _ h').2
  obtain ⟨k, l, hkl, hk, hl⟩ := hearlier
  rw [candidate_injective hdistinct (hi.symm.trans hk),
    candidate_injective hdistinct (hj.symm.trans hl)]
  exact hkl

/-- What is smaller than a name without a short name is reserved, is the name of a record, or was
given to a name that ranks first. -/
theorem taken_of_find?_none (hbytes : ∀ c ∈ a.letters, c.utf8Size = 1)
    (hname : name ∈ ranked records)
    (hnone : (allocate a lead records reserved).find? name = none) {i : Nat}
    (hsmall : byteLength (candidate a lead i) < byteLength name) :
    candidate a lead i ∈ reserved ∨ (∃ r ∈ records, r.name = candidate a lead i) ∨
      ∃ other, Outranks (usageOf records) other name ∧
        (allocate a lead records reserved).find? other = some (candidate a lead i) := by
  obtain ⟨before, after, hsplit⟩ := List.append_of_mem hname
  let start : Allocation := { taken := reserved ++ records.map Candidate.name }
  -- the state of the run when the name is served
  let s := before.foldl (Allocation.give a lead) start
  have hsound : s.Sound a lead start.taken before :=
    Allocation.Sound.foldl before (.start a lead start.taken)
  have hspends : s.Spends a lead start.taken :=
    Allocation.Spends.foldl before (.start a lead start.taken)
  have hrun : (allocate a lead records reserved).entries =
      (after.foldl (Allocation.give a lead) (s.give a lead name)).entries := by
    simp only [allocate, hsplit, List.foldl_append, List.foldl_cons]
    rfl
  have hkept : ∀ e ∈ (s.give a lead name).entries,
      (allocate a lead records reserved).find? e.1 = some e.2 := by
    intro e he
    rw [find?_allocate, hrun]
    exact (Allocation.entries_prefix_foldl after _).subset he
  have hgiven : (s.give a lead name).entries = s.entries := by
    apply Allocation.entries_give_of_not_mem
    intro hmem
    obtain ⟨e, he, rfl⟩ := List.mem_map.mp hmem
    rw [hkept e he] at hnone
    cases hnone
  rcases hspends.taken_from _ (hspends.taken_of_not_given hbytes hgiven hsmall) with
    hfixed | ⟨e, he, heq⟩
  · rcases List.mem_append.mp hfixed with hreserved | hrecord
    · exact .inl hreserved
    · exact .inr (.inl (List.mem_map.mp hrecord))
  · have hbefore : e.1 ∈ before := hsound.names_sublist.subset (List.mem_map_of_mem he)
    have hranks := pairwise_ranked records
    rw [hsplit, List.pairwise_append] at hranks
    refine .inr (.inr ⟨e.1, hranks.2.2 _ hbefore _ List.mem_cons_self, ?_⟩)
    rw [hkept e (hgiven ▸ he), heq]

end Map

/-- **Short names are safe, follow the ranking, and are withheld only where none is left.** The letters
are distinct and of one byte each.

* Only names of records that are not reserved get a short name. It is a candidate, smaller than the
  name; it is neither reserved nor the name of a record, and no other name has it.
* The short name of a name that ranks first comes first among the candidates.
* Where a name has none, every smaller word behind the lead is reserved, is the name of a record, or
  went to a name that ranks first.
* The order of the records does not show if their names are distinct. -/
theorem allocate_safe_ranked_maximal (a : Alphabet) (hdistinct : a.letters.Nodup)
    (hbytes : ∀ c ∈ a.letters, c.utf8Size = 1) (lead : Text) (records : List Candidate)
    (reserved : List Text) :
    let short? := (allocate a lead records reserved).find?
    (∀ name short, short? name = some short →
      (∃ r ∈ records, r.reserved = false ∧ r.name = name) ∧
        (∃ i, short = lead ++ a.shortName i) ∧ byteLength short < byteLength name ∧
        short ∉ reserved ∧ (∀ r ∈ records, r.name ≠ short) ∧
        ∀ other, short? other = some short → other = name) ∧
    (∀ name name' short short', short? name = some short → short? name' = some short' →
      Outranks (usageOf records) name name' →
      ∀ i j, short = lead ++ a.shortName i → short' = lead ++ a.shortName j → i < j) ∧
    (∀ r ∈ records, r.reserved = false → short? r.name = none →
      ∀ word, word ≠ [] → (∀ c ∈ word, c ∈ a.letters) →
        byteLength (lead ++ word) < byteLength r.name →
        lead ++ word ∈ reserved ∨ (∃ r' ∈ records, r'.name = lead ++ word) ∨
          ∃ other, Outranks (usageOf records) other r.name ∧ short? other = some (lead ++ word)) ∧
    ((records.map Candidate.name).Nodup → ∀ records', records'.Perm records →
      allocate a lead records' reserved = allocate a lead records reserved) := by
  intro short?
  refine ⟨?_, ?_, ?_, ?_⟩
  · intro name short h
    obtain ⟨s, hentries, hsound⟩ := allocate_sound a lead records reserved
    have hmem : (name, short) ∈ s.entries := hentries ▸ RenameMap.mem_entries_of_find? h
    have hfresh := hsound.fresh _ hmem
    rw [List.mem_append, not_or] at hfresh
    refine ⟨?_, hsound.candidates _ hmem, hsound.smaller _ hmem, hfresh.1, ?_, ?_⟩
    · exact mem_ranked.mp (hsound.names_sublist.subset (List.mem_map_of_mem hmem))
    · exact fun r hr heq => hfresh.2 (List.mem_map.mpr ⟨r, hr, heq⟩)
    · exact fun other ho => RenameMap.find?_inj (hentries ▸ hsound.shorts_nodup) ho h
  · intro name name' short short' h h' hrank i j
    exact lt_of_outranks hdistinct h h' hrank
  · intro r hr hfree hnone word hne hletters hsmall
    obtain ⟨i, rfl⟩ := a.exists_shortName hne hletters
    exact taken_of_find?_none hbytes (mem_ranked.mpr ⟨r, hr, hfree, rfl⟩) hnone hsmall
  · intro hnames records' hperm
    exact allocate_perm hnames hperm fun _ => Iff.rfl

/-- Over two letters, behind a hyphen: `-a` is reserved and `-b` is the name of a record. The name of
three bytes goes without, and `-ab` stays for the name that ranks last. -/
theorem allocate_safe_ranked_maximal_two_letters :
    let a : Alphabet := ⟨['a', 'b'], by decide⟩
    let records : List Candidate :=
      [⟨"-b".toList, 9, true⟩, ⟨"long".toList, 2, false⟩, ⟨"abc".toList, 2, false⟩,
        ⟨"other".toList, 1, false⟩]
    let short? := (allocate a ['-'] records ["-a".toList]).find?
    short? "long".toList = some "-aa".toList ∧ short? "other".toList = some "-ab".toList ∧
      short? "abc".toList = none ∧
      (∀ name, short? name = some "-ab".toList → name = "other".toList) ∧
      (∀ i j, "-aa".toList = ['-'] ++ a.shortName i → "-ab".toList = ['-'] ++ a.shortName j →
        i < j) ∧
      ("-b".toList ∈ ["-a".toList] ∨ (∃ r ∈ records, r.name = "-b".toList) ∨
        ∃ name, Outranks (usageOf records) name "abc".toList ∧ short? name = some "-b".toList) ∧
      allocate a ['-'] records.reverse ["-a".toList] = allocate a ['-'] records ["-a".toList] := by
  intro a records short?
  -- the names are given in order of rank, so that sorting them does nothing
  have hranks : ranked records = ["long".toList, "abc".toList, "other".toList] :=
    List.mergeSort_of_pairwise (by decide +kernel)
  have hmap : allocate a ['-'] records ["-a".toList] =
      ⟨[("long".toList, "-aa".toList), ("other".toList, "-ab".toList)]⟩ := by
    rw [allocate, hranks]
    decide +kernel
  have hlong : short? "long".toList = some "-aa".toList := by simp only [short?, hmap]; decide
  have hother : short? "other".toList = some "-ab".toList := by simp only [short?, hmap]; decide
  have habc : short? "abc".toList = none := by simp only [short?, hmap]; decide
  have hrank : Outranks (usageOf records) "long".toList "other".toList := .inl (by decide)
  have hbytes : ∀ c ∈ a.letters, c.utf8Size = 1 :=
    List.forall_mem_cons.mpr ⟨by decide, List.forall_mem_singleton.mpr (by decide)⟩
  obtain ⟨hsafe, hranked, hmaximal, hperm⟩ :=
    allocate_safe_ranked_maximal a (by decide) hbytes ['-'] records ["-a".toList]
  refine ⟨hlong, hother, habc, ?_, ?_, ?_, ?_⟩
  · exact (hsafe _ _ hother).2.2.2.2.2
  · exact hranked _ _ _ _ hlong hother hrank
  · exact hmaximal ⟨"abc".toList, 2, false⟩ (by decide) rfl habc ['b'] (by decide)
      (List.forall_mem_singleton.mpr (by decide)) (by decide)
  · exact hperm (by decide) _ (List.reverse_perm records)

end WebTrim.Naming
