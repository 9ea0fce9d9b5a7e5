import Mathlib.Data.List.Nodup
import Mathlib.Data.Set.Function
import WebTrim.Naming.Allocate
import WebTrim.Proofs.Naming.ShortName
import WebTrim.Proofs.Table
import WebTrim.Text.Letter

/-!
# What the allocation of short names guarantees

A run of the allocation serves names one after another. Each name that gets a short name gets a
candidate that nobody else has.

* `search_cases`, `Allocation.give_cases` — all that a search, and one step of a run, can end with.
* `Allocation.Sound` — the invariant of a run; `Sound.give` is one step, `Sound.foldl` the run.
* `allocate_sound` — the entries of `allocate`: distinct names of records that are not reserved,
  distinct short names, each free, smaller than its name and a candidate of the alphabet.
* `RenameMap.ShortNames` — what other proofs use of a map that was allocated with letters.
* `RenameMap.injOn_rename` — a map with distinct short names outside a set is injective on the set,
  names without a short name standing for themselves.
-/

set_option autoImplicit false

namespace WebTrim

/-! ## Rename maps -/

namespace RenameMap

variable {m : RenameMap} {name short : Text}

theorem mem_entries_of_find? (h : m.find? name = some short) : (name, short) ∈ m.entries := by
  unfold find? at h
  obtain ⟨before, after, heq, _⟩ := List.lookup_eq_some_iff.mp h
  rw [heq]
  simp

theorem rename_of_find? (h : m.find? name = some short) : m.rename name = short := by
  simp [rename, h]

theorem rename_of_find?_none (h : m.find? name = none) : m.rename name = name := by
  simp [rename, h]

/-- Two names with one short name are the same name. -/
theorem find?_inj (hshorts : (m.entries.map Prod.snd).Nodup) {other : Text}
    (h : m.find? name = some short) (ho : m.find? other = some short) : name = other := by
  have hpair := List.inj_on_of_nodup_map hshorts (mem_entries_of_find? h)
    (mem_entries_of_find? ho) rfl
  exact congrArg Prod.fst hpair

/-- **A map with distinct short names outside a set is injective on the set.** A name without a
short name stands for itself. -/
theorem injOn_rename {s : Set Text} (hshorts : (m.entries.map Prod.snd).Nodup)
    (havoid : ∀ e ∈ m.entries, e.2 ∉ s) : Set.InjOn m.rename s := by
  intro x hx y hy hxy
  cases hfx : m.find? x with
  | none =>
    cases hfy : m.find? y with
    | none => rwa [rename_of_find?_none hfx, rename_of_find?_none hfy] at hxy
    | some short =>
      rw [rename_of_find?_none hfx, rename_of_find? hfy] at hxy
      exact absurd (hxy ▸ hx) (havoid _ (mem_entries_of_find? hfy))
  | some short =>
    cases hfy : m.find? y with
    | none =>
      rw [rename_of_find? hfx, rename_of_find?_none hfy] at hxy
      exact absurd (hxy ▸ hy) (havoid _ (mem_entries_of_find? hfx))
    | some other =>
      rw [rename_of_find? hfx, rename_of_find? hfy] at hxy
      exact find?_inj hshorts hfx (hxy ▸ hfy)

/-- What is used of short names made of letters: each begins with `lead`, is smaller than its name,
and belongs to one name. -/
structure ShortNames (lead : Text) (m : RenameMap) : Prop where
  spelled : ∀ {name short}, m.find? name = some short →
    ∃ word, short = lead ++ word ∧ word ≠ [] ∧ ∀ c ∈ word, Text.isAsciiLetter c = true
  smaller : ∀ {name short}, m.find? name = some short → Text.byteLength short < Text.byteLength name
  injective : ∀ {name other short}, m.find? name = some short → m.find? other = some short →
    name = other

/-- Every short name is `lead` and a word of characters of one kind. -/
def Spelled (lead : Text) (kind : Char → Bool) (m : RenameMap) : Prop :=
  ∀ name short, m.find? name = some short →
    ∃ word, short = lead ++ word ∧ word ≠ [] ∧ ∀ c ∈ word, kind c = true

/-- The spelling of short names can be read off the entries. -/
theorem spelled_of_entries {lead : Text} {kind : Char → Bool}
    (h : m.entries.all fun entry => entry.2.take lead.length == lead &&
      !(entry.2.drop lead.length).isEmpty && (entry.2.drop lead.length).all kind) :
    m.Spelled lead kind := by
  intro name short hfind
  have hentry := List.all_eq_true.mp h _ (mem_entries_of_find? hfind)
  simp only [Bool.and_eq_true, beq_iff_eq, Bool.not_eq_true', List.isEmpty_eq_false_iff,
    List.all_eq_true] at hentry
  obtain ⟨⟨hlead, hne⟩, hword⟩ := hentry
  refine ⟨short.drop lead.length, ?_, hne, hword⟩
  nth_rewrite 1 [← List.take_append_drop lead.length short]
  rw [hlead]

end RenameMap

/-! ## The search for a candidate -/

namespace Naming

open Text

variable {a : Alphabet} {lead : Text}

/-- All that a search can end with: it passes small candidates that are taken, and stops at one that
is free or at one that is too large. -/
theorem search_cases (a : Alphabet) (lead : Text) (taken : List Text) (limit index : Nat) :
    ∃ i, index ≤ i ∧
      (∀ k, index ≤ k → k < i →
        candidate a lead k ∈ taken ∧ byteLength (candidate a lead k) < limit) ∧
      (search a lead taken limit index = (some (candidate a lead i), i + 1) ∧
          candidate a lead i ∉ taken ∧ byteLength (candidate a lead i) < limit ∨
        search a lead taken limit index = (none, i) ∧ limit ≤ byteLength (candidate a lead i)) := by
  fun_induction search a lead taken limit index with
  | case1 index hlarge => exact ⟨index, Nat.le_refl _, fun k _ _ => by omega, .inr ⟨rfl, hlarge⟩⟩
  | case2 index hsmall htaken ih =>
    obtain ⟨i, hle, hpassed, hend⟩ := ih
    refine ⟨i, by omega, fun k hk hki => ?_, hend⟩
    by_cases hindex : k = index
    · exact hindex ▸ ⟨htaken, Nat.not_le.mp hsmall⟩
    · exact hpassed k (by omega) hki
  | case3 index hsmall hfree =>
    exact ⟨index, Nat.le_refl _, fun k _ _ => by omega, .inl ⟨rfl, hfree, Nat.not_le.mp hsmall⟩⟩

/-- All that one step can do: behind small candidates that are taken, the name gets the first free
one, or the search stops at one that is not smaller than the name. -/
theorem Allocation.give_cases (a : Alphabet) (lead : Text) (s : Allocation) (name : Text) :
    ∃ i, s.index ≤ i ∧
      (∀ k, s.index ≤ k → k < i →
        candidate a lead k ∈ s.taken ∧ byteLength (candidate a lead k) < byteLength name) ∧
      (s.give a lead name = ⟨candidate a lead i :: s.taken, i + 1,
          s.entries ++ [(name, candidate a lead i)]⟩ ∧ candidate a lead i ∉ s.taken ∧
          byteLength (candidate a lead i) < byteLength name ∨
        s.give a lead name = { s with index := i } ∧
          byteLength name ≤ byteLength (candidate a lead i)) := by
  obtain ⟨i, hle, hpassed, ⟨hsearch, hfree⟩ | ⟨hsearch, hlarge⟩⟩ :=
    search_cases a lead s.taken (byteLength name) s.index
  · exact ⟨i, hle, hpassed, .inl ⟨by rw [Allocation.give, hsearch], hfree⟩⟩
  · exact ⟨i, hle, hpassed, .inr ⟨by rw [Allocation.give, hsearch], hlarge⟩⟩

/-! ## The invariant of a run -/

/-- The invariant of a run that began with the names `fixed` taken and has served `served`. -/
structure Allocation.Sound (a : Alphabet) (lead : Text) (fixed served : List Text)
    (s : Allocation) : Prop where
  /-- Nothing that was taken becomes free. -/
  fixed_taken : ∀ t ∈ fixed, t ∈ s.taken
  /-- A short name that was given out is taken. -/
  shorts_taken : ∀ e ∈ s.entries, e.2 ∈ s.taken
  /-- No short name was taken at the beginning. -/
  fresh : ∀ e ∈ s.entries, e.2 ∉ fixed
  /-- No short name is given out twice. -/
  shorts_nodup : (s.entries.map Prod.snd).Nodup
  /-- Names get their short names in the order in which they are served. -/
  names_sublist : (s.entries.map Prod.fst).Sublist served
  /-- A short name is strictly smaller than its name. -/
  smaller : ∀ e ∈ s.entries, byteLength e.2 < byteLength e.1
  /-- A short name is one of the candidates. -/
  candidates : ∀ e ∈ s.entries, ∃ i, e.2 = candidate a lead i

namespace Allocation.Sound

variable {fixed served : List Text} {s : Allocation}

theorem start (a : Alphabet) (lead : Text) (fixed : List Text) :
    Sound a lead fixed [] { taken := fixed } where
  fixed_taken := fun _ h => h
  shorts_taken := by simp
  fresh := by simp
  shorts_nodup := List.nodup_nil
  names_sublist := List.Sublist.refl _
  smaller := by simp
  candidates := by simp

/-- **One step of the run keeps the invariant.** -/
theorem give (h : Sound a lead fixed served s) (name : Text) :
    Sound a lead fixed (served ++ [name]) (s.give a lead name) := by
  obtain ⟨i, -, -, ⟨hgive, hfree, hsmall⟩ | ⟨hgive, -⟩⟩ := s.give_cases a lead name
  · rw [hgive]
    refine ⟨?_, ?_, ?_, ?_, ?_, ?_, ?_⟩
    · intro t ht
      exact List.mem_cons_of_mem _ (h.fixed_taken t ht)
    · intro e he
      rcases List.mem_append.mp he with he | he
      · exact List.mem_cons_of_mem _ (h.shorts_taken e he)
      · rw [List.mem_singleton.mp he]
        exact List.mem_cons_self
    · intro e he
      rcases List.mem_append.mp he with he | he
      · exact h.fresh e he
      · rw [List.mem_singleton.mp he]
        exact fun hfixed => hfree (h.fixed_taken _ hfixed)
    · rw [List.map_append, List.nodup_append]
      refine ⟨h.shorts_nodup, List.nodup_singleton _, ?_⟩
      intro x hx y hy hxy
      obtain ⟨e, he, rfl⟩ := List.mem_map.mp hx
      rw [List.map_singleton, List.mem_singleton] at hy
      have hshort : e.2 = candidate a lead i := hxy.trans hy
      exact hfree (hshort ▸ h.shorts_taken e he)
    · rw [List.map_append]
      exact h.names_sublist.append (List.Sublist.refl _)
    · intro e he
      rcases List.mem_append.mp he with he | he
      · exact h.smaller e he
      · rw [List.mem_singleton.mp he]
        exact hsmall
    · intro e he
      rcases List.mem_append.mp he with he | he
      · exact h.candidates e he
      · rw [List.mem_singleton.mp he]
        exact ⟨i, rfl⟩
  · rw [hgive]
    exact { h with names_sublist := h.names_sublist.trans (List.sublist_append_left _ _) }

/-- **The whole run keeps the invariant.** -/
theorem foldl (names : List Text) :
    ∀ {served : List Text} {s : Allocation}, Sound a lead fixed served s →
      Sound a lead fixed (served ++ names) (names.foldl (Allocation.give a lead) s) := by
  induction names with
  | nil => intro served s h; simpa using h
  | cons name names ih =>
    intro served s h
    have hstep := ih (h.give name)
    rwa [List.append_assoc, List.singleton_append] at hstep

end Allocation.Sound

/-! ## The rename map -/

/-- The names that are served are those of the records that are not reserved. -/
theorem mem_ranked {records : List Candidate} {name : Text} :
    name ∈ ranked records ↔ ∃ r ∈ records, r.reserved = false ∧ r.name = name := by
  unfold ranked rank eligible
  rw [List.mem_mergeSort, Table.mem_names_ofPairs, List.map_map, List.mem_map]
  constructor
  · rintro ⟨r, hr, rfl⟩
    rw [List.mem_filter] at hr
    exact ⟨r, hr.1, by simpa using hr.2, rfl⟩
  · rintro ⟨r, hr, hres, rfl⟩
    exact ⟨r, List.mem_filter.mpr ⟨hr, by simp [hres]⟩, rfl⟩

/-- **What holds of the entries of an allocation.** -/
theorem allocate_sound (a : Alphabet) (lead : Text) (records : List Candidate)
    (reserved : List Text) :
    ∃ s : Allocation, (allocate a lead records reserved).entries = s.entries ∧
      s.Sound a lead (reserved ++ records.map Candidate.name) (ranked records) :=
  ⟨_, rfl, Allocation.Sound.foldl (ranked records) (Allocation.Sound.start a lead _)⟩

/-- Every short name of a sound run over the letters is a word of letters. -/
theorem Allocation.Sound.shortNames {fixed served : List Text} {s : Allocation} {m : RenameMap}
    (h : s.Sound .latin lead fixed served) (hentries : m.entries = s.entries) :
    m.ShortNames lead where
  spelled := by
    intro name short hfind
    obtain ⟨i, hi⟩ := h.candidates _ (hentries ▸ RenameMap.mem_entries_of_find? hfind)
    refine ⟨Alphabet.latin.shortName i, hi, Alphabet.shortName_ne_nil _ _, fun c hc => ?_⟩
    have hletters : Alphabet.latin.letters.all isAsciiLetter = true := by decide
    exact List.all_eq_true.mp hletters c (Alphabet.mem_letters_of_mem_shortName _ i c hc)
  smaller := by
    intro name short hfind
    exact h.smaller _ (hentries ▸ RenameMap.mem_entries_of_find? hfind)
  injective := by
    intro name other short hfind hother
    exact RenameMap.find?_inj (hentries ▸ h.shorts_nodup) hfind hother

end Naming

end WebTrim
