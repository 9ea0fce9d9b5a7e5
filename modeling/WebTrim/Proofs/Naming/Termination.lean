import Mathlib.Data.List.MinMax
import WebTrim.Proofs.Naming.Greedy

/-!
# Giving out short names comes to an end

Seen turn by turn, a run looks at one candidate at a time, for the first name in line. Nothing in a
turn says how many turns there will be: letters may be repeated, so that a candidate can be taken
because it was given out before, and any candidate may be reserved. But short names grow, and a
candidate that is as large as the name ends its search.

* `Queue.turn` — one look at a candidate; `Queue.turns`: many.
* `Queue.turns_pass`, `Queue.exists_turns_give` — **a name is served after finitely many turns**, as
  `Allocation.give` says.
* `Queue.exists_turns_foldl` — **so are all names in line**, within a number of turns that is known
  beforehand.
* `allocate_terminates` — the run of `allocate`, from its beginning to its end.
-/

set_option autoImplicit false

namespace WebTrim.Naming

open Text

variable {a : Alphabet} {lead : Text}

/-- The size of the largest name, zero if there is none. -/
def largestSize (names : List Text) : Nat :=
  (names.map byteLength).foldr max 0

theorem byteLength_le_largestSize {names : List Text} {name : Text} (h : name ∈ names) :
    byteLength name ≤ largestSize names :=
  List.le_max_of_le (List.mem_map_of_mem h) (Nat.le_refl _)

/-! ## Turns -/

/-- What has been given out so far, and the names that are still in line. -/
structure Queue where
  state : Allocation
  waiting : List Text

namespace Queue

/-- One look at the next candidate for the first name in line. If it is too large the name goes
without, if it is taken the name waits for the one after it, and else the name gets it. No turn is left
when nobody is in line. -/
def turn (a : Alphabet) (lead : Text) : Queue → Option Queue
  | ⟨_, []⟩ => none
  | ⟨s, name :: waiting⟩ =>
    let short := candidate a lead s.index
    if byteLength name ≤ byteLength short then some ⟨s, waiting⟩
    else if s.taken.contains short then some ⟨{ s with index := s.index + 1 }, name :: waiting⟩
    else some ⟨⟨short :: s.taken, s.index + 1, s.entries ++ [(name, short)]⟩, waiting⟩

/-- The queue after a number of turns, if there are as many. -/
def turns (a : Alphabet) (lead : Text) : Nat → Queue → Option Queue
  | 0, q => some q
  | n + 1, q => (q.turn a lead).bind (turns a lead n)

theorem turns_add (m n : Nat) (q : Queue) :
    q.turns a lead (m + n) = (q.turns a lead m).bind (turns a lead n) := by
  induction m generalizing q with
  | zero => rw [Nat.zero_add]; rfl
  | succ m ih =>
    rw [Nat.succ_add, turns, turns, Option.bind_assoc]
    congr 1
    funext q'
    exact ih q'

variable {s : Allocation} {name : Text} {waiting : List Text}

theorem turn_large (h : byteLength name ≤ byteLength (candidate a lead s.index)) :
    turn a lead ⟨s, name :: waiting⟩ = some ⟨s, waiting⟩ := by
  simp only [turn, if_pos h]

theorem turn_taken (h : byteLength (candidate a lead s.index) < byteLength name)
    (htaken : candidate a lead s.index ∈ s.taken) :
    turn a lead ⟨s, name :: waiting⟩ =
      some ⟨{ s with index := s.index + 1 }, name :: waiting⟩ := by
  simp only [turn, if_neg (Nat.not_le.mpr h), List.contains_iff_mem, if_pos htaken]

theorem turn_free (h : byteLength (candidate a lead s.index) < byteLength name)
    (hfree : candidate a lead s.index ∉ s.taken) :
    turn a lead ⟨s, name :: waiting⟩ =
      some ⟨⟨candidate a lead s.index :: s.taken, s.index + 1,
        s.entries ++ [(name, candidate a lead s.index)]⟩, waiting⟩ := by
  simp only [turn, if_neg (Nat.not_le.mpr h), List.contains_iff_mem, if_neg hfree]

/-! ## One name -/

/-- A name waits while small candidates are taken. -/
theorem turns_pass {passed : Nat}
    (h : ∀ k < passed, candidate a lead (s.index + k) ∈ s.taken ∧
      byteLength (candidate a lead (s.index + k)) < byteLength name) :
    turns a lead passed ⟨s, name :: waiting⟩ =
      some ⟨{ s with index := s.index + passed }, name :: waiting⟩ := by
  induction passed with
  | zero => rfl
  | succ passed ih =>
    obtain ⟨htaken, hsmall⟩ := h passed (Nat.lt_succ_self passed)
    rw [turns_add, ih fun k hk => h k (Nat.lt_succ_of_lt hk), Option.bind_some, turns,
      turn_taken hsmall htaken]
    rfl

/-- **A name is served after finitely many turns.** It waits while candidates are taken, and the next
candidate is free or as large as the name. -/
theorem exists_turns_give (a : Alphabet) (lead : Text) (s : Allocation) (name : Text)
    (waiting : List Text) :
    ∃ passed, (∀ k < passed, candidate a lead (s.index + k) ∈ s.taken ∧
        byteLength (candidate a lead (s.index + k)) < byteLength name) ∧
      (byteLength name ≤ byteLength (candidate a lead (s.index + passed)) ∧
          (s.give a lead name).index = s.index + passed ∨
        candidate a lead (s.index + passed) ∉ s.taken ∧
          byteLength (candidate a lead (s.index + passed)) < byteLength name ∧
          (s.give a lead name).index = s.index + passed + 1) ∧
      turns a lead (passed + 1) ⟨s, name :: waiting⟩ = some ⟨s.give a lead name, waiting⟩ := by
  obtain ⟨i, hle, hpassed, hend⟩ := s.give_cases a lead name
  obtain ⟨passed, rfl⟩ := Nat.exists_eq_add_of_le hle
  have htaken : ∀ k < passed, candidate a lead (s.index + k) ∈ s.taken ∧
      byteLength (candidate a lead (s.index + k)) < byteLength name :=
    fun k hk => hpassed (s.index + k) (by omega) (by omega)
  refine ⟨passed, htaken, ?_⟩
  rw [turns_add, turns_pass htaken, Option.bind_some, turns]
  rcases hend with ⟨hgive, hfree, hsmall⟩ | ⟨hgive, hlarge⟩
  · rw [turn_free hsmall hfree, hgive]
    exact ⟨.inr ⟨hfree, hsmall, rfl⟩, rfl⟩
  · rw [turn_large hlarge, hgive]
    exact ⟨.inl ⟨hlarge, rfl⟩, rfl⟩

/-! ## All names -/

/-- Only candidates below a known index are smaller than a name. -/
theorem lt_nameCount {limit i : Nat} (hlimit : byteLength name ≤ limit)
    (h : byteLength (candidate a lead i) < byteLength name) : i < a.nameCount limit := by
  by_contra hlate
  have := le_byteLength_candidate a lead limit i (Nat.not_lt.mp hlate)
  omega

/-- **All names in line are served after finitely many turns.** Each turn passes a candidate or serves
a name, and no candidate is passed that is larger than every name. -/
theorem exists_turns_foldl (a : Alphabet) (lead : Text) {limit : Nat} (names : List Text)
    (hlimit : ∀ name ∈ names, byteLength name ≤ limit) :
    ∀ s : Allocation, s.index ≤ a.nameCount limit →
      ∃ n, n + s.index ≤ names.length + a.nameCount limit ∧
        turns a lead n ⟨s, names⟩ = some ⟨names.foldl (Allocation.give a lead) s, []⟩ := by
  induction names with
  | nil => exact fun s hs => ⟨0, by simpa using hs, rfl⟩
  | cons name names ih =>
    rw [List.forall_mem_cons] at hlimit
    intro s hs
    obtain ⟨passed, hpassed, hend, hserved⟩ := exists_turns_give a lead s name names
    have hpassedLe : s.index + passed ≤ a.nameCount limit := by
      cases passed with
      | zero => exact hs
      | succ passed => exact lt_nameCount hlimit.1 (hpassed passed (Nat.lt_succ_self passed)).2
    have hindex : (s.give a lead name).index ≤ a.nameCount limit ∧
        s.index + passed ≤ (s.give a lead name).index := by
      rcases hend with ⟨-, hindex⟩ | ⟨-, hsmall, hindex⟩
      · omega
      · have := lt_nameCount hlimit.1 hsmall
        omega
    obtain ⟨n, hn, hrun⟩ := ih hlimit.2 (s.give a lead name) hindex.1
    refine ⟨passed + 1 + n, ?_, ?_⟩
    · rw [List.length_cons]
      omega
    · rw [turns_add, hserved, Option.bind_some, hrun]
      rfl

end Queue

/-- **Giving out short names comes to an end**, whatever the letters and whatever is reserved.

* Candidates reach every size.
* At any time, a name is served after finitely many turns: it waits while candidates are taken, and the
  next one is free, or is as large as the name.
* The run that begins with all names in line serves them all. The number of turns is at most that of
  the names and of the words that are not longer than the largest name, and what was given out at the
  end is the rename map. -/
theorem allocate_terminates (a : Alphabet) (lead : Text) (records : List Candidate)
    (reserved : List Text) :
    (∀ limit, ∃ bound, ∀ i, bound ≤ i → limit ≤ byteLength (lead ++ a.shortName i)) ∧
    (∀ (s : Allocation) (name : Text) (waiting : List Text), ∃ passed,
      (∀ k < passed, candidate a lead (s.index + k) ∈ s.taken) ∧
      (candidate a lead (s.index + passed) ∉ s.taken ∨
        byteLength name ≤ byteLength (candidate a lead (s.index + passed))) ∧
      Queue.turns a lead (passed + 1) ⟨s, name :: waiting⟩ =
        some ⟨s.give a lead name, waiting⟩) ∧
    ∃ n ≤ (ranked records).length + a.nameCount (largestSize (ranked records)), ∃ final,
      Queue.turns a lead n ⟨{ taken := reserved ++ records.map Candidate.name }, ranked records⟩ =
        some ⟨final, []⟩ ∧
      allocate a lead records reserved = ⟨final.entries⟩ := by
  refine ⟨fun limit => ⟨a.nameCount limit, fun i => le_byteLength_candidate a lead limit i⟩, ?_, ?_⟩
  · intro s name waiting
    obtain ⟨passed, hpassed, hend, hserved⟩ := Queue.exists_turns_give a lead s name waiting
    exact ⟨passed, fun k hk => (hpassed k hk).1, hend.symm.imp And.left And.left, hserved⟩
  · obtain ⟨n, hn, hrun⟩ := Queue.exists_turns_foldl a lead (ranked records)
      (fun _ => byteLength_le_largestSize) { taken := reserved ++ records.map Candidate.name }
      (Nat.zero_le _)
    exact ⟨n, hn, _, hrun, rfl⟩

-- the letter `a` stands twice, and the second is passed
example :
    ((Queue.turns ⟨['a', 'a', 'é'], by decide⟩ [] 3
        ⟨{ taken := [] }, ["long".toList, "name".toList]⟩).map fun q =>
          (q.state.entries, q.waiting)) =
      some ([("long".toList, "a".toList), ("name".toList, "é".toList)], []) := by
  decide +kernel

end WebTrim.Naming
