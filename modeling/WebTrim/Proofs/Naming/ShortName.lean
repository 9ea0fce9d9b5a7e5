import Mathlib.Data.List.Induction
import Mathlib.Data.List.Nodup
import Mathlib.Data.List.Shortlex
import Mathlib.Data.Set.Function
import WebTrim.Naming.ShortName

/-!
# The sequence of short names

A short name grows at its end: the names after those of one letter are an earlier name with one more
letter, in turn for each letter. So every word over the alphabet has its place, no word has two if
the letters are distinct, and names never get shorter along the sequence.

* `shortName_next` — the name at `(i + 1) * size + k` is that at `i` with the letter at `k` added.
* `length_shortName_mono` — **names never get shorter**.
* `shortName_injective` — **no name stands at two places**, if the letters are distinct.
* `exists_shortName` — **every word over the alphabet is a short name**.
* `shortlex_shortName` — a later name is longer, or as long and later in the alphabet's order.
* `shortName_enumerates` — **the sequence lists all words over the alphabet, each once, by length and
  then in the order of the alphabet**.
-/

set_option autoImplicit false

namespace WebTrim.Alphabet

variable (a : Alphabet)

/-! ## Letters -/

theorem letter_congr {i j : Nat} (h : i % a.size = j % a.size) : a.letter i = a.letter j := by
  simp only [letter, h]

/-- Every letter of the alphabet stands at some place below its size. -/
theorem exists_letter {c : Char} (h : c ∈ a.letters) : ∃ k < a.size, a.letter k = c := by
  obtain ⟨k, hk, rfl⟩ := List.getElem_of_mem h
  exact ⟨k, hk, congrArg a.letters.get (Fin.ext (Nat.mod_eq_of_lt hk))⟩

/-- Distinct letters stand at places that differ by more than whole rounds. -/
theorem mod_eq_of_letter (hdistinct : a.letters.Nodup) {i j : Nat} (h : a.letter i = a.letter j) :
    i % a.size = j % a.size :=
  congrArg Fin.val (List.nodup_iff_injective_get.mp hdistinct h)

/-! ## How names grow -/

theorem shortName_of_lt {i : Nat} (h : i < a.size) : a.shortName i = [a.letter i] := by
  rw [shortName, if_pos h]

theorem shortName_of_le {i : Nat} (h : a.size ≤ i) :
    a.shortName i = a.shortName (i / a.size - 1) ++ [a.letter i] := by
  rw [shortName, if_neg (Nat.not_lt.mpr h)]

theorem one_lt_length_shortName {i : Nat} (h : a.size ≤ i) : 1 < (a.shortName i).length := by
  have hpos := List.length_pos_iff.mpr (a.shortName_ne_nil (i / a.size - 1))
  rw [shortName_of_le a h, List.length_append, List.length_singleton]
  omega

/-- A name with one more letter stands one round of the alphabet later for each place. -/
theorem shortName_next (i : Nat) {k : Nat} (hk : k < a.size) :
    a.shortName ((i + 1) * a.size + k) = a.shortName i ++ [a.letter k] := by
  have hsize := a.size_pos
  have hround : a.size ≤ (i + 1) * a.size := Nat.le_mul_of_pos_left _ (Nat.succ_pos i)
  have hdiv : ((i + 1) * a.size + k) / a.size = i + 1 := by
    rw [Nat.mul_comm, Nat.mul_add_div hsize, Nat.div_eq_of_lt hk, Nat.add_zero]
  have hletter : a.letter ((i + 1) * a.size + k) = a.letter k :=
    a.letter_congr (by rw [Nat.mul_comm, Nat.mul_add_mod])
  rw [shortName_of_le a (by omega), hdiv, hletter, Nat.add_sub_cancel]

/-! ## The sequence -/

/-- Names never get shorter along the sequence. -/
theorem length_shortName_mono {i j : Nat} (h : i ≤ j) :
    (a.shortName i).length ≤ (a.shortName j).length := by
  fun_induction Alphabet.shortName a i generalizing j with
  | case1 i hi => exact List.length_pos_iff.mpr (a.shortName_ne_nil j)
  | case2 i hi ih =>
    have hround : i / a.size - 1 ≤ j / a.size - 1 :=
      Nat.sub_le_sub_right (Nat.div_le_div_right h) 1
    rw [shortName_of_le a (by omega : a.size ≤ j), List.length_append, List.length_append]
    exact Nat.add_le_add_right (ih hround) 1

/-- No name stands at two places if the letters are distinct. -/
theorem shortName_injective (hdistinct : a.letters.Nodup) : Function.Injective a.shortName := by
  intro i
  fun_induction Alphabet.shortName a i with
  | case1 i hi =>
    intro j h
    by_cases hj : j < a.size
    · rw [shortName_of_lt a hj, List.singleton_inj] at h
      have hmod := a.mod_eq_of_letter hdistinct h
      rwa [Nat.mod_eq_of_lt hi, Nat.mod_eq_of_lt hj] at hmod
    · have hlong := a.one_lt_length_shortName (Nat.not_lt.mp hj)
      rw [← h] at hlong
      exact absurd hlong (Nat.lt_irrefl 1)
  | case2 i hi ih =>
    intro j h
    by_cases hj : j < a.size
    · have hlong := a.one_lt_length_shortName (Nat.not_lt.mp hi)
      rw [shortName_of_le a (Nat.not_lt.mp hi), h, shortName_of_lt a hj] at hlong
      exact absurd hlong (Nat.lt_irrefl 1)
    · rw [shortName_of_le a (Nat.not_lt.mp hj)] at h
      obtain ⟨hinit, hlast⟩ := List.append_inj' h rfl
      have hround := ih hinit
      have hmod := a.mod_eq_of_letter hdistinct (List.singleton_inj.mp hlast)
      have hi' : 0 < i / a.size := Nat.div_pos (Nat.not_lt.mp hi) a.size_pos
      have hj' : 0 < j / a.size := Nat.div_pos (Nat.not_lt.mp hj) a.size_pos
      have hdiv : i / a.size = j / a.size := by omega
      rw [← Nat.div_add_mod i a.size, ← Nat.div_add_mod j a.size, hdiv, hmod]

/-- Every nonempty word over the alphabet is a short name. -/
theorem exists_shortName {word : Text} (hne : word ≠ []) (hword : ∀ c ∈ word, c ∈ a.letters) :
    ∃ i, a.shortName i = word := by
  induction word using List.reverseRecOn with
  | nil => exact absurd rfl hne
  | append_singleton word c ih =>
    obtain ⟨k, hk, rfl⟩ := a.exists_letter (hword c (by simp))
    by_cases hempty : word = []
    · subst hempty
      exact ⟨k, a.shortName_of_lt hk⟩
    · obtain ⟨i, rfl⟩ := ih hempty fun d hd => hword d (List.mem_append_left _ hd)
      exact ⟨(i + 1) * a.size + k, a.shortName_next i hk⟩

theorem letter_mem (i : Nat) : a.letter i ∈ a.letters :=
  List.get_mem _ _

/-- A short name is a word over the alphabet. -/
theorem mem_letters_of_mem_shortName (i : Nat) : ∀ c ∈ a.shortName i, c ∈ a.letters := by
  fun_induction Alphabet.shortName a i with
  | case1 i hi =>
    intro c hc
    rw [List.mem_singleton.mp hc]
    exact a.letter_mem i
  | case2 i hi ih =>
    intro c hc
    rcases List.mem_append.mp hc with hc | hc
    · exact ih c hc
    · rw [List.mem_singleton.mp hc]
      exact a.letter_mem i

/-! ## The order of the sequence -/

/-- The first letter stands before the second in the alphabet. -/
def Precedes (c d : Char) : Prop :=
  a.letters.idxOf c < a.letters.idxOf d

instance : Std.Asymm a.Precedes :=
  ⟨fun _ _ h => Nat.lt_asymm h⟩

theorem precedes_letter (hdistinct : a.letters.Nodup) {i j : Nat} (h : i % a.size < j % a.size) :
    a.Precedes (a.letter i) (a.letter j) := by
  have hindex : ∀ k, a.letters.idxOf (a.letter k) = k % a.size := fun k =>
    hdistinct.idxOf_getElem (k % a.size) (Nat.mod_lt k a.size_pos)
  rw [Precedes, hindex, hindex]
  exact h

/-- Words of one length stay in their order when letters are added to both. -/
theorem lex_append {r : Char → Char → Prop} {v w : Text} (h : List.Lex r v w)
    (hlength : v.length = w.length) (s t : Text) : List.Lex r (v ++ s) (w ++ t) := by
  induction h with
  | nil => cases hlength
  | rel hr => exact .rel hr
  | cons _ ih => exact .cons (ih (Nat.succ.inj hlength))

theorem shortlex_concat {r : Char → Char → Prop} {v w : Text} (h : List.Shortlex r v w) (c d : Char) :
    List.Shortlex r (v ++ [c]) (w ++ [d]) := by
  rcases List.shortlex_def.mp h with hlength | ⟨hlength, hlex⟩
  · exact .of_length_lt (by simpa using hlength)
  · exact .of_lex (by simpa using hlength) (lex_append hlex hlength [c] [d])

/-- A later name is longer, or as long and later in the order of the alphabet. The induction drops
the last letter of both names; what is left is two names that are no further apart, or one name
twice. -/
theorem shortlex_shortName (hdistinct : a.letters.Nodup) {i j : Nat} (h : i < j) :
    List.Shortlex a.Precedes (a.shortName i) (a.shortName j) := by
  fun_induction Alphabet.shortName a i generalizing j with
  | case1 i hi =>
    by_cases hj : j < a.size
    · rw [shortName_of_lt a hj, List.shortlex_singleton_iff]
      refine a.precedes_letter hdistinct ?_
      rwa [Nat.mod_eq_of_lt hi, Nat.mod_eq_of_lt hj]
    · exact .of_length_lt (a.one_lt_length_shortName (Nat.not_lt.mp hj))
  | case2 i hi ih =>
    have hj : a.size ≤ j := by omega
    have hround : i / a.size ≤ j / a.size := Nat.div_le_div_right (Nat.le_of_lt h)
    have hpos : 0 < i / a.size := Nat.div_pos (Nat.not_lt.mp hi) a.size_pos
    rw [shortName_of_le a hj]
    by_cases hlater : i / a.size < j / a.size
    · exact shortlex_concat (ih (by omega)) _ _
    · have hdiv : i / a.size = j / a.size := by omega
      have hmod : i % a.size < j % a.size := by
        have hi' := Nat.div_add_mod i a.size
        have hj' := Nat.div_add_mod j a.size
        rw [hdiv] at hi'
        omega
      rw [hdiv]
      refine List.Shortlex.append_left ?_ _
      rw [List.shortlex_singleton_iff]
      exact a.precedes_letter hdistinct hmod

/-- **The short names over distinct letters are all words over the alphabet, each once, by length and
then in the order of the alphabet.** There is a name at every index. -/
theorem shortName_enumerates (hdistinct : a.letters.Nodup) :
    (∀ i : Nat, shortNameOver a.letters i = .ok (a.shortName i)) ∧
      Set.BijOn a.shortName Set.univ {word | word ≠ [] ∧ ∀ c ∈ word, c ∈ a.letters} ∧
      ∀ i j, i < j ↔ List.Shortlex a.Precedes (a.shortName i) (a.shortName j) := by
  refine ⟨fun i => ?_, ⟨fun i _ => ?_, ?_, ?_⟩, fun i j => ⟨a.shortlex_shortName hdistinct, ?_⟩⟩
  · have hindex : ¬ (i : Int) < 0 := by omega
    rw [shortNameOver, if_neg hindex, ofLetters?, dif_neg a.nonempty]
    rfl
  · exact ⟨a.shortName_ne_nil i, a.mem_letters_of_mem_shortName i⟩
  · exact (a.shortName_injective hdistinct).injOn
  · rintro word ⟨hne, hword⟩
    obtain ⟨i, hi⟩ := a.exists_shortName hne hword
    exact ⟨i, Set.mem_univ i, hi⟩
  · intro h
    by_contra hlater
    rcases Nat.eq_or_lt_of_not_lt hlater with rfl | hlater
    · exact Std.Asymm.asymm _ _ h h
    · exact Std.Asymm.asymm _ _ h (a.shortlex_shortName hdistinct hlater)

/-- Over one letter, names are told by their length alone. -/
theorem shortName_enumerates_unary :
    let unary : Alphabet := ⟨['a'], by decide⟩
    unary.letters.Nodup ∧ (∃ i, unary.shortName i = ['a', 'a', 'a']) ∧
      List.Shortlex unary.Precedes (unary.shortName 1) (unary.shortName 2) := by
  intro unary
  have hdistinct : unary.letters.Nodup := List.nodup_singleton 'a'
  obtain ⟨-, hbijective, horder⟩ := unary.shortName_enumerates hdistinct
  refine ⟨hdistinct, ?_, (horder 1 2).mp (by decide)⟩
  have hword : ∀ c ∈ ['a', 'a', 'a'], c ∈ unary.letters := by
    intro c hc
    simpa [unary] using hc
  obtain ⟨i, -, hi⟩ := hbijective.surjOn ⟨List.cons_ne_nil _ _, hword⟩
  exact ⟨i, hi⟩

end WebTrim.Alphabet
