import WebTrim.Text.Basic

/-!
# Short names

The names over an alphabet in order of length, and within one length in alphabet order: with the
letters `a` to `z`, `a`, `b`, …, `z`, `aa`, `ab`, and so on.

* `Alphabet.shortName` — the name at an index.
* `Alphabet.nameCount` — how many names have at most a given length.
* `lt_length_shortName` — from that index on, all names are longer.
-/

set_option autoImplicit false

namespace WebTrim

/-- The letters of which short names are made; at least one. -/
structure Alphabet where
  letters : Text
  nonempty : letters ≠ []

namespace Alphabet

/-- The number of letters. -/
def size (a : Alphabet) : Nat :=
  a.letters.length

theorem size_pos (a : Alphabet) : 0 < a.size :=
  List.length_pos_iff.mpr a.nonempty

/-- The letter at an index, counted around the alphabet. -/
def letter (a : Alphabet) (i : Nat) : Char :=
  a.letters.get ⟨i % a.size, Nat.mod_lt i a.size_pos⟩

/-- The name at an index. -/
def shortName (a : Alphabet) (i : Nat) : Text :=
  if i < a.size then [a.letter i] else a.shortName (i / a.size - 1) ++ [a.letter i]
termination_by i
decreasing_by
  have := a.size_pos
  have : i / a.size ≤ i := Nat.div_le_self i a.size
  omega

/-- The number of names of length at most `length`. -/
def nameCount (a : Alphabet) : Nat → Nat
  | 0 => 0
  | length + 1 => a.size * (a.nameCount length + 1)

theorem shortName_ne_nil (a : Alphabet) (i : Nat) : a.shortName i ≠ [] := by
  rw [shortName]
  split <;> simp

/-- From the index `nameCount length` on, every name is longer than `length`. -/
theorem lt_length_shortName (a : Alphabet) (length : Nat) :
    ∀ i, a.nameCount length ≤ i → length < (a.shortName i).length := by
  induction length with
  | zero => exact fun i _ => List.length_pos_iff.mpr (a.shortName_ne_nil i)
  | succ length ih =>
    intro i hi
    have hpos := a.size_pos
    have hdiv : a.nameCount length + 1 ≤ i / a.size := by
      rw [Nat.le_div_iff_mul_le hpos, Nat.mul_comm]
      exact hi
    have hge : ¬ i < a.size := by
      intro hlt
      rw [Nat.div_eq_of_lt hlt] at hdiv
      omega
    rw [shortName, if_neg hge, List.length_append]
    have := ih (i / a.size - 1) (by omega)
    simp only [List.length_cons, List.length_nil]
    omega

/-- The alphabet of the given letters, unless there are none. -/
def ofLetters? (letters : Text) : Option Alphabet :=
  if h : letters = [] then none else some ⟨letters, h⟩

/-- The ASCII letters, lower case first. -/
def latin : Alphabet :=
  ⟨"abcdefghijklmnopqrstuvwxyzABCDEFGHIJKLMNOPQRSTUVWXYZ".toList, by decide⟩

/-- The lower case ASCII letters and the digits. -/
def lowerDigits : Alphabet :=
  ⟨"abcdefghijklmnopqrstuvwxyz0123456789".toList, by decide⟩

end Alphabet

/-- Why there is no short name. -/
inductive NamingError where
  | negativeIndex
  | emptyAlphabet
  | unknownCategory (name : Text)
  deriving DecidableEq, Repr

/-- The name at an index over arbitrary letters. A negative index is refused first. -/
def shortNameOver (letters : Text) (index : Int) : Except NamingError Text :=
  if index < 0 then .error .negativeIndex
  else
    match Alphabet.ofLetters? letters with
    | some a => .ok (a.shortName index.toNat)
    | none => .error .emptyAlphabet

end WebTrim
