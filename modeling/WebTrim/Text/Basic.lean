/-!
# Text

A text is a list of code points. Offsets and lengths count code points; sizes count UTF-8 bytes.

* `Text.byteLength` — size in UTF-8 bytes, additive over concatenation (`byteLength_append`).
* `Text.occursIn` — substring test, `occursIn_iff` gives the split it stands for.
* `Text.cut?` — first occurrence of a word, with the text before and after it.
-/

set_option autoImplicit false

namespace WebTrim

/-- A text: its code points in order. -/
abbrev Text := List Char

namespace Text

/-- Size in UTF-8 bytes. -/
def byteLength (t : Text) : Nat :=
  t.foldr (fun c size => c.utf8Size + size) 0

@[simp] theorem byteLength_nil : byteLength [] = 0 := rfl

@[simp] theorem byteLength_cons (c : Char) (t : Text) :
    byteLength (c :: t) = c.utf8Size + byteLength t := rfl

@[simp] theorem byteLength_append (s t : Text) :
    byteLength (s ++ t) = byteLength s + byteLength t := by
  induction s with
  | nil => simp
  | cons c s ih => simp [ih, Nat.add_assoc]

/-- Does `needle` stand somewhere in the text? -/
def occursIn (needle : Text) : Text → Bool
  | [] => needle.isEmpty
  | c :: rest => needle.isPrefixOf (c :: rest) || occursIn needle rest

theorem occursIn_iff (needle t : Text) :
    occursIn needle t = true ↔ ∃ before after, t = before ++ needle ++ after := by
  induction t with
  | nil =>
    constructor
    · intro h
      exact ⟨[], [], by simpa [occursIn] using h⟩
    · rintro ⟨before, after, h⟩
      simp at h
      simp [occursIn, h.2.1]
  | cons c rest ih =>
    rw [occursIn, Bool.or_eq_true, ih, List.isPrefixOf_iff_prefix]
    constructor
    · rintro (⟨after, h⟩ | ⟨before, after, h⟩)
      · exact ⟨[], after, by simp [h]⟩
      · exact ⟨c :: before, after, by simp [h]⟩
    · rintro ⟨before, after, h⟩
      cases before with
      | nil => exact .inl ⟨after, by simpa using h.symm⟩
      | cons b before =>
        simp at h
        exact .inr ⟨before, after, by simp [h.2]⟩

/-- The text before and after the first occurrence of `needle`. -/
def cut? (needle : Text) : Text → Option (Text × Text)
  | [] => if needle.isEmpty then some ([], []) else none
  | c :: rest =>
    match needle.isPrefixOf? (c :: rest) with
    | some after => some ([], after)
    | none => (cut? needle rest).map fun (before, after) => (c :: before, after)

/-- The longest beginning of a text whose characters all satisfy `p`, and the rest. -/
def splitWhile (p : Char → Bool) (t : Text) : Text × Text :=
  (t.takeWhile p, t.dropWhile p)

theorem splitWhile_append (p : Char → Bool) (t : Text) :
    (splitWhile p t).1 ++ (splitWhile p t).2 = t :=
  List.takeWhile_append_dropWhile

/-- The number of characters up to the end of the first occurrence of `needle`, or of the whole text
when there is none. -/
def lengthThrough (needle t : Text) : Nat :=
  match cut? needle t with
  | some (before, _) => before.length + needle.length
  | none => t.length

/-- Decimal digits of a natural number. -/
def ofNat (n : Nat) : Text :=
  Nat.toDigits 10 n

/-- Decimal digits of an integer, with a leading minus sign when it is negative. -/
def ofInt (n : Int) : Text :=
  if n < 0 then '-' :: ofNat n.natAbs else ofNat n.natAbs

/-- Lowercase hexadecimal digits of a natural number. -/
def hexOfNat (n : Nat) : Text :=
  Nat.toDigits 16 n

/-- The parts of a text between separators; at least one. -/
def fields (separator : Char) : Text → List Text
  | [] => [[]]
  | c :: rest =>
    if c = separator then [] :: fields separator rest
    else
      match fields separator rest with
      | [] => [[c]]
      | head :: tail => (c :: head) :: tail

/-- The texts of a list, with `separator` between neighbours. -/
def join (separator : Text) : List Text → Text
  | [] => []
  | [t] => t
  | t :: u :: rest => t ++ separator ++ join separator (u :: rest)

/-- Order of texts by code points, a proper beginning first. -/
def le : Text → Text → Bool
  | [], _ => true
  | _ :: _, [] => false
  | a :: s, b :: t => if a = b then le s t else a.val < b.val

/-- The texts of a list in code point order. -/
def sorted (ts : List Text) : List Text :=
  ts.mergeSort le

/-- The members of a list, each kept at its first place. -/
def distinct {α : Type} [BEq α] (xs : List α) : List α :=
  (xs.foldl (fun seen x => if seen.contains x then seen else x :: seen) []).reverse

/-- The text without a last newline, if it has one. Patterns that ask for the end of a text also
accept one newline there. -/
def dropFinalNewline (t : Text) : Text :=
  if t.getLast? = some '\n' then t.dropLast else t

end Text

end WebTrim
