import Mathlib.Data.List.TakeWhile
import WebTrim.Stylesheet.Ident

/-!
# Reading identifiers back

An identifier ends where its raw form ends, whatever stands after it, as long as that begins with
the same character or with none. And what `escape` writes is read back as it was.

* `identLength_take_append` — the extent of an identifier depends on its raw form and on the one
  character after it.
* `Spells` — a raw form stands for a name in every context; `Spells.append` puts raw forms together.
* `spells_escape` — `escape` spells the name, a NUL becoming U+FFFD.
* `escape_round_trip` — **what `escape` writes is read back as it was, exactly if no identifier goes on
  behind it**.
-/

set_option autoImplicit false

namespace WebTrim.Stylesheet

open Text

/-! ## The extent of an escape -/

theorem escapeDigits_append {digits rest : Text} (hdigits : ∀ c ∈ digits, isHexDigit c = true)
    (hlength : digits.length ≤ 6)
    (hrest : digits.length = 6 ∨ ∀ c ∈ rest.head?, isHexDigit c = false) :
    escapeDigits (digits ++ rest) = digits := by
  unfold escapeDigits
  rw [List.take_append, List.take_of_length_le hlength,
    List.takeWhile_append_of_pos hdigits]
  rcases hrest with hfull | hhead
  · simp [hfull]
  · cases rest with
    | nil => simp
    | cons c rest =>
      have hc : isHexDigit c = false := hhead c rfl
      cases h : 6 - digits.length with
      | zero => simp
      | succ n => simp [hc]

/-- The digits of an escape begin the text. They are at most six, and a sixth digit or a character
that is no digit ends them. -/
theorem escapeDigits_split (t : Text) :
    ∃ rest, t = escapeDigits t ++ rest ∧ (∀ c ∈ escapeDigits t, isHexDigit c = true) ∧
      (escapeDigits t).length ≤ 6 ∧
      ((escapeDigits t).length = 6 ∨ ∀ c ∈ rest.head?, isHexDigit c = false) := by
  have hsix : (t.take 6).takeWhile isHexDigit ++ (t.take 6).dropWhile isHexDigit = t.take 6 :=
    List.takeWhile_append_dropWhile
  have hlength : (escapeDigits t).length ≤ 6 :=
    Nat.le_trans (List.takeWhile_sublist _).length_le (List.length_take_le ..)
  refine ⟨(t.take 6).dropWhile isHexDigit ++ t.drop 6, ?_, ?_, hlength, ?_⟩
  · rw [escapeDigits, ← List.append_assoc, hsix, List.take_append_drop]
  · intro c hc
    exact List.mem_takeWhile_imp hc
  · have hstop := List.head?_dropWhile_not isHexDigit (t.take 6)
    cases hmid : (t.take 6).dropWhile isHexDigit with
    | cons d mid =>
      rw [hmid] at hstop
      exact .inr fun c hc => by simpa using (Option.some.inj hc) ▸ hstop
    | nil =>
      -- all of the first six characters are digits, so fewer than six end the text
      rw [hmid, List.append_nil] at hsix
      by_cases hlong : 6 ≤ t.length
      · left
        rw [escapeDigits, hsix, List.length_take]
        omega
      · right
        rw [List.drop_eq_nil_of_le (by omega)]
        simp

/-- How far an escape reaches depends on its own characters and on the one after it, which may also be
missing. -/
theorem escapeLength_take_append {rest s : Text}
    (h : ∀ c ∈ s.head?, c ∈ (rest.drop (escapeLength rest)).head?) :
    escapeLength (rest.take (escapeLength rest) ++ s) = escapeLength rest := by
  obtain ⟨after, hsplit, hhex, hsix, hend⟩ := escapeDigits_split rest
  by_cases hnone : (escapeDigits rest).length = 0
  · cases rest with
    | nil =>
      cases s with
      | nil => rfl
      | cons c s => cases h c rfl
    | cons c rest =>
      have hdigits := List.length_eq_zero_iff.mp hnone
      have hc : isHexDigit c = false := by
        rcases hend with hfull | hhead
        · omega
        · rw [hdigits, List.nil_append] at hsplit
          exact hhead c (by rw [← hsplit]; rfl)
      have hone : escapeLength (c :: rest) = 1 := by simp [escapeLength, hnone]
      rw [hone]
      simp [escapeLength, escapeDigits, hc]
  · generalize hd : escapeDigits rest = digits at *
    subst hsplit
    by_cases hblank : after.head? = some ' '
    · obtain ⟨tail, rfl⟩ := List.head?_eq_some_iff.mp hblank
      have hlength : escapeLength (digits ++ ' ' :: tail) = (digits ++ [' ']).length := by
        simp [escapeLength, hd, hnone]
      have hread : escapeDigits (digits ++ ' ' :: s) = digits :=
        escapeDigits_append hhex hsix (.inr (by simp; decide))
      rw [hlength, List.append_cons digits ' ' tail, List.take_left, ← List.append_cons]
      simp [escapeLength, hread, hnone]
    · have hlength : escapeLength (digits ++ after) = digits.length := by
        simp [escapeLength, hd, hnone, hblank]
      rw [hlength, List.drop_left] at h
      have hread : escapeDigits (digits ++ s) = digits :=
        escapeDigits_append hhex hsix (hend.imp_right fun hhead c hc => hhead c (h c hc))
      have hblank' : s.head? ≠ some ' ' := fun hs => hblank (h ' ' hs)
      rw [hlength, List.take_left]
      simp [escapeLength, hread, hnone, hblank']

/-- An escape is one character, whichever it is, or digits and perhaps a space. -/
theorem escape_split {rest : Text} (hrest : rest ≠ []) :
    (∃ c after, rest = c :: after ∧ escapeDigits rest = [] ∧ escapeLength rest = 1) ∨
      ∃ digits space after, rest = digits ++ (space ++ after) ∧ escapeDigits rest = digits ∧
        digits ≠ [] ∧ (∀ c ∈ digits, isHexDigit c = true) ∧
        escapeLength rest = (digits ++ space).length ∧
        (space = [' '] ∨ space = [] ∧ after.head? ≠ some ' ') := by
  obtain ⟨after, hsplit, hhex, -, -⟩ := escapeDigits_split rest
  generalize hd : escapeDigits rest = digits at *
  by_cases hnone : digits = []
  · obtain ⟨c, after, rfl⟩ := List.exists_cons_of_ne_nil hrest
    exact .inl ⟨c, after, rfl, hnone, by simp [escapeLength, hd, hnone]⟩
  · subst hsplit
    right
    by_cases hspace : after.head? = some ' '
    · obtain ⟨after, rfl⟩ := List.head?_eq_some_iff.mp hspace
      exact ⟨digits, [' '], after, rfl, rfl, hnone, hhex, by simp [escapeLength, hd, hnone], .inl rfl⟩
    · exact ⟨digits, [], after, rfl, rfl, hnone, hhex, by simp [escapeLength, hd, hnone, hspace],
        .inr ⟨rfl, hspace⟩⟩

theorem escapeLength_le (rest : Text) : escapeLength rest ≤ rest.length := by
  obtain ⟨after, hsplit, -⟩ := escapeDigits_split rest
  have hlength : rest.length = (escapeDigits rest).length + after.length := by
    rw [← List.length_append, ← hsplit]
  unfold escapeLength
  simp only
  split
  · omega
  · split
    · rename_i hblank
      have : rest.drop (escapeDigits rest).length ≠ [] := by
        intro hnil
        rw [hnil] at hblank
        cases hblank
      have := List.length_pos_iff.mpr this
      rw [List.length_drop] at this
      omega
    · omega

/-! ## The extent of an identifier -/

theorem isIdentChar_of_isHexDigit {c : Char} (h : isHexDigit c = true) : isIdentChar c = true := by
  simp only [isHexDigit, Bool.or_eq_true, Bool.and_eq_true, decide_eq_true_eq, Char.le_def,
    UInt32.le_iff_toNat_le, Char.reduceVal] at h
  simp only [isIdentChar, isAsciiAlnum, isAsciiLetter, Bool.or_eq_true, Bool.and_eq_true,
    decide_eq_true_eq, Char.le_def, UInt32.le_iff_toNat_le, Char.reduceVal]
  rcases h with (hdigit | hlower) | hupper
  · simp [hdigit]
  · simp at hlower ⊢
    omega
  · simp at hupper ⊢
    omega

theorem isIdentChar_of_isAsciiLetter {c : Char} (h : isAsciiLetter c = true) :
    isIdentChar c = true := by
  simp [isIdentChar, isAsciiAlnum, h]

theorem identLength_cons (c : Char) (rest : Text) :
    identLength (c :: rest) =
      if c = '\\' then 1 + escapeLength rest + identLength (rest.drop (escapeLength rest))
      else if isIdentChar c then 1 + identLength rest
      else 0 := by
  rw [identLength]

@[simp] theorem identLength_nil : identLength [] = 0 := by
  rw [identLength]

/-- No identifier begins at a text exactly if the text begins with neither a backslash nor a
character of identifiers. -/
theorem identLength_eq_zero_iff (t : Text) :
    identLength t = 0 ↔ ∀ c ∈ t.head?, c ≠ '\\' ∧ isIdentChar c = false := by
  cases t with
  | nil => simp
  | cons c rest =>
    rw [identLength_cons]
    by_cases hslash : c = '\\'
    · simp [hslash]
    · by_cases hident : isIdentChar c = true <;> simp [hslash, hident]

/-- An identifier is read to its end. -/
theorem identLength_drop_identLength (t : Text) : identLength (t.drop (identLength t)) = 0 := by
  fun_induction identLength t with
  | case1 => simp
  | case2 rest ih =>
    rw [Nat.add_assoc, Nat.add_comm 1, List.drop_succ_cons, ← List.drop_drop]
    exact ih
  | case3 c rest hslash hident ih =>
    rw [Nat.add_comm, List.drop_succ_cons]
    exact ih
  | case4 c rest hslash hident =>
    rw [List.drop_zero, identLength_cons, if_neg hslash, if_neg hident]

/-- **The extent of an identifier depends on its raw form and on the one character after it**, which
may also be missing. -/
theorem identLength_take_append {t s : Text}
    (h : ∀ c ∈ s.head?, c ∈ (t.drop (identLength t)).head?) :
    identLength (t.take (identLength t) ++ s) = identLength t := by
  fun_induction identLength t with
  | case1 =>
    cases s with
    | nil => simp
    | cons c s => cases h c rfl
  | case2 rest ih =>
    generalize hn : identLength (rest.drop (escapeLength rest)) = n at *
    rw [Nat.add_assoc, Nat.add_comm 1, List.drop_succ_cons, ← List.drop_drop] at h
    rw [Nat.add_assoc, Nat.add_comm 1, List.take_succ_cons, List.take_add, List.cons_append,
      List.append_assoc, identLength_cons, if_pos rfl]
    have hhead : ∀ c ∈ ((rest.drop (escapeLength rest)).take n ++ s).head?,
        c ∈ (rest.drop (escapeLength rest)).head? := by
      cases n with
      | zero => simpa using h
      | succ n =>
        cases hdrop : rest.drop (escapeLength rest) with
        | nil => rw [hdrop] at hn; simp at hn
        | cons c tail => simp
    rw [escapeLength_take_append hhead]
    have hlength : (rest.take (escapeLength rest)).length = escapeLength rest := by
      rw [List.length_take]
      have := escapeLength_le rest
      omega
    rw [List.drop_append_of_le_length (by omega), List.drop_eq_nil_of_le (by omega),
      List.nil_append, ih h]
    omega
  | case3 c rest hslash hident ih =>
    rw [Nat.add_comm, List.drop_succ_cons] at h
    rw [Nat.add_comm, List.take_succ_cons, List.cons_append, identLength_cons, if_neg hslash,
      if_pos hident, ih h, Nat.add_comm]
  | case4 c rest hslash hident =>
    rw [List.take_zero, List.nil_append, identLength_eq_zero_iff]
    intro d hd
    cases h d hd
    exact ⟨hslash, by simpa using hident⟩

theorem identLength_le (t : Text) : identLength t ≤ t.length := by
  fun_induction identLength t with
  | case1 => exact Nat.le_refl 0
  | case2 rest ih =>
    have := escapeLength_le rest
    rw [List.length_drop] at ih
    rw [List.length_cons]
    omega
  | case3 c rest hslash hident ih =>
    rw [List.length_cons]
    omega
  | case4 => exact Nat.zero_le _

/-- A raw form alone is an identifier to its end. -/
theorem identLength_take_identLength (t : Text) :
    identLength (t.take (identLength t)) = (t.take (identLength t)).length := by
  have h := identLength_take_append (t := t) (s := []) (by simp)
  rw [List.append_nil] at h
  rw [h, List.length_take_of_le (identLength_le t)]

/-! ## Raw forms and the names they spell -/

theorem unescape_cons_of_ne {c : Char} (h : c ≠ '\\') (rest : Text) :
    unescape (c :: rest) = c :: unescape rest := by
  rw [unescape.eq_def]
  exact if_neg h

@[simp] theorem unescape_nil : unescape [] = [] := by
  rw [unescape]

/-- A raw form that is read as the name wherever it stands: all of it belongs to the identifier,
and nothing of what follows changes what it spells. -/
structure Spells (raw name : Text) : Prop where
  identLength : ∀ s, identLength (raw ++ s) = raw.length + identLength s
  unescape : ∀ s, unescape (raw ++ s) = name ++ unescape s

namespace Spells

theorem nil : Spells [] [] :=
  ⟨by simp, by simp⟩

theorem append {raw raw' name name' : Text} (h : Spells raw name) (h' : Spells raw' name') :
    Spells (raw ++ raw') (name ++ name') := by
  refine ⟨fun s => ?_, fun s => ?_⟩
  · rw [List.append_assoc, h.identLength, h'.identLength, List.length_append]
    omega
  · rw [List.append_assoc, h.unescape, h'.unescape, List.append_assoc]

theorem flatMap {spell : Char → Text} {read : Char → Char} (h : ∀ c, Spells (spell c) [read c])
    (name : Text) : Spells (name.flatMap spell) (name.map read) := by
  induction name with
  | nil => exact .nil
  | cons c name ih =>
    rw [List.flatMap_cons, List.map_cons]
    exact (h c).append ih

theorem identChar {c : Char} (h : isIdentChar c = true) : Spells [c] [c] := by
  have hslash : c ≠ '\\' := by
    rintro rfl
    revert h
    decide
  refine ⟨fun s => ?_, fun s => unescape_cons_of_ne hslash s⟩
  rw [List.singleton_append, identLength_cons, if_neg hslash, if_pos h]
  rfl

/-- A name of identifier characters is its own raw form. -/
theorem identChars {name : Text} (h : ∀ c ∈ name, isIdentChar c = true) :
    Spells name name := by
  induction name with
  | nil => exact .nil
  | cons c name ih =>
    exact (identChar (h c List.mem_cons_self)).append
      (ih fun d hd => h d (List.mem_cons_of_mem _ hd))

theorem escaped {c : Char} (h : isHexDigit c = false) : Spells ['\\', c] [c] := by
  have hdigits : ∀ s, escapeDigits (c :: s) = [] := by
    intro s
    simp [escapeDigits, h]
  refine ⟨fun s => ?_, fun s => ?_⟩
  · have hone : escapeLength (c :: s) = 1 := by simp [escapeLength, hdigits]
    simp only [List.cons_append, List.nil_append]
    rw [identLength_cons, if_pos rfl, hone]
    rfl
  · simp only [List.cons_append, List.nil_append]
    rw [Stylesheet.unescape, if_pos rfl]
    simp [hdigits]

/-- Hexadecimal digits between a backslash and a space spell the character with that number. -/
theorem number {digits : Text} (hdigits : ∀ c ∈ digits, isHexDigit c = true)
    (hlength : digits.length ≤ 6) (hsome : digits ≠ []) :
    Spells ('\\' :: digits ++ [' ']) [escapedChar (hexNumber digits)] := by
  have hread : ∀ s, escapeDigits (digits ++ ' ' :: s) = digits := fun s =>
    escapeDigits_append hdigits hlength (.inr (by simp; decide))
  refine ⟨fun s => ?_, fun s => ?_⟩
  · have hend : escapeLength (digits ++ ' ' :: s) = digits.length + 1 := by
      simp [escapeLength, hread, hsome]
    simp only [List.cons_append, List.append_assoc, List.nil_append]
    rw [identLength_cons, if_pos rfl, hend, ← List.drop_drop, List.drop_left]
    simp
    omega
  · simp only [List.cons_append, List.append_assoc, List.nil_append]
    rw [unescape.eq_def]
    simp [hread, hsome, dropEscapeBlank]

end Spells

/-! ## The characters of a raw form -/

/-- Where an identifier goes on, the digits of an escape take no blank but the space with them. -/
theorem dropEscapeBlank_of_ident {after : Text} (hspace : after.head? ≠ some ' ')
    (hident : after = [] ∨ identLength after ≠ 0) : dropEscapeBlank after = after := by
  cases after with
  | nil => rfl
  | cons c after =>
    refine if_neg fun hblank => ?_
    have hzero : identLength (c :: after) = 0 := by
      rw [identLength_eq_zero_iff]
      rintro d ⟨⟩
      have hne : c ≠ ' ' := fun hc => hspace (congrArg some hc)
      simp only [List.mem_cons, hne, List.not_mem_nil, or_false, false_or] at hblank
      rcases hblank with rfl | rfl | rfl | rfl <;> decide
    simp [hzero] at hident

/-- An escape inside an identifier is read as one character; it is written with that character, or with
digits and a space. -/
theorem unescape_backslash {rest : Text} (hrest : rest ≠ [])
    (hnext : rest.drop (escapeLength rest) = [] ∨ identLength (rest.drop (escapeLength rest)) ≠ 0) :
    ∃ d, unescape ('\\' :: rest) = d :: unescape (rest.drop (escapeLength rest)) ∧
      ∀ c ∈ rest.take (escapeLength rest), isIdentChar c = true ∨ c = ' ' ∨ c = d := by
  rw [unescape.eq_def]
  rcases escape_split hrest with ⟨d, after, rfl, hnone, hone⟩ |
    ⟨digits, space, after, rfl, hd, hne, hhex, hlength, hspace⟩
  · exact ⟨d, by simp [hnone, hone], by simp [hone]⟩
  · rw [hlength, ← List.append_assoc, List.drop_left] at hnext
    rw [hlength, ← List.append_assoc, List.drop_left, List.take_left, List.append_assoc]
    refine ⟨escapedChar (hexNumber digits), ?_, fun c hc => ?_⟩
    · have hblank : dropEscapeBlank (space ++ after) = after := by
        rcases hspace with rfl | ⟨rfl, hspace⟩
        · rfl
        · exact dropEscapeBlank_of_ident hspace hnext
      simp [hd, hne, hblank]
    · rcases List.mem_append.mp hc with hc | hc
      · exact .inl (isIdentChar_of_isHexDigit (hhex c hc))
      · rcases hspace with rfl | ⟨rfl, -⟩
        · exact .inr (.inl (List.mem_singleton.mp hc))
        · cases hc

/-- The characters of a raw form are those of identifiers, backslashes, the spaces of its escapes, and
characters of the name. -/
theorem mem_raw {raw : Text} (h : identLength raw = raw.length) :
    ∀ c ∈ raw, isIdentChar c = true ∨ c = '\\' ∨ c = ' ' ∨ c ∈ unescape raw := by
  fun_induction identLength raw with
  | case1 => simp
  | case2 rest ih =>
    have hle := escapeLength_le rest
    have hend : identLength (rest.drop (escapeLength rest)) =
        (rest.drop (escapeLength rest)).length := by
      rw [List.length_cons] at h
      rw [List.length_drop]
      omega
    cases rest with
    | nil => simp
    | cons d tail =>
      obtain ⟨e, hread, htake⟩ := @unescape_backslash (d :: tail) (by simp) (by
        rw [hend]
        exact (eq_or_ne _ []).imp_right (mt List.length_eq_zero_iff.mp))
      rw [hread]
      have := ih hend
      intro c hc
      rw [← List.take_append_drop (escapeLength (d :: tail)) (d :: tail)] at hc
      grind
  | case3 c rest hslash hident ih =>
    rw [List.length_cons] at h
    have := ih (by omega)
    rw [unescape_cons_of_ne hslash]
    grind
  | case4 => cases h

/-! ## Escaping -/

theorem escapedChar_toNat {c : Char} (h : c.toNat ≠ 0) : escapedChar c.toNat = c := by
  unfold escapedChar
  rw [if_neg h, dif_pos (show c.toNat.isValidChar from c.valid)]
  rfl

theorem hexOfNat_of_lt : ∀ n < 128,
    (hexOfNat n).all isHexDigit = true ∧ (hexOfNat n).length ≤ 6 ∧ hexOfNat n ≠ [] ∧
      hexNumber (hexOfNat n) = n := by
  decide

theorem spells_hexEscape {c : Char} (hzero : c.toNat ≠ 0) (hascii : c.toNat < 128) :
    Spells (hexEscape c) [c] := by
  obtain ⟨hdigits, hlength, hsome, hnumber⟩ := hexOfNat_of_lt c.toNat hascii
  have h := Spells.number (List.all_eq_true.mp hdigits) hlength hsome
  rwa [hnumber, escapedChar_toNat hzero] at h

/-- What an escaped character is read back as. -/
def readBack (c : Char) : Char :=
  if c.toNat = 0 then replacementChar else c

theorem spells_escapeChar (c : Char) : Spells (escapeChar c) [readBack c] := by
  unfold escapeChar readBack
  split
  · exact .identChar (by decide)
  · rename_i hzero
    split
    · rename_i hcontrol
      simp only [Bool.or_eq_true, decide_eq_true_eq] at hcontrol
      exact spells_hexEscape hzero (by omega)
    · split
      · rename_i hident
        exact .identChar hident
      · rename_i hident
        refine .escaped ?_
        rw [← Bool.not_eq_true]
        exact fun hhex => hident (isIdentChar_of_isHexDigit hhex)

theorem toNat_of_isAsciiDigit {c : Char} (h : isAsciiDigit c = true) :
    48 ≤ c.toNat ∧ c.toNat ≤ 57 := by
  simpa [isAsciiDigit, Char.le_def, UInt32.le_iff_toNat_le] using h

theorem toNat_of_isAsciiLetter {c : Char} (h : isAsciiLetter c = true) :
    65 ≤ c.toNat ∧ c.toNat ≤ 122 := by
  have hrange : 97 ≤ c.toNat ∧ c.toNat ≤ 122 ∨ 65 ≤ c.toNat ∧ c.toNat ≤ 90 := by
    simpa [isAsciiLetter, Char.le_def, UInt32.le_iff_toNat_le] using h
  omega

theorem spells_escapeLeading (c : Char) : Spells (escapeLeading c) [readBack c] := by
  unfold escapeLeading
  split
  · rename_i hdigit
    have hrange := toNat_of_isAsciiDigit hdigit
    rw [readBack, if_neg (by omega)]
    exact spells_hexEscape (by omega) (by omega)
  · exact spells_escapeChar c

/-- **Escaping spells the name**, each NUL becoming U+FFFD. -/
theorem spells_escape (name : Text) : Spells (escape name) (name.map readBack) := by
  fun_cases escape name with
  | case1 => exact .nil
  | case2 => exact .escaped (by decide)
  | case3 d rest =>
    exact (Spells.identChar (by decide)).append
      ((spells_escapeLeading d).append (.flatMap spells_escapeChar rest))
  | case4 c d rest hdash =>
    have hrest := Spells.flatMap spells_escapeChar (d :: rest)
    rw [List.append_assoc]
    exact (spells_escapeLeading c).append hrest
  | case5 c hdash => exact spells_escapeLeading c

theorem map_readBack {name : Text} (h : ∀ c ∈ name, c.toNat ≠ 0) : name.map readBack = name := by
  refine (List.map_congr_left fun c hc => ?_).trans (List.map_id name)
  exact if_neg (h c hc)

/-! ## Reading an escaped name -/

theorem escape_ne_nil {name : Text} (h : name ≠ []) : escape name ≠ [] := by
  intro hnil
  have hread := (spells_escape name).unescape []
  rw [hnil, List.append_nil, unescape_nil, List.append_nil] at hread
  exact h (List.map_eq_nil_iff.mp hread.symm)

/-- A raw form is read as an identifier up to its end exactly if it is not empty and no identifier
goes on behind it. -/
theorem Spells.readIdent?_iff {raw name : Text} (h : Spells raw name) (rest : Text) :
    readIdent? (raw ++ rest) = some (raw, rest) ↔ raw ≠ [] ∧ Stylesheet.identLength rest = 0 := by
  have hlength := h.identLength rest
  unfold readIdent?
  constructor
  · intro hread
    split at hread
    · cases hread
    · rename_i n hpos
      obtain ⟨-, hdrop⟩ := Prod.mk.inj (Option.some.inj hread)
      -- no identifier goes on behind the end of one
      have hend := identLength_drop_identLength (raw ++ rest)
      rw [hdrop] at hend
      refine ⟨fun hraw => hpos ?_, hend⟩
      rw [hlength, hraw, hend]
      rfl
  · rintro ⟨hraw, hend⟩
    rw [hend, Nat.add_zero] at hlength
    have := List.length_pos_iff.mpr hraw
    split
    · omega
    · rw [hlength, List.take_left, List.drop_left]

/-- **What `escape` writes is read back as it was.** The identifier that begins there is all of it, and
no more, exactly if the name is not empty and what stands behind begins with neither a character of
identifiers nor a backslash; and it reads as the name, each NUL becoming U+FFFD. -/
theorem escape_round_trip (name rest : Text) :
    (readIdent? (escape name ++ rest) = some (escape name, rest) ↔
      name ≠ [] ∧ ∀ c ∈ rest.head?, c ≠ '\\' ∧ isIdentChar c = false) ∧
      unescape (escape name) = name.map readBack := by
  refine ⟨?_, ?_⟩
  · rw [(spells_escape name).readIdent?_iff, ← identLength_eq_zero_iff]
    refine and_congr_left fun _ => ⟨?_, escape_ne_nil⟩
    rintro hne rfl
    exact hne rfl
  · have hread := (spells_escape name).unescape []
    rwa [List.append_nil, unescape_nil, List.append_nil] at hread

end WebTrim.Stylesheet
