import WebTrim.Naming.Allocate
import WebTrim.Proofs.Stylesheet.Selector

/-!
# The escapes of a text

A backslash and what follows it stand for one character. A name is never larger than its spelling
unless an escape stands for U+FFFD, so it matters which characters the escapes of a text stand for,
and that renaming adds none.

* `escapes` — the characters that the escapes of a text stand for.
* `escapes_subset_append`, `escapes_drop_identLength` — cutting a text where no escape is cut adds
  none.
* `byteLength_unescape_le` — **a name is not larger than its spelling**.
* `Edited` — single characters are kept, and pieces that begin with a mark swapped for others;
  `Edited.escapes_subset` says that the new text has no other escapes.
-/

set_option autoImplicit false

namespace WebTrim.Stylesheet

open Text

/-! ## Escapes -/

/-- The character that an escape stands for whose backslash has been read, unless the text ends. -/
def escapedBy? (t : Text) : Option Char :=
  if (escapeDigits t).isEmpty then t.head? else some (escapedChar (hexNumber (escapeDigits t)))

/-- The characters that the escapes of a text stand for. -/
def escapes : Text → List Char
  | [] => []
  | [_] => []
  | c :: d :: rest =>
    if c = '\\' then (escapedBy? (d :: rest)).toList ++ escapes rest else escapes (d :: rest)

theorem escapes_cons_of_ne {c : Char} (h : c ≠ '\\') (t : Text) : escapes (c :: t) = escapes t := by
  cases t with
  | nil => rfl
  | cons d t => simp [escapes, h]

theorem escapes_backslash (t : Text) :
    escapes ('\\' :: t) = (escapedBy? t).toList ++ escapes (t.drop 1) := by
  cases t with
  | nil => rfl
  | cons d t => simp [escapes]

/-- Characters without a backslash add no escape. -/
theorem escapes_append_of_not_mem {before : Text} (h : '\\' ∉ before) (t : Text) :
    escapes (before ++ t) = escapes t := by
  induction before with
  | nil => rfl
  | cons c before ih =>
    rw [List.mem_cons, not_or] at h
    rw [List.cons_append, escapes_cons_of_ne (Ne.symm h.1), ih h.2]

/-- Dropping the character behind a backslash with it drops one escape. -/
theorem escapes_drop_one_subset (t : Text) : escapes (t.drop 1) ⊆ escapes ('\\' :: t) := by
  rw [escapes_backslash]
  exact List.subset_append_right _ _

/-- After a character other than a backslash no escape is open, so the escapes of the text after it
are escapes of the whole. -/
theorem escapes_subset_append {before : Text} {last : Char} (hlast : last ≠ '\\') (t : Text) :
    escapes t ⊆ escapes (before ++ last :: t) := by
  fun_induction escapes before with
  | case1 => rw [List.nil_append, escapes_cons_of_ne hlast]; exact List.Subset.refl _
  | case2 c =>
    rw [List.singleton_append]
    by_cases hc : c = '\\'
    · subst hc
      exact escapes_drop_one_subset (last :: t)
    · rw [escapes_cons_of_ne hc, escapes_cons_of_ne hlast]
      exact List.Subset.refl _
  | case3 d rest ih =>
    exact List.Subset.trans ih (escapes_drop_one_subset (d :: (rest ++ last :: t)))
  | case4 c d rest hc ih =>
    rw [List.cons_append, escapes_cons_of_ne hc]
    exact ih

/-! ## Cutting a text -/

theorem escapeDigits_append_of_head? {s t : Text} (h : ∀ c ∈ t.head?, isHexDigit c = false) :
    escapeDigits (s ++ t) = escapeDigits s := by
  obtain ⟨after, hsplit, hhex, hsix, hend⟩ := escapeDigits_split s
  conv_lhs => rw [hsplit, List.append_assoc]
  refine escapeDigits_append hhex hsix (hend.imp_right fun hafter => ?_)
  cases after with
  | nil => exact h
  | cons c after => exact hafter

/-- What an escape stands for is settled by the characters before one that is no digit. -/
theorem escapedBy?_append {s t : Text} (hs : s ≠ []) (h : ∀ c ∈ t.head?, isHexDigit c = false) :
    escapedBy? (s ++ t) = escapedBy? s := by
  unfold escapedBy?
  rw [escapeDigits_append_of_head? h, List.head?_append_of_ne_nil s hs]

/-- The escapes of a beginning after which no digit follows are escapes of the whole. -/
theorem escapes_subset_of_head? {s t : Text} (h : ∀ c ∈ t.head?, isHexDigit c = false) :
    escapes s ⊆ escapes (s ++ t) := by
  fun_induction escapes s with
  | case1 => exact List.nil_subset _
  | case2 c => exact List.nil_subset _
  | case3 d rest ih =>
    rw [List.cons_append, escapes_backslash, escapedBy?_append (by simp) h]
    exact List.append_subset.mpr
      ⟨List.subset_append_left _ _, List.Subset.trans ih (List.subset_append_right _ _)⟩
  | case4 c d rest hc ih =>
    rw [List.cons_append, escapes_cons_of_ne hc]
    exact ih

theorem isHexDigit_ne_backslash {c : Char} (h : isHexDigit c = true) : c ≠ '\\' := by
  rintro rfl
  revert h
  decide

/-- The digits of an escape hold no further one, and neither does a blank after them. -/
theorem escapes_drop_escapeDigits (t : Text) :
    escapes (t.drop (escapeDigits t).length) = escapes t := by
  obtain ⟨after, hsplit, hhex, -⟩ := escapeDigits_split t
  have hnone : '\\' ∉ escapeDigits t := fun h => isHexDigit_ne_backslash (hhex _ h) rfl
  generalize escapeDigits t = digits at hsplit hnone
  rw [hsplit, List.drop_left, escapes_append_of_not_mem hnone]

theorem escapes_dropEscapeBlank (t : Text) : escapes (dropEscapeBlank t) = escapes t := by
  cases t with
  | nil => rfl
  | cons c t =>
    rw [dropEscapeBlank]
    split
    · rename_i hblank
      refine (escapes_cons_of_ne ?_ t).symm
      rintro rfl
      revert hblank
      decide
    · rfl

/-- Hexadecimal digits right after a backslash: dropping the first of them loses no escape. -/
theorem escapes_drop_one_of_digits {t : Text} (h : escapeDigits t ≠ []) :
    escapes (t.drop 1) = escapes t := by
  cases t with
  | nil => rfl
  | cons c t =>
    have hc : isHexDigit c = true := by
      by_contra hc
      exact h (by simp [escapeDigits, hc])
    exact (escapes_cons_of_ne (isHexDigit_ne_backslash hc) t).symm

theorem escapes_drop_escapeLength (t : Text) :
    escapes (t.drop (escapeLength t)) ⊆ escapes ('\\' :: t) := by
  refine List.Subset.trans ?_ (escapes_drop_one_subset t)
  unfold escapeLength
  simp only [List.length_eq_zero_iff]
  split
  · -- a single character
    cases t with
    | nil => exact List.Subset.refl _
    | cons c t => simp
  · rename_i hdigits
    rw [escapes_drop_one_of_digits hdigits]
    split
    · -- the space after the digits goes too
      rename_i hspace
      rw [← List.drop_drop, ← escapes_drop_escapeDigits t]
      cases hafter : t.drop (escapeDigits t).length with
      | nil => exact List.Subset.refl _
      | cons c after =>
        rw [hafter, List.head?_cons, Option.some.injEq] at hspace
        rw [hspace, escapes_cons_of_ne (by decide)]
        exact List.Subset.refl _
    · rw [escapes_drop_escapeDigits]
      exact List.Subset.refl _

/-- **An identifier cuts no escape**: the escapes after it are escapes of the whole. -/
theorem escapes_drop_identLength (t : Text) : escapes (t.drop (identLength t)) ⊆ escapes t := by
  fun_induction identLength t with
  | case1 => exact List.Subset.refl _
  | case2 rest ih =>
    rw [Nat.add_assoc, Nat.add_comm 1, List.drop_succ_cons, ← List.drop_drop]
    exact List.Subset.trans ih (escapes_drop_escapeLength rest)
  | case3 c rest hslash hident ih =>
    rw [Nat.add_comm 1, List.drop_succ_cons, escapes_cons_of_ne hslash]
    exact ih
  | case4 c rest hslash hident => exact List.Subset.refl _

/-- The escapes of an identifier are escapes of the text that it begins. -/
theorem escapes_take_identLength (t : Text) : escapes (t.take (identLength t)) ⊆ escapes t := by
  have hend := (identLength_eq_zero_iff _).mp (identLength_drop_identLength t)
  have hnodigit : ∀ c ∈ (t.drop (identLength t)).head?, isHexDigit c = false := by
    intro c hc
    rw [← Bool.not_eq_true]
    intro hhex
    have := (hend c hc).2
    rw [isIdentChar_of_isHexDigit hhex] at this
    cases this
  have h := escapes_subset_of_head? (s := t.take (identLength t)) hnodigit
  rwa [List.take_append_drop] at h

/-- A search that goes through a word which ends in no backslash cuts no escape. -/
theorem escapes_drop_lengthThrough (needle : Text) {last : Char} (hlast : last ≠ '\\') (t : Text) :
    escapes (t.drop (lengthThrough (needle ++ [last]) t)) ⊆ escapes t := by
  cases hcut : cut? (needle ++ [last]) t with
  | none =>
    have hlength : lengthThrough (needle ++ [last]) t = t.length := by simp [lengthThrough, hcut]
    rw [hlength, List.drop_length]
    exact List.nil_subset _
  | some pair =>
    obtain ⟨before, after⟩ := pair
    obtain ⟨ht, -⟩ := cut?_eq_some hcut
    have hlength : lengthThrough (needle ++ [last]) t = (before ++ (needle ++ [last])).length := by
      simp [lengthThrough, hcut]
    have hdrop : t.drop (lengthThrough (needle ++ [last]) t) = after := by
      rw [hlength, ht, List.drop_left]
    have hwhole : t = (before ++ needle) ++ last :: after := by simpa using ht
    rw [hdrop, hwhole]
    exact escapes_subset_append hlast after

/-! ## Names and their spellings -/

theorem hexValue_lt (c : Char) : hexValue c < 16 := by
  simp only [hexValue, isAsciiDigit, Bool.and_eq_true, decide_eq_true_eq, Char.le_def,
    UInt32.le_iff_toNat_le, Char.reduceVal, UInt32.reduceToNat, Char.toNat]
  split_ifs <;> omega

/-- Two digits write a number below 256. -/
theorem hexNumber_lt {digits : Text} (h : digits.length ≤ 2) : hexNumber digits < 256 := by
  match digits, h with
  | [], _ => decide
  | [c], _ =>
    have hc := hexValue_lt c
    simp only [hexNumber, List.foldl_cons, List.foldl_nil]
    omega
  | [c, d], _ =>
    have hc := hexValue_lt c
    have hd := hexValue_lt d
    simp only [hexNumber, List.foldl_cons, List.foldl_nil]
    omega

theorem utf8Size_le_two {c : Char} (h : c.toNat ≤ 0x7FF) : c.utf8Size ≤ 2 := by
  have hval : c.val ≤ 0x7FF := by simpa [UInt32.le_iff_toNat_le] using h
  simp only [Char.utf8Size]
  split
  · omega
  · split
    · exact Nat.le_refl _
    · rename_i hlarge
      exact absurd hval hlarge

/-- A number that stands for no U+FFFD stands for the character it numbers. -/
theorem toNat_escapedChar {n : Nat} (h : escapedChar n ≠ replacementChar) :
    (escapedChar n).toNat = n := by
  unfold escapedChar at h ⊢
  by_cases hzero : n = 0
  · rw [if_pos hzero] at h
    exact absurd rfl h
  · rw [if_neg hzero] at h ⊢
    by_cases hvalid : n.isValidChar
    · rw [dif_pos hvalid]
      rfl
    · rw [dif_neg hvalid] at h
      exact absurd rfl h

/-- The character that an escaped number stands for is not larger than the backslash and the
digits. -/
theorem utf8Size_escapedChar_le {digits : Text} (hne : digits ≠ [])
    (hreplace : escapedChar (hexNumber digits) ≠ replacementChar) :
    (escapedChar (hexNumber digits)).utf8Size ≤ digits.length + 1 := by
  have hfour := (escapedChar (hexNumber digits)).utf8Size_le_four
  have hpos := List.length_pos_iff.mpr hne
  by_cases hlong : 3 ≤ digits.length
  · omega
  · have hsmall : hexNumber digits < 256 := hexNumber_lt (by omega)
    have htoNat := toNat_escapedChar hreplace
    have := utf8Size_le_two (c := escapedChar (hexNumber digits)) (by omega)
    omega

theorem byteLength_dropEscapeBlank_le (t : Text) :
    byteLength (dropEscapeBlank t) ≤ byteLength t := by
  cases t with
  | nil => exact Nat.le_refl _
  | cons c t =>
    rw [dropEscapeBlank]
    split
    · rw [byteLength_cons]
      omega
    · exact Nat.le_refl _

/-- **A name is not larger than its spelling**, unless an escape stands for U+FFFD. -/
theorem byteLength_unescape_le {raw : Text} (h : replacementChar ∉ escapes raw) :
    byteLength (unescape raw) ≤ byteLength raw := by
  fun_induction unescape raw with
  | case1 => exact Nat.le_refl _
  | case2 => exact Nat.le_refl _
  | case3 d rest digits hdigits ih =>
    have hrest := ih fun hmem => h (escapes_drop_one_subset (d :: rest) hmem)
    simp only [byteLength_cons]
    omega
  | case4 rest digits hdigits ih =>
    have hne : digits ≠ [] := by simpa using hdigits
    rw [escapes_backslash, List.mem_append, not_or, escapes_drop_one_of_digits hne] at h
    have hchar : escapedChar (hexNumber digits) ≠ replacementChar := fun heq =>
      h.1 (by simp [escapedBy?, digits, hdigits, ← heq])
    have hsize := utf8Size_escapedChar_le hne hchar
    have htail := ih (by rw [escapes_dropEscapeBlank, escapes_drop_escapeDigits]; exact h.2)
    have hblank := byteLength_dropEscapeBlank_le (rest.drop digits.length)
    obtain ⟨after, hsplit, -⟩ := escapeDigits_split rest
    have hdrop : rest.drop digits.length = after := by
      change rest = digits ++ after at hsplit
      rw [hsplit, List.drop_left]
    have hbytes : byteLength rest = byteLength digits + byteLength after := by
      rw [← byteLength_append]
      exact congrArg byteLength hsplit
    have hlength := Naming.length_le_byteLength digits
    have hslash : '\\'.utf8Size = 1 := rfl
    rw [hdrop] at htail hblank
    rw [hdrop, byteLength_cons, byteLength_cons]
    omega
  | case5 c rest hc ih =>
    rw [escapes_cons_of_ne hc] at h
    exact Nat.add_le_add_left (ih h) _

/-! ## Edited texts -/

/-- A new text and an old one: characters are kept, or a piece of the old text that begins with the
mark and cuts no escape stands for a new piece without backslashes that begins with it too. -/
inductive Edited (mark : Char) : Text → Text → Prop where
  | nil : Edited mark [] []
  | keep (c : Char) {new old : Text} : Edited mark new old → Edited mark (c :: new) (c :: old)
  | swap {body run new old : Text} : '\\' ∉ body → escapes old ⊆ escapes (run ++ old) →
      Edited mark new old → Edited mark (mark :: (body ++ new)) (mark :: (run ++ old))

namespace Edited

variable {mark : Char} {new old : Text}

theorem append (before : Text) (h : Edited mark new old) :
    Edited mark (before ++ new) (before ++ old) := by
  induction before with
  | nil => exact h
  | cons c before ih => exact .keep c ih

theorem sameUpTo (h : Edited mark new old) : SameUpTo mark new old := by
  induction h with
  | nil => exact .nil
  | keep c _ ih => exact .cons c ih
  | swap => exact .mark _ _

end Edited

theorem SameUpTo.takeWhile_take {mark : Char} {s t : Text} (h : SameUpTo mark s t)
    {p : Char → Bool} (hp : p mark = false) (n : Nat) :
    (s.take n).takeWhile p = (t.take n).takeWhile p := by
  induction h generalizing n with
  | nil => rfl
  | mark s t => cases n <;> simp [hp]
  | cons c _ ih =>
    cases n with
    | zero => rfl
    | succ n => simp only [List.take_succ_cons, List.takeWhile_cons, ih n]

/-- A mark that is no digit does not change what an escape before it stands for. -/
theorem SameUpTo.escapedBy? {mark : Char} {s t : Text} (h : SameUpTo mark s t)
    (hmark : isHexDigit mark = false) : escapedBy? s = escapedBy? t := by
  unfold Stylesheet.escapedBy? escapeDigits
  rw [h.takeWhile_take hmark, h.head?_eq]

/-- **An edited text has no other escapes**, whether or not a backslash stands before both texts. -/
theorem Edited.escapes_subset {mark : Char} {new old : Text} (h : Edited mark new old)
    (hhex : isHexDigit mark = false) (hslash : mark ≠ '\\') :
    escapes new ⊆ escapes old ∧ escapes (new.drop 1) ⊆ escapes (old.drop 1) := by
  induction h with
  | nil => exact ⟨List.Subset.refl _, List.Subset.refl _⟩
  | @keep c new old h ih =>
    refine ⟨?_, ih.1⟩
    by_cases hc : c = '\\'
    · rw [hc, escapes_backslash, escapes_backslash, h.sameUpTo.escapedBy? hhex]
      exact List.append_subset.mpr
        ⟨List.subset_append_left _ _, List.Subset.trans ih.2 (List.subset_append_right _ _)⟩
    · rw [escapes_cons_of_ne hc, escapes_cons_of_ne hc]
      exact ih.1
  | @swap body run new old hbody hrun h ih =>
    have hswap : escapes (body ++ new) ⊆ escapes (run ++ old) := by
      rw [escapes_append_of_not_mem hbody]
      exact List.Subset.trans ih.1 hrun
    rw [escapes_cons_of_ne hslash, escapes_cons_of_ne hslash]
    exact ⟨hswap, hswap⟩

/-- A matcher whose finds begin with the mark and cut no escape, and are replaced by texts without
backslashes that begin with it, edits the text. -/
theorem edited_rewritten {α : Type} {m : Matcher α} {f : α → Option Text} {mark : Char}
    (hfound : ∀ before c rest n found out, m before c rest = (n, some found) →
      f found = some out →
      c = mark ∧ escapes (rest.drop n) ⊆ escapes rest ∧ ∃ body, out = mark :: body ∧ '\\' ∉ body)
    (before : Option Char) (t : Text) :
    Edited mark (rewritten m.step (Matcher.replacement f) before t) t := by
  fun_induction scan m.step before t with
  | case1 =>
    rw [rewritten_nil]
    exact .nil
  | case2 before c rest st ih =>
    rcases hstep : m before c rest with ⟨n, found⟩
    simp only [st, Matcher.step, hstep] at ih
    rw [rewritten_cons]
    simp only [Matcher.step, hstep, Matcher.replacement]
    rcases hout : found.bind f with _ | out
    · have hkeep := ih.append (c :: rest.take n)
      rwa [List.cons_append, List.cons_append, List.take_append_drop] at hkeep
    · obtain ⟨a, rfl, hf⟩ := Option.bind_eq_some_iff.mp hout
      obtain ⟨rfl, hescapes, body, rfl, hbody⟩ := hfound before c rest n a out hstep hf
      have hrun : escapes (rest.drop n) ⊆ escapes (rest.take n ++ rest.drop n) := by
        rwa [List.take_append_drop]
      have hswap := Edited.swap hbody hrun ih
      rwa [List.take_append_drop] at hswap

end WebTrim.Stylesheet
