import Mathlib.Data.List.DropRight
import WebTrim.Proofs.Shader.Characters
import WebTrim.Proofs.Shader.Spacing

/-!
# The lines of a shader

Without comments, no token reaches beyond its line, and white space at the ends of a line does not
count. So the tokens of a shader are those of its lines.

* `meaning` — the tokens of a text that carry meaning; `CommentFree.meaning_append` cuts a text
  before a blank.
* `meaning_trim` — blanks at the ends of a text do not count.
* `sourceLines` — the lines of a shader, ended in any of three ways; `lineInduction` goes through
  them.
* `meaning_sourceLines` — **the tokens of a shader are those of its lines**.
* `sourceLines_join` — lines written below each other are read as these lines.
-/

set_option autoImplicit false

namespace WebTrim.Shader

open Text

/-! ## The meaning of a text -/

/-- The tokens of a text that carry meaning. -/
def meaning (t : Text) : List (Token Kind) :=
  significant (tokens t)

theorem meaning_eq_filter (t : Text) :
    meaning t = (visible t).filter fun u => u.kind ≠ .comment := by
  unfold meaning significant visible
  rw [List.filter_filter]
  refine List.filter_congr fun u _ => ?_
  unfold isSignificant
  cases u.kind <;> rfl

theorem CommentFree.meaning_eq {t : Text} (h : CommentFree t) : meaning t = visible t :=
  h.significant_eq

@[simp] theorem meaning_nil : meaning [] = [] := by
  simp [meaning_eq_filter]

theorem meaning_blank {c : Char} (hc : isBlank c = true) (t : Text) :
    meaning (c :: t) = meaning t := by
  simp only [meaning_eq_filter, visible_blank hc]

theorem meaning_blanks {blanks : Text} (h : ∀ c ∈ blanks, isBlank c = true) (t : Text) :
    meaning (blanks ++ t) = meaning t := by
  simp only [meaning_eq_filter, visible_blanks h]

theorem CommentFree.meaning_append {t w : Text} (h : CommentFree t) (hw : Stops w)
    (hopener : w.head? ≠ some '/' ∧ w.head? ≠ some '*') :
    meaning (t ++ w) = meaning t ++ meaning w := by
  simp only [meaning_eq_filter, h.visible_append hw hopener, List.filter_append]

theorem Lexeme.meaning_append {t : Token Kind} (h : Lexeme t) {tail : Text}
    (hallows : ∀ d ∈ tail.head?, Allows t d) : meaning (t.text ++ tail) = t :: meaning tail := by
  have hkind : t.kind ≠ .comment := by cases h <;> simp
  rw [meaning_eq_filter, h.visible_append hallows, List.filter_cons_of_pos (by simpa using hkind),
    ← meaning_eq_filter]

/-- A blank stops every token and completes no comment sign. -/
theorem stops_of_blank {w : Text} (hascii : Ascii w) (h : ∀ c ∈ w.head?, isBlank c = true) :
    Stops w ∧ w.head? ≠ some '/' ∧ w.head? ≠ some '*' := by
  refine ⟨fun c hc => ?_, fun hc => ?_, fun hc => ?_⟩
  · by_contra hpart
    have hblank := isBlank_of_isWordPart (hascii c (List.mem_of_mem_head? hc))
      (Bool.not_eq_false _ ▸ hpart)
    rw [h c hc] at hblank
    cases hblank
  · exact absurd (h _ hc) (by decide)
  · exact absurd (h _ hc) (by decide)

/-! ## Blanks at the ends -/

theorem trim_eq_rdropWhile (t : Text) : trim t = (t.dropWhile isBlank).rdropWhile isBlank :=
  rfl

/-- A text is its trimmed form between blanks. -/
theorem exists_blanks_trim (t : Text) :
    ∃ a b, (∀ c ∈ a, isBlank c = true) ∧ (∀ c ∈ b, isBlank c = true) ∧ t = a ++ (trim t ++ b) := by
  refine ⟨t.takeWhile isBlank, (t.dropWhile isBlank).rtakeWhile isBlank,
    fun c hc => List.mem_takeWhile_imp hc, fun c hc => List.mem_rtakeWhile_imp hc, ?_⟩
  rw [trim_eq_rdropWhile, List.rdropWhile_append_rtakeWhile, List.takeWhile_append_dropWhile]

theorem trim_part (t : Text) : trim t <:+: t := by
  obtain ⟨a, b, -, -, h⟩ := exists_blanks_trim t
  exact ⟨a, b, by rw [List.append_assoc]; exact h.symm⟩

/-- The trimmed text begins where the blanks end. -/
theorem head?_trim (t : Text) : (trim t).head? = (t.dropWhile isBlank).head? := by
  rw [trim_eq_rdropWhile]
  have hfirst : ∀ c ∈ (t.dropWhile isBlank).head?, isBlank c = false := not_head_dropWhile
  cases hrest : t.dropWhile isBlank with
  | nil => rfl
  | cons c rest =>
    rw [hrest] at hfirst
    obtain ⟨more, hmore⟩ := List.rdropWhile_prefix isBlank (c :: rest)
    cases hkept : (c :: rest).rdropWhile isBlank with
    | nil =>
      have hall := List.rdropWhile_eq_nil_iff.mp hkept c List.mem_cons_self
      rw [hfirst c rfl] at hall
      cases hall
    | cons d kept =>
      rw [hkept, List.cons_append] at hmore
      exact congrArg some (List.cons.inj hmore).1

theorem isBlank_head_trim {t : Text} : ∀ c ∈ (trim t).head?, isBlank c = false := by
  rw [head?_trim]
  exact not_head_dropWhile

theorem isBlank_getLast_trim {t : Text} : ∀ c ∈ (trim t).getLast?, isBlank c = false := by
  intro c hc
  rw [trim_eq_rdropWhile] at hc
  obtain ⟨hne, rfl⟩ := List.mem_getLast?_eq_getLast hc
  simpa using List.rdropWhile_last_not isBlank (t.dropWhile isBlank) hne

theorem trim_eq_self {t : Text} (hhead : ∀ c ∈ t.head?, isBlank c = false)
    (hlast : ∀ c ∈ t.getLast?, isBlank c = false) : trim t = t := by
  have hfront : t.dropWhile isBlank = t := by
    cases t with
    | nil => rfl
    | cons c t => rw [List.dropWhile_cons_of_neg (by simp [hhead c rfl])]
  rw [trim_eq_rdropWhile, hfront, List.rdropWhile_eq_self_iff]
  intro hne
  simp [hlast _ (List.getLast?_eq_some_getLast hne)]

@[simp] theorem trim_trim (t : Text) : trim (trim t) = trim t :=
  trim_eq_self isBlank_head_trim isBlank_getLast_trim

@[simp] theorem trim_dropWhile (t : Text) : trim (t.dropWhile isBlank) = trim t := by
  rw [trim_eq_rdropWhile, trim_eq_rdropWhile, List.dropWhile_idempotent]

/-- Blanks at the ends of a text do not count. -/
theorem meaning_trim {t : Text} (hascii : Ascii t) (h : CommentFree t) :
    meaning (trim t) = meaning t := by
  obtain ⟨a, b, ha, hb, ht⟩ := exists_blanks_trim t
  have hsub : b ⊆ t := by
    rw [ht]
    exact (List.suffix_append_of_suffix (List.suffix_append (trim t) b)).subset
  obtain ⟨hstops, hopener⟩ := stops_of_blank (hascii.of_subset hsub)
    fun c hc => hb c (List.mem_of_mem_head? hc)
  have hbehind : meaning b = [] := by
    have hnil := meaning_blanks hb []
    rwa [List.append_nil, meaning_nil] at hnil
  conv_rhs => rw [ht]
  rw [meaning_blanks ha, (h.of_part (trim_part t)).meaning_append hstops hopener, hbehind,
    List.append_nil]

/-! ## Lines -/

/-- A character that ends a line. -/
def isLineEnd (c : Char) : Bool :=
  c == '\n' || c == '\r'

/-- The lines of a shader. A return with a newline behind it ends one line. -/
def sourceLines : Text → List Text
  | [] => []
  | '\r' :: '\n' :: rest => [] :: sourceLines rest
  | c :: rest =>
    if isLineEnd c then [] :: sourceLines rest
    else
      match sourceLines rest with
      | [] => [[c]]
      | line :: more => (c :: line) :: more

/-- The text stays on one line. -/
def OneLine (t : Text) : Prop :=
  ∀ c ∈ t, isLineEnd c = false

theorem sourceLines_cons {c : Char} (hc : isLineEnd c = false) (rest : Text) :
    sourceLines (c :: rest) =
      match sourceLines rest with
      | [] => [[c]]
      | line :: more => (c :: line) :: more := by
  have hreturn : c ≠ '\r' := by
    rintro rfl
    exact absurd hc (by decide)
  rw [sourceLines, if_neg (by simp [hc])]
  exact fun _ hpair => absurd hpair hreturn

theorem sourceLines_append {line t : Text} {more : List Text} (hline : OneLine line)
    (ht : sourceLines t = [] :: more) : sourceLines (line ++ t) = line :: more := by
  induction line with
  | nil => exact ht
  | cons c line ih =>
    unfold OneLine at hline
    rw [List.forall_mem_cons] at hline
    rw [List.cons_append, sourceLines_cons hline.1, ih hline.2]

theorem sourceLines_line {line : Text} (hline : OneLine line) (hne : line ≠ []) :
    sourceLines line = [line] := by
  induction line with
  | nil => exact absurd rfl hne
  | cons c line ih =>
    unfold OneLine at hline
    rw [List.forall_mem_cons] at hline
    rw [sourceLines_cons hline.1]
    cases line with
    | nil => rfl
    | cons d line => rw [ih hline.2 (by simp)]

theorem sourceLines_of_end {c : Char} {rest : Text}
    (hpair : ∀ more, c = '\r' → rest = '\n' :: more → False) (hend : isLineEnd c = true) :
    sourceLines (c :: rest) = [] :: sourceLines rest := by
  rw [sourceLines, if_pos hend]
  exact hpair

theorem sourceLines_newline (t : Text) : sourceLines ('\n' :: t) = [] :: sourceLines t := by
  simp [sourceLines, isLineEnd]

/-- What holds of a line, and of a line before others if it holds of these, holds of every text with
its lines. -/
theorem lineInduction {P : Text → List Text → Prop} (nil : P [] [])
    (last : ∀ line, OneLine line → line ≠ [] → P line [line])
    (cons : ∀ line c ends rest, OneLine line → (∀ d ∈ c :: ends, isLineEnd d = true) →
      P rest (sourceLines rest) → P (line ++ c :: ends ++ rest) (line :: sourceLines rest))
    (t : Text) : P t (sourceLines t) := by
  suffices hline : ∀ line, OneLine line → P (line ++ t) (sourceLines (line ++ t)) from
    hline [] (by simp [OneLine])
  fun_induction sourceLines t with
  | case1 =>
    intro line hline
    rw [List.append_nil]
    by_cases hne : line = []
    · subst hne
      exact nil
    · rw [sourceLines_line hline hne]
      exact last line hline hne
  | case2 rest ih =>
    intro line hline
    rw [sourceLines_append hline (by rw [sourceLines])]
    have hends : ∀ d ∈ ['\r', '\n'], isLineEnd d = true := by
      rw [List.forall_mem_cons, List.forall_mem_singleton]
      decide
    have hrest := cons line '\r' ['\n'] rest hline hends (ih [] (by simp [OneLine]))
    rwa [List.append_assoc] at hrest
  | case3 c rest hpair hend ih =>
    intro line hline
    rw [sourceLines_append hline (sourceLines_of_end hpair hend)]
    have hrest := cons line c [] rest hline (by simpa using hend) (ih [] (by simp [OneLine]))
    rwa [List.append_assoc] at hrest
  | case4 c rest hpair hend hrest ih | case5 c rest hpair hend first more hrest ih =>
    intro line hline
    have hlonger : OneLine (line ++ [c]) := by
      unfold OneLine
      rw [List.forall_mem_append, List.forall_mem_singleton]
      exact ⟨hline, Bool.not_eq_true _ ▸ hend⟩
    have hrest := ih (line ++ [c]) hlonger
    rwa [List.append_assoc, List.singleton_append] at hrest

theorem part_of_mem_sourceLines (t : Text) : ∀ line ∈ sourceLines t, line <:+: t := by
  refine lineInduction (P := fun t ls => ∀ line ∈ ls, line <:+: t) ?_ ?_ ?_ t
  · simp
  · simp
  · intro line c ends rest hline hends ih
    rw [List.forall_mem_cons]
    refine ⟨⟨[], c :: ends ++ rest, by simp⟩, fun other hother => ?_⟩
    exact (ih other hother).trans (List.suffix_append _ rest).isInfix

theorem oneLine_of_mem_sourceLines (t : Text) : ∀ line ∈ sourceLines t, OneLine line := by
  refine lineInduction (P := fun _ ls => ∀ line ∈ ls, OneLine line) ?_ ?_ ?_ t
  · simp
  · intro line hline _
    simpa using hline
  · intro line c ends rest hline hends ih
    rw [List.forall_mem_cons]
    exact ⟨hline, ih⟩

/-- **The tokens of a shader without comments are those of its lines.** -/
theorem meaning_sourceLines {t : Text} (h : CommentFree t) :
    meaning t = (sourceLines t).flatMap meaning := by
  revert h
  refine lineInduction (P := fun t ls => CommentFree t → meaning t = ls.flatMap meaning) ?_ ?_ ?_ t
  · simp
  · simp
  · intro line c ends rest hline hends ih h
    have hblanks : ∀ d ∈ c :: ends, isBlank d = true := by
      intro d hd
      have hend := hends d hd
      simp only [isLineEnd, Bool.or_eq_true, beq_iff_eq] at hend
      rcases hend with rfl | rfl <;> decide
    have hstops : Stops (c :: ends ++ rest) := by
      intro d hd
      cases hd
      have hend := (List.forall_mem_cons.mp hends).1
      simp only [isLineEnd, Bool.or_eq_true, beq_iff_eq] at hend
      rcases hend with rfl | rfl <;> decide
    have hopener : (c :: ends ++ rest).head? ≠ some '/' ∧ (c :: ends ++ rest).head? ≠ some '*' := by
      have hblank := hblanks c List.mem_cons_self
      constructor <;>
      · intro hc
        cases hc
        exact absurd hblank (by decide)
    have hbegins : CommentFree line := h.of_beginning ⟨c :: ends ++ rest, by simp⟩
    have hrest := ih (h.of_suffix (List.suffix_append _ rest))
    rw [List.append_assoc, hbegins.meaning_append hstops hopener, meaning_blanks hblanks, hrest]
    simp

/-! ## Lines read and written -/

/-- An empty last line adds nothing. -/
theorem compactLines_concat_nil (pending ls : List Text) :
    compactLines pending (ls ++ [[]]) = compactLines pending ls := by
  induction ls generalizing pending with
  | nil => rfl
  | cons line ls ih => simp only [List.cons_append, compactLines, ih]

theorem lines_normalizeNewlines (t : Text) :
    lines (normalizeNewlines t) = sourceLines t ∨
      lines (normalizeNewlines t) = sourceLines t ++ [[]] := by
  unfold lines
  fun_induction normalizeNewlines t with
  | case1 => exact .inr rfl
  | case2 rest ih => simpa [fields, sourceLines] using ih
  | case3 c rest hpair ih =>
    by_cases hend : isLineEnd c = true
    · have hnewline : (if c = '\r' then '\n' else c) = '\n' := by
        simp only [isLineEnd, Bool.or_eq_true, beq_iff_eq] at hend
        rcases hend with rfl | rfl <;> rfl
      rw [hnewline, sourceLines_of_end hpair hend]
      simpa [fields] using ih
    · have hend : isLineEnd c = false := Bool.not_eq_true _ ▸ hend
      have hkept : (if c = '\r' then '\n' else c) = c ∧ c ≠ '\n' := by
        constructor
        · rw [if_neg]
          rintro rfl
          exact absurd hend (by decide)
        · rintro rfl
          exact absurd hend (by decide)
      rw [hkept.1, sourceLines_cons hend, fields, if_neg hkept.2]
      cases hlines : sourceLines rest with
      | nil => rcases ih with ih | ih <;> simp [ih, hlines]
      | cons line more => rcases ih with ih | ih <;> simp [ih, hlines]

theorem compactLines_lines (pending : List Text) (t : Text) :
    compactLines pending (lines (normalizeNewlines t)) = compactLines pending (sourceLines t) := by
  rcases lines_normalizeNewlines t with h | h
  · rw [h]
  · rw [h, compactLines_concat_nil]

/-- Lines written below each other are read as these lines. -/
theorem sourceLines_join {ls : List Text} (h : ∀ line ∈ ls, OneLine line ∧ line ≠ [])
    (hne : ls ≠ []) {tail : Text} (htail : tail = [] ∨ tail = ['\n']) :
    sourceLines (join ['\n'] ls ++ tail) = ls := by
  fun_induction join ['\n'] ls with
  | case1 => exact absurd rfl hne
  | case2 line =>
    obtain ⟨hline, hempty⟩ := h line List.mem_cons_self
    rcases htail with rfl | rfl
    · rw [List.append_nil, sourceLines_line hline hempty]
    · exact sourceLines_append hline (sourceLines_newline [])
  | case3 line other rest ih =>
    rw [List.forall_mem_cons] at h
    rw [List.append_assoc, List.append_assoc, List.singleton_append]
    refine sourceLines_append h.1.1 ?_
    rw [sourceLines_newline, ih h.2 (by simp)]

end WebTrim.Shader
