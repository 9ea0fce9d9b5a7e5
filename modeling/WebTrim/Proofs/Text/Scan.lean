import Mathlib.Data.List.TakeWhile
import WebTrim.Proofs.Failure
import WebTrim.Text.Words

/-!
# Scanning a rewritten text

A scanner cuts a text into pieces; a rewriting replaces each piece by another text. When the scanner
cuts the new text at the same places, renaming and finding commute.

* `rewritten`, `rewrittenM` — the text with each piece replaced, in the second case by something
  that may fail.
* `Answers` — at one place, the scanner takes from the rewritten text exactly the new piece.
* `scan_rewritten` — if every step is answered, the pieces of the new text are the new pieces.
* `Matcher.answers_of_kept` — the answer for a piece that is not replaced.
* `Matcher.findAll_replaceAll` — **finding after renaming finds the renamed**.
* `Piecewise` — relations that hold of whole texts if they hold piece by piece:
  `Piecewise.rewritten`, `Matcher.replaceAll_piecewise`.
* `takeWhile_take_append`, `lengthThrough_take_append` — how far a run of characters goes, and where
  a word is found, depends on the text up to there and on what follows it.
* `spansFrom`, `outside`, `covered` — the places of the finds, the text between them and the text
  they cover; `outside_spansFrom` and `covered_spansFrom` tell these from the pieces.
-/

set_option autoImplicit false

namespace WebTrim.Text

variable {σ β : Type}

/-! ## Rewritten texts -/

/-- The text with each piece replaced by what `out` makes of it. -/
def rewritten (step : σ → Char → Text → Step σ β) (out : Piece β → Text) (state : σ) (t : Text) :
    Text :=
  (scan step state t).flatMap out

@[simp] theorem rewritten_nil (step : σ → Char → Text → Step σ β) (out : Piece β → Text)
    (state : σ) : rewritten step out state [] = [] := by
  simp [rewritten]

theorem rewritten_cons (step : σ → Char → Text → Step σ β) (out : Piece β → Text) (state : σ)
    (c : Char) (rest : Text) :
    rewritten step out state (c :: rest) =
      out ⟨c :: rest.take (step state c rest).extra, (step state c rest).note⟩ ++
        rewritten step out (step state c rest).next (rest.drop (step state c rest).extra) := by
  simp [rewritten, scan_cons]

/-- The text with each piece replaced by what `out` makes of it, which may fail. -/
def rewrittenM {ε : Type} (step : σ → Char → Text → Step σ β) (out : Piece β → Except ε Text)
    (state : σ) (t : Text) : Except ε Text :=
  ((scan step state t).mapM out).map List.flatten

@[simp] theorem rewrittenM_nil {ε : Type} (step : σ → Char → Text → Step σ β)
    (out : Piece β → Except ε Text) (state : σ) : rewrittenM step out state [] = .ok [] := by
  rw [rewrittenM, scan_nil]
  rfl

theorem rewrittenM_of_scan {ε : Type} {step : σ → Char → Text → Step σ β}
    {out : Piece β → Except ε Text} {state next : σ} {t rest : Text} {p : Piece β}
    (h : scan step state t = p :: scan step next rest) :
    rewrittenM step out state t =
      (out p).bind fun first => (rewrittenM step out next rest).map (first ++ ·) := by
  rw [rewrittenM, h, List.mapM_cons, rewrittenM]
  cases out p with
  | error e => rfl
  | ok first => cases (scan step next rest).mapM out <;> rfl

/-- The text in place of one piece, and the texts in place of those before and after it. -/
theorem exists_of_rewrittenM {ε : Type} {step : σ → Char → Text → Step σ β}
    {out : Piece β → Except ε Text} {state : σ} {t u literal : Text} {front back : List (Piece β)}
    {p : Piece β} (h : rewrittenM step out state t = .ok u)
    (hscan : scan step state t = front ++ p :: back) (hp : out p = .ok literal) :
    ∃ v w next, u = v ++ literal ++ w ∧
      rewrittenM step out next (back.flatMap Piece.text) = .ok w := by
  induction front generalizing state t u with
  | nil =>
    cases t with
    | nil => simp at hscan
    | cons c rest =>
      rw [scan_cons, List.nil_append, List.cons.injEq] at hscan
      obtain ⟨hpiece, hback⟩ := hscan
      rw [rewrittenM_of_scan (scan_cons step state c rest), hpiece, hp] at h
      obtain ⟨w, hw, rfl⟩ := exists_of_map_eq_ok h
      rw [← hback, scan_text]
      exact ⟨[], w, _, rfl, hw⟩
  | cons q front ih =>
    cases t with
    | nil => simp at hscan
    | cons c rest =>
      rw [scan_cons, List.cons_append, List.cons.injEq] at hscan
      rw [rewrittenM_of_scan (scan_cons step state c rest)] at h
      obtain ⟨first, -, hrest⟩ := exists_of_bind_eq_ok h
      obtain ⟨out', hout, rfl⟩ := exists_of_map_eq_ok hrest
      obtain ⟨v, w, next, rfl, hw⟩ := ih hout hscan.2
      exact ⟨first ++ v, w, next, by simp, hw⟩

/-- The scanner, in the state `s` before `c :: rest` and in the state `s'` before the rewritten
text, takes from the latter exactly the new piece, notes it as `renote` says, and goes on in states
that `Rel` relates. -/
def Answers (step : σ → Char → Text → Step σ β) (out : Piece β → Text) (renote : β → β)
    (Rel : σ → σ → Text → Prop) (s s' : σ) (c : Char) (rest : Text) : Prop :=
  ∃ c' body,
    out ⟨c :: rest.take (step s c rest).extra, (step s c rest).note⟩ = c' :: body ∧
    ∀ tail, tail = rewritten step out (step s c rest).next (rest.drop (step s c rest).extra) →
      (body ++ tail).take (step s' c' (body ++ tail)).extra = body ∧
      (step s' c' (body ++ tail)).note = renote (step s c rest).note ∧
      Rel (step s c rest).next (step s' c' (body ++ tail)).next
        (rest.drop (step s c rest).extra)

/-- **If every step is answered, the pieces of the rewritten text are the rewritten pieces.** -/
theorem scan_rewritten {step : σ → Char → Text → Step σ β} {out : Piece β → Text} {renote : β → β}
    {Rel : σ → σ → Text → Prop}
    (hstep : ∀ s s' c rest, Rel s s' (c :: rest) → Answers step out renote Rel s s' c rest)
    (s s' : σ) (t : Text) (h : Rel s s' t) :
    scan step s' (rewritten step out s t) =
      (scan step s t).map fun p => ⟨out p, renote p.note⟩ := by
  fun_induction scan step s t generalizing s' with
  | case1 => simp
  | case2 s c rest st ih =>
    obtain ⟨c', body, hout, hanswer⟩ := hstep s s' c rest h
    obtain ⟨htake, hnote, hrel⟩ := hanswer _ rfl
    have hdrop := List.take_append_drop
      (step s' c' (body ++ rewritten step out st.next (rest.drop st.extra))).extra
      (body ++ rewritten step out st.next (rest.drop st.extra))
    rw [htake] at hdrop
    rw [rewritten_cons, hout, List.cons_append, scan_cons, htake, hnote,
      List.append_cancel_left hdrop, ih _ hrel, List.map_cons, ← hout]

/-- A step of a matcher that keeps its piece is answered as soon as the matcher takes the same
characters again: the last of them is the next state. -/
theorem Matcher.answers_of_kept {α : Type} {m : Matcher α} {out : Piece (Option α) → Text}
    {renote : Option α → Option α} {Rel : Option Char → Option Char → Text → Prop}
    {s s' : Option Char} {c : Char} {rest : Text} {n : Nat} {note : Option α}
    (hrefl : ∀ s t, Rel s s t) (hstep : m s c rest = (n, note))
    (hout : out ⟨c :: rest.take n, note⟩ = c :: rest.take n)
    (hagain : ∀ tail, tail = rewritten m.step out (some ((rest.take n).getLastD c)) (rest.drop n) →
      (rest.take n ++ tail).take (m s' c (rest.take n ++ tail)).1 = rest.take n ∧
        (m s' c (rest.take n ++ tail)).2 = renote note) :
    Answers m.step out renote Rel s s' c rest := by
  simp only [Answers, Matcher.step, hstep]
  refine ⟨c, rest.take n, hout, fun tail htail => ?_⟩
  obtain ⟨htake, hnote⟩ := hagain tail htail
  rw [htake]
  exact ⟨rfl, hnote, hrefl _ _⟩

/-- The character before a text counts only for the decision at its beginning. -/
theorem Matcher.scan_of_same {α : Type} {m : Matcher α} {before before' : Option Char}
    (h : ∀ c rest, m before c rest = m before' c rest) (t : Text) :
    scan m.step before t = scan m.step before' t := by
  cases t with
  | nil => rw [scan_nil, scan_nil]
  | cons c rest => simp only [scan_cons, Matcher.step, h]

/-- A matcher that takes the characters up to `last` goes on after it. -/
theorem Matcher.scan_append {α : Type} {m : Matcher α} {before : Option Char} {taken after : Text}
    {last : Char} {note : Option α}
    (h : ∀ c rest, c :: rest = taken ++ last :: after → m before c rest = (taken.length, note)) :
    scan m.step before (taken ++ last :: after) =
      ⟨taken ++ [last], note⟩ :: scan m.step (some last) after := by
  obtain ⟨c, rest, hcons⟩ : ∃ c rest, c :: rest = taken ++ last :: after := by
    cases taken with
    | nil => exact ⟨last, after, rfl⟩
    | cons c taken => exact ⟨c, taken ++ last :: after, rfl⟩
  have hsplit : c :: rest = (taken ++ [last]) ++ after := by simpa using hcons
  have hlength : (taken ++ [last]).length = taken.length + 1 := by simp
  have htake : c :: rest.take taken.length = taken ++ [last] := by
    rw [← List.take_succ_cons, hsplit, List.take_left' hlength]
  have hdrop : rest.drop taken.length = after := by
    rw [← List.drop_succ_cons, hsplit, List.drop_left' hlength]
  have hlast : (rest.take taken.length).getLastD c = last := by
    have hgetLast := congrArg List.getLast? htake
    rw [List.getLast?_cons, List.getLast?_concat, Option.some.injEq] at hgetLast
    rw [List.getLastD_eq_getLast?, hgetLast]
  rw [← hcons, scan_cons]
  simp only [Matcher.step, h c rest hcons, htake, hdrop, hlast]

/-- A piece that is counted without its first character, and the text behind it. -/
theorem take_drop_of_split {c : Char} {rest body after : Text} (hne : body ≠ [])
    (h : c :: rest = body ++ after) :
    c :: rest.take (body.length - 1) = body ∧ rest.drop (body.length - 1) = after := by
  obtain ⟨d, more, rfl⟩ := List.exists_cons_of_ne_nil hne
  rw [List.cons_append, List.cons.injEq] at h
  obtain ⟨rfl, rfl⟩ := h
  simp

/-- Every piece is the one that the scanner takes at some place of the text. -/
theorem forall_mem_scan {step : σ → Char → Text → Step σ β} {P : Piece β → Prop} {t : Text}
    (h : ∀ s c rest, c :: rest <:+ t →
      P ⟨c :: rest.take (step s c rest).extra, (step s c rest).note⟩)
    (s : σ) : ∀ p ∈ scan step s t, P p := by
  fun_induction scan step s t with
  | case1 => simp
  | case2 s c rest st ih =>
    intro p hp
    rcases List.mem_cons.mp hp with rfl | hp
    · exact h s c rest (List.suffix_refl _)
    · refine ih (fun s' c' rest' hsuffix => h s' c' rest' ?_) p hp
      exact hsuffix.trans ((List.drop_suffix _ _).trans (List.suffix_cons c rest))

theorem take_append_of_short {n : Nat} {t tail : Text} (h : t.drop n = [] → tail = []) :
    (t.take n ++ tail).take n = t.take n := by
  by_cases hlong : n ≤ t.length
  · exact List.take_left' (List.length_take_of_le hlong)
  · rw [h (List.drop_eq_nil_of_le (by omega)), List.append_nil, List.take_take, Nat.min_self]

theorem drop_append_of_short {n : Nat} {t tail : Text} (h : t.drop n = [] → tail = []) :
    (t.take n ++ tail).drop n = tail := by
  by_cases hlong : n ≤ t.length
  · exact List.drop_left' (List.length_take_of_le hlong)
  · rw [h (List.drop_eq_nil_of_le (by omega)), List.append_nil]
    exact List.drop_eq_nil_of_le (List.length_take_le _ _)

theorem head?_take_append {n : Nat} {t tail : Text} (h : tail.head? = (t.drop n).head?) :
    (t.take n ++ tail).head? = t.head? := by
  cases n with
  | zero => exact h
  | succ n =>
    cases t with
    | nil => simpa using h
    | cons c t => rfl

/-- A run of characters goes to the same length if the text after it begins with the same
character. -/
theorem takeWhile_take_append {p : Char → Bool} {t s : Text}
    (h : s.head? = (t.drop (t.takeWhile p).length).head?) :
    (t.take (t.takeWhile p).length ++ s).takeWhile p = t.takeWhile p := by
  induction t with
  | nil =>
    have hs : s = [] := by simpa using h
    rw [hs]
    rfl
  | cons c t ih =>
    by_cases hc : p c = true
    · simp only [List.takeWhile_cons, hc, if_true, List.length_cons, List.take_succ_cons,
        List.drop_succ_cons, List.cons_append] at h ⊢
      rw [ih h]
    · simp only [List.takeWhile_cons, hc, Bool.false_eq_true, if_false, List.length_nil,
        List.take_zero, List.drop_zero, List.nil_append] at h ⊢
      obtain ⟨tail, rfl⟩ := List.head?_eq_some_iff.mp h
      simp [hc]

/-! ## Runs of characters -/

theorem drop_length_takeWhile (p : Char → Bool) (t : Text) :
    t.drop (t.takeWhile p).length = t.dropWhile p := by
  have happend : t.takeWhile p ++ t.dropWhile p = t := List.takeWhile_append_dropWhile
  nth_rewrite 2 [← happend]
  exact List.drop_left

/-- What is left behind a run does not go on with it. -/
theorem not_head_dropWhile {p : Char → Bool} {t : Text} :
    ∀ c ∈ (t.dropWhile p).head?, p c = false := by
  intro c hc
  have hstop := List.head?_dropWhile_not p t
  rw [Option.mem_def.mp hc] at hstop
  exact hstop

/-- The run of characters at the beginning of a text, and the text behind it. -/
theorem exists_run (p : Char → Bool) (t : Text) :
    ∃ run after, t = run ++ after ∧ (∀ c ∈ run, p c = true) ∧ (∀ c ∈ after.head?, p c = false) ∧
      ∀ c ∈ t.head?, p c = true → run ≠ [] := by
  refine ⟨t.takeWhile p, t.dropWhile p, List.takeWhile_append_dropWhile.symm,
    fun c hc => List.mem_takeWhile_imp hc, not_head_dropWhile, fun c hc hp => ?_⟩
  obtain ⟨more, rfl⟩ := List.head?_eq_some_iff.mp hc
  simp [hp]

/-- A run of characters that are not at the beginning of `w` ends before it. -/
theorem takeWhile_append_of_stop {p : Char → Bool} {v w : Text}
    (h : ∀ c ∈ w.head?, p c = false) : (v ++ w).takeWhile p = v.takeWhile p := by
  have hw : w.takeWhile p = [] := by
    cases w with
    | nil => rfl
    | cons c w => rw [List.takeWhile_cons, h c rfl]; rfl
  rw [List.takeWhile_append, hw, List.append_nil]
  split
  · rename_i hall
    exact ((List.takeWhile_prefix p).eq_of_length hall).symm
  · rfl

/-- A text of characters of a class is cut off before a character outside of it. -/
theorem splitWhile_append_of {p : Char → Bool} {s t : Text} (hs : ∀ c ∈ s, p c = true)
    (ht : ∀ c ∈ t.head?, p c = false) : splitWhile p (s ++ t) = (s, t) := by
  have hrun : (s ++ t).takeWhile p = s := by
    rw [takeWhile_append_of_stop ht, List.takeWhile_eq_self_iff.mpr hs]
  rw [splitWhile, ← drop_length_takeWhile, hrun, List.drop_left]

/-! ## Rewriting piece by piece -/

/-- The relation between a text and itself, and between texts that are put together of related ones.
-/
structure Piecewise (R : Text → Text → Prop) : Prop where
  refl : ∀ t, R t t
  append : ∀ {s s' t t'}, R s s' → R t t' → R (s ++ t) (s' ++ t')

namespace Piecewise

variable {R : Text → Text → Prop} (hR : Piecewise R)

include hR

theorem flatMap {α : Type} {xs : List α} {f g : α → Text} (h : ∀ x ∈ xs, R (f x) (g x)) :
    R (xs.flatMap f) (xs.flatMap g) := by
  induction xs with
  | nil => exact hR.refl []
  | cons x xs ih =>
    rw [List.flatMap_cons, List.flatMap_cons]
    exact hR.append (h x List.mem_cons_self) (ih fun y hy => h y (List.mem_cons_of_mem _ hy))

/-- **A text is related to the rewritten one if every piece is related to what replaces it.** -/
theorem rewritten {step : σ → Char → Text → Step σ β} {out : Piece β → Text} {s : σ} {t : Text}
    (h : ∀ p ∈ scan step s t, R p.text (out p)) : R t (Text.rewritten step out s t) := by
  have hpieces : R ((scan step s t).flatMap Piece.text) (Text.rewritten step out s t) :=
    hR.flatMap h
  rwa [scan_text] at hpieces

theorem mapWords {f : Text → Text} (h : ∀ word, R word (f word)) (t : Text) :
    R t (Text.mapWords f t) := by
  refine hR.rewritten fun p _ => ?_
  split
  · exact h p.text
  · exact hR.refl p.text

end Piecewise

/-! ## Replacing nothing, or something -/

section Replace

variable {α : Type} {m : Matcher α} {f : α → Option Text} {t : Text}

/-- What stands in place of a piece. -/
def Matcher.replacement (f : α → Option Text) (p : Piece (Option α)) : Text :=
  (p.note.bind f).getD p.text

theorem Matcher.replaceAll_eq :
    m.replaceAll f t = rewritten m.step (Matcher.replacement f) none t :=
  rfl

/-- A character that is passed stays, and the matcher goes on after it. -/
theorem Matcher.rewritten_pass {before : Option Char} {c : Char} {rest : Text}
    (h : m before c rest = (0, none)) :
    rewritten m.step (Matcher.replacement f) before (c :: rest) =
      c :: rewritten m.step (Matcher.replacement f) (some c) rest := by
  rw [rewritten_cons]
  simp [Matcher.step, h, Matcher.replacement]

/-- Where nothing is found, the first character stays. -/
theorem Matcher.rewritten_not_found {before : Option Char} {c : Char} {rest : Text}
    (h : (m before c rest).2 = none) :
    ∃ more, rewritten m.step (Matcher.replacement f) before (c :: rest) = c :: more := by
  rw [rewritten_cons]
  exact ⟨_, by simp only [Matcher.step, h, Matcher.replacement]; rfl⟩

theorem Matcher.replaceAll_of_kept (h : ∀ p ∈ m.pieces t, p.note.bind f = none) :
    m.replaceAll f t = t := by
  have htext : m.replaceAll f t = (m.pieces t).flatMap Piece.text := by
    apply List.flatMap_congr
    intro p hp
    rw [h p hp]
    rfl
  rw [htext, Matcher.pieces_text]

/-- A text in which nothing is found stays. -/
theorem Matcher.replaceAll_of_not_found
    (h : ∀ before c rest, c :: rest <:+ t → (m before c rest).2 = none) :
    m.replaceAll f t = t := by
  refine Matcher.replaceAll_of_kept (forall_mem_scan (fun before c rest hsuffix => ?_) none)
  have hnone := h before c rest hsuffix
  simp [Matcher.step, hnone]

/-- A text whose finds are replaced by what was taken for them stays. -/
theorem Matcher.replaceAll_of_same
    (h : ∀ p ∈ m.pieces t, ∀ found out, p.note = some found → f found = some out → out = p.text) :
    m.replaceAll f t = t := by
  have htext : m.replaceAll f t = (m.pieces t).flatMap Piece.text := by
    apply List.flatMap_congr
    intro p hp
    cases hnote : p.note with
    | none => rfl
    | some found =>
      cases hout : f found with
      | none => simp [hout]
      | some out => simp [hout, h p hp found out hnote hout]
  rw [htext, Matcher.pieces_text]

theorem Matcher.replaceAll_piecewise {R : Text → Text → Prop} (hR : Piecewise R)
    (h : ∀ p ∈ m.pieces t, ∀ found out, p.note = some found → f found = some out → R p.text out) :
    R t (m.replaceAll f t) := by
  refine hR.rewritten fun p hp => ?_
  cases hnote : p.note with
  | none => exact hR.refl p.text
  | some found =>
    cases hout : f found with
    | none => simpa [hout] using hR.refl p.text
    | some out => simpa [hout] using h p hp found out hnote hout

/-- Where its pattern is not found, a matcher takes one character. -/
theorem Matcher.extra_of_not_found {pattern : Option Char → Char → Text → Option (Nat × α)}
    {before : Option Char} {c : Char} {rest : Text} {n : Nat}
    (h : Matcher.ofPattern pattern before c rest = (n, none)) : n = 0 := by
  unfold Matcher.ofPattern at h
  split at h
  · cases h
  · cases h
    rfl

/-- A text stays, or some replacement stands in the new one. -/
theorem Matcher.replaceAll_eq_or (m : Matcher α) (f : α → Option Text) (t : Text) :
    m.replaceAll f t = t ∨
      ∃ p ∈ m.pieces t, ∃ found out, p.note = some found ∧ f found = some out ∧
        ∀ c ∈ out, c ∈ m.replaceAll f t := by
  by_cases h : ∀ p ∈ m.pieces t, p.note.bind f = none
  · exact .inl (Matcher.replaceAll_of_kept h)
  · right
    push Not at h
    obtain ⟨p, hp, hsome⟩ := h
    obtain ⟨out, hout⟩ := Option.ne_none_iff_exists'.mp hsome
    obtain ⟨found, hfound, hf⟩ := Option.bind_eq_some_iff.mp hout
    refine ⟨p, hp, found, out, hfound, hf, fun c hc => ?_⟩
    exact List.mem_flatMap.mpr ⟨p, hp, by rw [hout]; exact hc⟩

/-- Where every replacement begins as the text that it replaces, so does the new text. -/
theorem Matcher.head?_rewritten
    (h : ∀ before c rest n found out, m before c rest = (n, some found) → f found = some out →
      out.head? = some c) (before : Option Char) :
    (rewritten m.step (Matcher.replacement f) before t).head? = t.head? := by
  cases t with
  | nil => simp
  | cons c rest =>
    rw [rewritten_cons]
    rcases hstep : m before c rest with ⟨n, note⟩
    have hfirst : (Matcher.replacement f ⟨c :: rest.take n, note⟩).head? = some c := by
      unfold Matcher.replacement
      cases hout : note.bind f with
      | none => rfl
      | some out =>
        obtain ⟨found, rfl, hfound⟩ := Option.bind_eq_some_iff.mp hout
        exact h before c rest n found out hstep hfound
    simp only [Matcher.step, hstep, List.head?_append, hfirst]
    rfl

/-- A character that is passed in both texts is answered. -/
theorem Matcher.answers_of_pass {rename : α → α} {Rel : Option Char → Option Char → Text → Prop}
    {s s' : Option Char} {c : Char} {rest : Text} (hrefl : ∀ s t, Rel s s t)
    (hstep : m s c rest = (0, none))
    (hagain : m s' c (rewritten m.step (Matcher.replacement f) (some c) rest) = (0, none)) :
    Answers m.step (Matcher.replacement f) (Option.map rename) Rel s s' c rest := by
  refine Matcher.answers_of_kept hrefl hstep rfl fun tail htail => ?_
  have htail : tail = rewritten m.step (Matcher.replacement f) (some c) rest := htail
  rw [← htail] at hagain
  rw [List.take_zero, List.nil_append, hagain]
  exact ⟨rfl, rfl⟩

/-- **If every step is answered, the new text holds the new finds.** -/
theorem Matcher.findAll_replaceAll {rename : α → α} {Rel : Option Char → Option Char → Text → Prop}
    (hstep : ∀ s s' c rest, Rel s s' (c :: rest) →
      Answers m.step (Matcher.replacement f) (Option.map rename) Rel s s' c rest)
    (hstart : Rel none none t) : m.findAll (m.replaceAll f t) = (m.findAll t).map rename := by
  rw [Matcher.findAll, Matcher.pieces, Matcher.replaceAll_eq,
    scan_rewritten hstep none none t hstart, List.filterMap_map, Matcher.findAll, List.map_filterMap]
  rfl

end Replace

/-! ## Searching for a word -/

/-- The first character after a run does not belong to it. -/
theorem splitWhile_eq_cons {p : Char → Bool} {t before after : Text} {c : Char}
    (h : splitWhile p t = (before, c :: after)) : t = before ++ c :: after ∧ p c = false := by
  rw [splitWhile, Prod.mk.injEq] at h
  obtain ⟨rfl, hdrop⟩ := h
  refine ⟨by rw [← hdrop, List.takeWhile_append_dropWhile], ?_⟩
  have hhead := List.head?_dropWhile_not p t
  rw [hdrop] at hhead
  exact hhead

theorem cut?_append_self (needle after : Text) :
    cut? needle (needle ++ after) = some ([], after) := by
  cases h : needle ++ after with
  | nil =>
    obtain ⟨rfl, rfl⟩ := List.append_eq_nil_iff.mp h
    rfl
  | cons c rest =>
    have happend : needle.isPrefixOf? (c :: rest) = some after :=
      List.isPrefixOf?_eq_some_iff_append_eq.mpr h
    simp [cut?, happend]

/-- A find splits the text, and any other text may stand after it. -/
theorem cut?_eq_some {needle t before after : Text} (h : cut? needle t = some (before, after)) :
    t = before ++ needle ++ after ∧
      ∀ other, cut? needle (before ++ needle ++ other) = some (before, other) := by
  induction t generalizing before after with
  | nil =>
    simp only [cut?] at h
    split at h
    · rename_i hempty
      cases h
      rw [List.isEmpty_iff.mp hempty]
      exact ⟨rfl, cut?_append_self []⟩
    · cases h
  | cons c rest ih =>
    simp only [cut?] at h
    split at h
    · rename_i tail happend
      cases h
      rw [List.isPrefixOf?_eq_some_iff_append_eq] at happend
      exact ⟨happend.symm, fun other => cut?_append_self needle other⟩
    · rename_i hnone
      obtain ⟨⟨b, a⟩, hcut, heq⟩ := Option.map_eq_some_iff.mp h
      cases heq
      obtain ⟨hrest, hother⟩ := ih hcut
      refine ⟨by rw [hrest]; simp, fun other => ?_⟩
      -- an occurrence before the end of the first find would have been one in the text
      have hnone' : needle.isPrefixOf? (c :: (b ++ needle ++ other)) = none := by
        rw [Option.eq_none_iff_forall_ne_some]
        intro x hx
        rw [List.isPrefixOf?_eq_some_iff_append_eq] at hx
        have hshort : c :: b ++ needle <+: c :: (b ++ needle ++ other) := ⟨other, by simp⟩
        have hlength : needle.length ≤ (c :: b ++ needle).length := by
          rw [List.length_append]
          omega
        obtain ⟨y, hy⟩ := List.prefix_of_prefix_length_le ⟨x, hx⟩ hshort hlength
        have hsome : needle.isPrefixOf? (c :: rest) = some (y ++ a) := by
          rw [List.isPrefixOf?_eq_some_iff_append_eq, hrest, ← List.append_assoc, hy]
          simp
        rw [hsome] at hnone
        cases hnone
      simp only [List.cons_append, cut?, hnone', hother other, Option.map_some]

theorem cut?_singleton {q : Char} {body : Text} (h : q ∉ body) (after : Text) :
    cut? [q] (body ++ q :: after) = some (body, after) := by
  induction body with
  | nil => exact cut?_append_self [q] after
  | cons c body ih =>
    rw [List.mem_cons, not_or] at h
    have hhead : [q].isPrefixOf? (c :: (body ++ q :: after)) = none := by
      simp [List.isPrefixOf?, h.1]
    rw [List.cons_append, cut?, hhead, ih h.2]
    rfl

/-- A search for a character finds it, at the first place. -/
theorem cut?_singleton_of_mem {q : Char} {t : Text} (h : q ∈ t) :
    ∃ body after, cut? [q] t = some (body, after) ∧ q ∉ body := by
  obtain ⟨body, after, rfl, hbody⟩ := List.eq_append_cons_of_mem h
  exact ⟨body, after, cut?_singleton hbody after, hbody⟩

/-- Where a search ends depends on the text up to there only, provided that the text after it stays
empty if it is. -/
theorem lengthThrough_take_append {needle t other : Text}
    (h : t.drop (lengthThrough needle t) = [] → other = []) :
    lengthThrough needle (t.take (lengthThrough needle t) ++ other) = lengthThrough needle t := by
  cases hcut : cut? needle t with
  | none =>
    have hlength : lengthThrough needle t = t.length := by simp [lengthThrough, hcut]
    rw [hlength] at h ⊢
    rw [h (by simp), List.take_length, List.append_nil, hlength]
  | some pair =>
    obtain ⟨before, after⟩ := pair
    obtain ⟨ht, hother⟩ := cut?_eq_some hcut
    have hlength : lengthThrough needle t = (before ++ needle).length := by
      simp [lengthThrough, hcut]
    rw [hlength, ht, List.take_left, lengthThrough, hother other]
    exact List.length_append.symm

/-! ## The places of finds -/

variable {α : Type}

/-- The finds among the pieces of a text that begins at `start`, with the offsets at which they
begin and end. -/
def spansFrom (start : Nat) : List (Piece (Option α)) → List (Nat × Nat × α)
  | [] => []
  | p :: pieces =>
    let stop := start + p.text.length
    match p.note with
    | some found => (start, stop, found) :: spansFrom stop pieces
    | none => spansFrom stop pieces

/-- A fold that counts the characters and puts each find before the earlier ones lists the spans in
reverse. -/
theorem foldl_spans
    {step : Nat × List (Nat × Nat × α) → Piece (Option α) → Nat × List (Nat × Nat × α)}
    (hstep : ∀ start found p, step (start, found) p =
      (start + p.text.length,
        (p.note.map fun m => (start, start + p.text.length, m)).toList ++ found))
    (pieces : List (Piece (Option α))) (start : Nat) (found : List (Nat × Nat × α)) :
    (pieces.foldl step (start, found)).2.reverse = found.reverse ++ spansFrom start pieces := by
  induction pieces generalizing start found with
  | nil => simp [spansFrom]
  | cons p pieces ih =>
    rw [List.foldl_cons, hstep, ih, spansFrom]
    cases p.note <;> simp

/-- The text before, between and after the spans of a text that begins at `start`. -/
def outside (start : Nat) : List (Nat × Nat × α) → Text → List Text
  | [], t => [t]
  | (first, stop, _) :: spans, t =>
    t.take (first - start) :: outside stop spans (t.drop (stop - start))

/-- The text that each span covers. -/
def covered (start : Nat) (spans : List (Nat × Nat × α)) (t : Text) : List Text :=
  spans.map fun (first, stop, _) => (t.drop (first - start)).take (stop - first)

/-- The text of neighbouring pieces without a find, joined. -/
def stretches : List (Piece (Option α)) → List Text
  | [] => [[]]
  | p :: pieces =>
    match p.note with
    | some _ => [] :: stretches pieces
    | none => (stretches pieces).modifyHead (p.text ++ ·)

theorem start_le_of_mem_spansFrom {pieces : List (Piece (Option α))} :
    ∀ {start : Nat}, ∀ span ∈ spansFrom start pieces, start ≤ span.1 ∧ span.1 ≤ span.2.1 := by
  induction pieces with
  | nil => simp [spansFrom]
  | cons p pieces ih =>
    intro start span hspan
    simp only [spansFrom] at hspan
    split at hspan
    · rcases List.mem_cons.mp hspan with rfl | hspan
      · exact ⟨Nat.le_refl _, by simp⟩
      · have := ih span hspan
        exact ⟨by omega, this.2⟩
    · have := ih span hspan
      exact ⟨by omega, this.2⟩

theorem outside_append {start : Nat} {spans : List (Nat × Nat × α)} {before t : Text}
    (h : ∀ span ∈ spans, start + before.length ≤ span.1 ∧ span.1 ≤ span.2.1) :
    outside start spans (before ++ t) =
      (outside (start + before.length) spans t).modifyHead (before ++ ·) := by
  cases spans with
  | nil => rfl
  | cons span spans =>
    obtain ⟨first, stop, found⟩ := span
    obtain ⟨hfirst, hstop⟩ := h (first, stop, found) List.mem_cons_self
    simp only at hfirst hstop
    have htake : first - start = before.length + (first - (start + before.length)) := by omega
    have hdrop : stop - start = before.length + (stop - (start + before.length)) := by omega
    simp only [outside, List.modifyHead_cons]
    rw [htake, hdrop, List.take_length_add_append, List.drop_length_add_append]

theorem map_found_spansFrom (pieces : List (Piece (Option α))) :
    ∀ start : Nat, (spansFrom start pieces).map (·.2.2) = pieces.filterMap Piece.note := by
  induction pieces with
  | nil => intro start; rfl
  | cons p pieces ih =>
    intro start
    simp only [spansFrom, List.filterMap_cons]
    split
    · rename_i found hnote
      simp only [hnote, List.map_cons, ih]
    · rename_i hnote
      simp only [hnote, ih]

/-- Pieces may be replaced where there is a find, and the stretches between the finds stay. -/
theorem stretches_map {pieces : List (Piece (Option α))}
    {f : Piece (Option α) → Piece (Option α)}
    (hnote : ∀ p ∈ pieces, (f p).note.isSome = p.note.isSome)
    (htext : ∀ p ∈ pieces, p.note = none → (f p).text = p.text) :
    stretches (pieces.map f) = stretches pieces := by
  induction pieces with
  | nil => rfl
  | cons p pieces ih =>
    have ih := ih (fun q hq => hnote q (List.mem_cons_of_mem _ hq))
      (fun q hq => htext q (List.mem_cons_of_mem _ hq))
    have hp := hnote p List.mem_cons_self
    cases hfound : p.note with
    | none =>
      rw [hfound, Option.isSome_none, Option.isSome_eq_false_iff, Option.isNone_iff_eq_none] at hp
      simp only [List.map_cons, stretches, hfound, hp, ih, htext p List.mem_cons_self hfound]
    | some found =>
      rw [hfound, Option.isSome_some] at hp
      obtain ⟨found', hfound'⟩ := Option.isSome_iff_exists.mp hp
      simp only [List.map_cons, stretches, hfound, hfound', ih]

/-- The text outside the finds is that of the pieces without a find. -/
theorem outside_spansFrom (pieces : List (Piece (Option α))) :
    ∀ start : Nat,
      outside start (spansFrom start pieces) (pieces.flatMap Piece.text) = stretches pieces := by
  induction pieces with
  | nil => intro start; rfl
  | cons p pieces ih =>
    intro start
    simp only [spansFrom, stretches, List.flatMap_cons]
    split
    · simp only [outside, Nat.sub_self, List.take_zero]
      rw [Nat.add_sub_cancel_left, List.drop_left, ih]
    · rw [outside_append start_le_of_mem_spansFrom, ih]

/-- The text that the finds cover, if each find tells the text of its piece. -/
theorem covered_spansFrom {pieces : List (Piece (Option α))} {g : α → Text}
    (h : ∀ p ∈ pieces, ∀ found, p.note = some found → p.text = g found) :
    ∀ start : Nat,
      covered start (spansFrom start pieces) (pieces.flatMap Piece.text) =
        (pieces.filterMap Piece.note).map g := by
  induction pieces with
  | nil => intro start; rfl
  | cons p pieces ih =>
    intro start
    have ih := ih fun q hq => h q (List.mem_cons_of_mem _ hq)
    -- an offset after this piece counts from the end of the piece
    have hshift : covered start (spansFrom (start + p.text.length) pieces)
        (p.text ++ pieces.flatMap Piece.text) = (pieces.filterMap Piece.note).map g := by
      rw [← ih (start + p.text.length)]
      apply List.map_congr_left
      intro span hspan
      obtain ⟨hfirst, _⟩ := start_le_of_mem_spansFrom span hspan
      have hdrop : span.1 - start = p.text.length + (span.1 - (start + p.text.length)) := by omega
      simp only [hdrop, List.drop_length_add_append]
    simp only [spansFrom, List.flatMap_cons]
    split
    · rename_i found hnote
      rw [List.filterMap_cons_some hnote, List.map_cons, ← hshift,
        ← h p List.mem_cons_self found hnote]
      simp [covered]
    · rename_i hnote
      rw [List.filterMap_cons_none hnote, hshift]

end WebTrim.Text
