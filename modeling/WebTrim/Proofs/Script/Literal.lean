import Mathlib.Data.List.Basic
import WebTrim.Script.Literal

/-!
# Safe bodies of literals

A body is safe for its delimiter if nothing in it ends the literal: every delimiter is escaped, and
in a template no hole opens.

* `SafeBody` — safe bodies, unit by unit.
* `stringLength_append`, `segmentLength_append` — a literal with a safe body reaches to the end of
  the body.
* `stringLength_cases`, `safeBody_segment` — and every literal that is closed has a safe body.
* `Quoted.ofText_closed`, `Quoted.ofText_open` — a string with a safe body is taken apart into its
  quotes and that body.
-/

set_option autoImplicit false

namespace WebTrim.Script

open Text

/-- A sequence of units, each a backslash and a character, or a character that is neither a
backslash nor the delimiter and, in a template, no `$` before a `{`. -/
inductive SafeBody (delimiter : Char) : Text → Prop where
  | nil : SafeBody delimiter []
  | escaped (c : Char) {rest : Text} : SafeBody delimiter rest →
      SafeBody delimiter ('\\' :: c :: rest)
  | plain {c : Char} {rest : Text} : c ≠ '\\' → c ≠ delimiter →
      (delimiter = '`' → c = '$' → rest.head? ≠ some '{') → SafeBody delimiter rest →
      SafeBody delimiter (c :: rest)

/-- Is the body safe for the delimiter? -/
def isSafeBody (delimiter : Char) : Text → Bool
  | [] => true
  | [c] => c ≠ '\\' && c ≠ delimiter
  | c :: d :: rest =>
    if c = '\\' then isSafeBody delimiter rest
    else c ≠ delimiter && !(delimiter = '`' && c = '$' && d = '{') && isSafeBody delimiter (d :: rest)

theorem isSafeBody_iff (delimiter : Char) (t : Text) :
    isSafeBody delimiter t = true ↔ SafeBody delimiter t := by
  constructor
  · intro h
    fun_induction isSafeBody delimiter t with
    | case1 => exact .nil
    | case2 c =>
      simp only [Bool.and_eq_true, decide_eq_true_eq] at h
      exact .plain h.1 h.2 (by simp) .nil
    | case3 d rest ih => exact .escaped d (ih h)
    | case4 c d rest hslash ih =>
      simp only [Bool.and_eq_true, decide_eq_true_eq, Bool.not_eq_true', Bool.and_eq_false_iff,
        decide_eq_false_iff_not] at h
      refine .plain hslash h.1.1 (fun htick hdollar hhead => ?_) (ih h.2)
      have hbrace : d = '{' := by simpa using hhead
      simp [htick, hdollar, hbrace] at h
  · intro h
    induction h with
    | nil => rfl
    | escaped c h ih => rw [isSafeBody, if_pos rfl, ih]
    | @plain c rest hslash hc hhole h ih =>
      cases rest with
      | nil => simp [isSafeBody, hslash, hc]
      | cons d rest =>
        have hopen : (decide (delimiter = '`') && decide (c = '$') && decide (d = '{')) = false := by
          rw [← Bool.not_eq_true]
          simp only [Bool.and_eq_true, decide_eq_true_eq]
          rintro ⟨⟨htick, hdollar⟩, rfl⟩
          exact hhole htick hdollar rfl
        simp [isSafeBody, hslash, hc, ih, hopen]

instance (delimiter : Char) (t : Text) : Decidable (SafeBody delimiter t) :=
  decidable_of_iff _ (isSafeBody_iff delimiter t)

/-! ## Strings -/

section Strings

variable {quote : Char}

theorem stringLength_cons_cons (c d : Char) (rest : Text) :
    stringLength quote (c :: d :: rest) =
      if c = '\\' then 2 + stringLength quote rest
      else if c = quote then 1
      else 1 + stringLength quote (d :: rest) := by
  rw [stringLength]

theorem stringLength_quote (hquote : quote ≠ '\\') (rest : Text) :
    stringLength quote (quote :: rest) = 1 := by
  cases rest with
  | nil => rfl
  | cons d rest => simp [stringLength, hquote]

theorem stringLength_plain {c : Char} (hslash : c ≠ '\\') (hc : c ≠ quote) (rest : Text) :
    stringLength quote (c :: rest) = 1 + stringLength quote rest := by
  cases rest with
  | nil => rfl
  | cons d rest => simp [stringLength, hslash, hc]

/-- A string is read to the end of its safe body and on from there. -/
theorem stringLength_append {body : Text} (h : SafeBody quote body) (rest : Text) :
    stringLength quote (body ++ rest) = body.length + stringLength quote rest := by
  induction h with
  | nil => simp
  | escaped c h ih =>
    rw [List.cons_append, List.cons_append, stringLength_cons_cons, if_pos rfl, ih]
    simp only [List.length_cons]
    omega
  | plain hslash hc hhole h ih =>
    rw [List.cons_append, stringLength_plain hslash hc, ih, List.length_cons]
    omega

theorem stringLength_closed (hquote : quote ≠ '\\') {body : Text} (h : SafeBody quote body)
    (rest : Text) : stringLength quote (body ++ quote :: rest) = body.length + 1 := by
  rw [stringLength_append h, stringLength_quote hquote]

theorem stringLength_open {body : Text} (h : SafeBody quote body) :
    stringLength quote body = body.length := by
  have := stringLength_append h []
  simpa [stringLength] using this

/-- A string is closed after a safe body, or it takes the whole rest: a safe body, perhaps with a
backslash at its end. -/
theorem stringLength_cases (htemplate : quote ≠ '`') (t : Text) :
    (∃ body rest, SafeBody quote body ∧ t = body ++ quote :: rest) ∨
      (stringLength quote t = t.length ∧
        ∃ body, SafeBody quote body ∧ (t = body ∨ t = body ++ ['\\'])) := by
  fun_induction stringLength quote t with
  | case1 => exact .inr ⟨rfl, [], .nil, .inl rfl⟩
  | case2 c =>
    by_cases hc : c = quote
    · exact .inl ⟨[], [], .nil, by rw [hc]; rfl⟩
    · refine .inr ⟨rfl, ?_⟩
      by_cases hslash : c = '\\'
      · exact ⟨[], .nil, .inr (by rw [hslash]; rfl)⟩
      · exact ⟨[c], .plain hslash hc (fun h => absurd h htemplate) .nil, .inl rfl⟩
  | case3 d rest ih =>
    rcases ih with ⟨body, after, hbody, rfl⟩ | ⟨hlength, body, hbody, hrest⟩
    · exact .inl ⟨'\\' :: d :: body, after, .escaped d hbody, rfl⟩
    · refine .inr ⟨by rw [hlength]; simp only [List.length_cons]; omega, '\\' :: d :: body,
        .escaped d hbody, ?_⟩
      rcases hrest with rfl | rfl
      · exact .inl rfl
      · exact .inr rfl
  | case4 d rest hslash => exact .inl ⟨[], d :: rest, .nil, rfl⟩
  | case5 c d rest hslash hc ih =>
    have hplain : ∀ {body}, SafeBody quote body → SafeBody quote (c :: body) :=
      fun hbody => .plain hslash hc (fun h => absurd h htemplate) hbody
    rcases ih with ⟨body, after, hbody, hrest⟩ | ⟨hlength, body, hbody, hrest⟩
    · exact .inl ⟨c :: body, after, hplain hbody, by rw [hrest]; rfl⟩
    · refine .inr ⟨by rw [hlength]; simp only [List.length_cons]; omega, c :: body,
        hplain hbody, ?_⟩
      rcases hrest with hrest | hrest
      · exact .inl (by rw [hrest])
      · exact .inr (by rw [hrest]; rfl)

end Strings

/-! ## Taking strings apart -/

theorem endsEscaped_concat (t : Text) (c : Char) :
    endsEscaped (t ++ [c]) = (c == '\\' && !endsEscaped t) := by
  unfold endsEscaped
  rw [List.reverse_append, List.reverse_singleton, List.singleton_append, List.takeWhile_cons]
  by_cases hc : c = '\\'
  · simp only [hc, beq_self_eq_true, if_true, List.length_cons, Bool.true_and]
    generalize (t.reverse.takeWhile (· == '\\')).length = n
    rcases Nat.mod_two_eq_zero_or_one n with h | h <;> simp [Nat.add_mod, h]
  · simp [hc]

section TakingApart

variable {quote : Char} {body : Text}

/-- A safe body leaves no backslash open. -/
theorem SafeBody.endsEscaped_append (h : SafeBody quote body) :
    ∀ {before : Text}, endsEscaped before = false → endsEscaped (before ++ body) = false := by
  induction h with
  | nil =>
    intro before hbefore
    rwa [List.append_nil]
  | escaped c h ih =>
    intro before hbefore
    rw [List.append_cons, List.append_cons]
    refine ih ?_
    rw [endsEscaped_concat, endsEscaped_concat, hbefore]
    simp
  | plain hslash hc hhole h ih =>
    intro before hbefore
    rw [List.append_cons]
    refine ih ?_
    rw [endsEscaped_concat]
    simp [hslash]

/-- A quote at the end of a safe body is escaped. -/
theorem SafeBody.endsEscaped_dropLast (h : SafeBody quote body) :
    ∀ {before front : Text}, endsEscaped before = false → body = front ++ [quote] →
      endsEscaped (before ++ front) = true := by
  induction h with
  | nil =>
    intro before front hbefore hbody
    exact absurd hbody (by simp)
  | @escaped c rest h ih =>
    intro before front hbefore hbody
    rcases front with _ | ⟨c', _ | ⟨d', front⟩⟩
    · exact absurd hbody (by simp)
    · rw [List.singleton_append, List.cons.injEq] at hbody
      rw [← hbody.1, endsEscaped_concat, hbefore]
      rfl
    · rw [List.cons_append, List.cons_append, List.cons.injEq, List.cons.injEq] at hbody
      obtain ⟨rfl, rfl, hbody⟩ := hbody
      rw [List.append_cons, List.append_cons]
      refine ih ?_ hbody
      rw [endsEscaped_concat, endsEscaped_concat, hbefore]
      simp
  | @plain c rest hslash hc hhole h ih =>
    intro before front hbefore hbody
    rcases front with _ | ⟨c', front⟩
    · exact absurd (List.cons.inj hbody).1 hc
    · rw [List.cons_append, List.cons.injEq] at hbody
      obtain ⟨rfl, hbody⟩ := hbody
      rw [List.append_cons]
      refine ih ?_ hbody
      rw [endsEscaped_concat]
      simp [hslash]

theorem Quoted.opening_ofText (quote : Char) (rest : Text) :
    (Quoted.ofText (quote :: rest)).opening = [quote] := by
  rw [Quoted.ofText]
  split <;> rfl

/-- A string token ends with its quote, or all after the first quote is its body. -/
theorem Quoted.ofText_cases (quote : Char) (rest : Text) :
    (∃ body, rest = body ++ [quote] ∧ Quoted.ofText (quote :: rest) = ⟨[quote], body, [quote]⟩) ∨
      Quoted.ofText (quote :: rest) = ⟨[quote], rest, []⟩ := by
  rw [Quoted.ofText]
  split
  · rename_i hclosed
    obtain ⟨body, rfl⟩ := List.getLast?_eq_some_iff.mp hclosed.1
    exact .inl ⟨body, rfl, by rw [List.dropLast_concat]⟩
  · exact .inr rfl

theorem Quoted.ofText_closed (hquote : quote ≠ '\\') (h : SafeBody quote body) :
    Quoted.ofText (quote :: (body ++ [quote])) = ⟨[quote], body, [quote]⟩ := by
  have hone : endsEscaped [quote] = false := by simp [endsEscaped, hquote]
  have hend : endsEscaped (quote :: body) = false := h.endsEscaped_append hone
  simp [Quoted.ofText, hend]

theorem Quoted.ofText_open (hquote : quote ≠ '\\') (h : SafeBody quote body) :
    Quoted.ofText (quote :: body) = ⟨[quote], body, []⟩ := by
  unfold Quoted.ofText
  split
  · rename_i hnil
    cases hnil
  · rename_i quote' rest heq
    obtain ⟨rfl, rfl⟩ := List.cons.inj heq
    rw [if_neg]
    rintro ⟨hlast, hend⟩
    obtain ⟨front, rfl⟩ := List.getLast?_eq_some_iff.mp hlast
    have hone : endsEscaped [quote] = false := by simp [endsEscaped, hquote]
    have hescaped : endsEscaped (quote :: front) = true := h.endsEscaped_dropLast hone rfl
    rw [List.dropLast_concat, hescaped] at hend
    cases hend

/-- A backslash at the end of the script closes no string. -/
theorem Quoted.ofText_backslash (hquote : quote ≠ '\\') (body : Text) :
    Quoted.ofText (quote :: (body ++ ['\\'])) = ⟨[quote], body ++ ['\\'], []⟩ := by
  simp [Quoted.ofText, hquote.symm]

end TakingApart

/-! ## Template segments -/

/-- A place where no further character belongs to a segment. -/
def EndsSegment (t : Text) : Prop :=
  t = [] ∨ (∃ rest, t = '`' :: rest) ∨ ∃ rest, t = '$' :: '{' :: rest

theorem EndsSegment.segmentLength {t : Text} (h : EndsSegment t) : segmentLength t = 0 := by
  rcases h with rfl | ⟨rest, rfl⟩ | ⟨rest, rfl⟩
  · rfl
  · cases rest <;> simp [Script.segmentLength]
  · simp [Script.segmentLength]

/-- A segment with a safe body ends where the body does. -/
theorem segmentLength_append {body rest : Text} (h : SafeBody '`' body) (hrest : EndsSegment rest) :
    segmentLength (body ++ rest) = body.length := by
  induction h with
  | nil => exact hrest.segmentLength
  | escaped c h ih =>
    rw [List.cons_append, List.cons_append, Script.segmentLength, if_pos rfl, ih]
    simp only [List.length_cons]
    omega
  | @plain c body hslash hc hhole h ih =>
    have hnext : c = '$' → (body ++ rest).head? ≠ some '{' := by
      intro hdollar
      cases body with
      | cons d body => exact hhole rfl hdollar
      | nil => rcases hrest with rfl | ⟨rest, rfl⟩ | ⟨rest, rfl⟩ <;> simp
    cases htail : body ++ rest with
    | nil =>
      obtain ⟨rfl, rfl⟩ := List.append_eq_nil_iff.mp htail
      simp [Script.segmentLength, hc]
    | cons d tail =>
      rw [htail] at ih hnext
      rw [List.cons_append, htail, Script.segmentLength, if_neg hslash, if_neg hc, if_neg, ih,
        List.length_cons]
      · omega
      · rintro ⟨hdollar, rfl⟩
        exact hnext hdollar rfl

/-- What stands in a segment before a backtick or a hole is safe. -/
theorem safeBody_segment (t : Text) (h : t.drop (segmentLength t) ≠ []) :
    SafeBody '`' (t.take (segmentLength t)) := by
  fun_induction segmentLength t with
  | case1 => exact .nil
  | case2 => exact .nil
  | case3 c hc => simp at h
  | case4 d rest ih =>
    rw [Nat.add_comm, List.take_succ_cons, List.take_succ_cons]
    rw [Nat.add_comm, List.drop_succ_cons, List.drop_succ_cons] at h
    exact .escaped d (ih h)
  | case5 => exact .nil
  | case6 => exact .nil
  | case7 c d rest hslash hc hhole ih =>
    rw [Nat.add_comm, List.take_succ_cons]
    rw [Nat.add_comm, List.drop_succ_cons] at h
    refine .plain hslash hc (fun _ hdollar hhead => hhole ⟨hdollar, ?_⟩) (ih h)
    cases hn : segmentLength (d :: rest) with
    | zero => rw [hn] at hhead; simp at hhead
    | succ n => rw [hn] at hhead; simpa using hhead

theorem endsSegment_drop (t : Text) : EndsSegment (t.drop (segmentLength t)) := by
  fun_induction segmentLength t with
  | case1 => exact .inl rfl
  | case2 => exact .inr (.inl ⟨[], rfl⟩)
  | case3 c hc => exact .inl rfl
  | case4 d rest ih =>
    rw [Nat.add_comm, List.drop_succ_cons, List.drop_succ_cons]
    exact ih
  | case5 d rest hslash => exact .inr (.inl ⟨d :: rest, rfl⟩)
  | case6 c d rest hslash hc hhole =>
    obtain ⟨rfl, rfl⟩ := hhole
    exact .inr (.inr ⟨rest, rfl⟩)
  | case7 c d rest hslash hc hhole ih =>
    rw [Nat.add_comm, List.drop_succ_cons]
    exact ih

/-- A segment is closed by a backtick or a hole after a safe body, or it takes the whole rest. -/
theorem segment_cases (t : Text) :
    (∃ body rest, SafeBody '`' body ∧ t = body ++ '`' :: rest) ∨
      (∃ body rest, SafeBody '`' body ∧ t = body ++ '$' :: '{' :: rest) ∨
      t.drop (segmentLength t) = [] := by
  have hsplit := List.take_append_drop (segmentLength t) t
  rcases endsSegment_drop t with hnil | ⟨rest, hrest⟩ | ⟨rest, hrest⟩
  · exact .inr (.inr hnil)
  · have hbody := safeBody_segment t (by rw [hrest]; exact List.cons_ne_nil _ _)
    exact .inl ⟨_, rest, hbody, by rw [← hrest, hsplit]⟩
  · have hbody := safeBody_segment t (by rw [hrest]; exact List.cons_ne_nil _ _)
    exact .inr (.inl ⟨_, rest, hbody, by rw [← hrest, hsplit]⟩)

end WebTrim.Script
