import WebTrim.Proofs.Stylesheet.CustomProperty
import WebTrim.ScopeId

/-!
# Scope ids of a renamed text

A scope id begins wherever its fixed beginning stands before a letter or a digit, and that beginning
may overlap itself. A renamed id keeps it, so up to its length the text at any place stays the same.

* `OpensScope` — a scope id begins here; `matcher_run`: how far it goes.
* `take_rewritten` — **as many characters as the beginning has stay at every place**.
* `answers_scope` — hence at every place the renamed id is taken from the renamed text.
* `renaming_commutes_with_finding` — **custom properties and scope ids of a renamed text are the
  renamed ones**.
-/

set_option autoImplicit false

namespace WebTrim

open Text

namespace ScopeId

/-! ## Where a scope id begins -/

/-- A scope id begins here. -/
def OpensScope (lead t : Text) : Prop :=
  ∃ d more, t = lead ++ d :: more ∧ isAsciiAlnum d = true

variable {lead : Text}

theorem matcher_run {before : Option Char} {c : Char} {rest run after : Text} (hlead : lead ≠ [])
    (hsplit : c :: rest = lead ++ (run ++ after)) (hne : run ≠ [])
    (hrun : ∀ d ∈ run, isAsciiAlnum d = true) (hafter : ∀ d ∈ after.head?, isAsciiAlnum d = false) :
    matcher lead before c rest = (lead.length + run.length - 1, some run) := by
  have htaken : (run ++ after).takeWhile isAsciiAlnum = run := by
    rw [takeWhile_append_of_stop hafter, List.takeWhile_eq_self_iff.mpr hrun]
  have hbegins : lead.isPrefixOf? (c :: rest) = some (run ++ after) :=
    List.isPrefixOf?_eq_some_iff_append_eq.mpr hsplit.symm
  simp [matcher, Matcher.ofPattern, hbegins, htaken, hlead, hne]

theorem matcher_pass {before : Option Char} {c : Char} {rest : Text}
    (h : ¬OpensScope lead (c :: rest)) : matcher lead before c rest = (0, none) := by
  cases hbegins : lead.isPrefixOf? (c :: rest) with
  | none => simp [matcher, Matcher.ofPattern, hbegins]
  | some after =>
    have hsplit := List.isPrefixOf?_eq_some_iff_append_eq.mp hbegins
    have hrun : after.takeWhile isAsciiAlnum = [] := by
      cases after with
      | nil => rfl
      | cons d more =>
        have hd : isAsciiAlnum d = false := by
          by_contra hd
          exact h ⟨d, more, hsplit.symm, Bool.not_eq_false _ ▸ hd⟩
        simp [hd]
    simp [matcher, Matcher.ofPattern, hbegins, hrun]

/-- A scope id that begins here goes on to the first character that is no letter or digit. -/
theorem OpensScope.exists_run {t : Text} (h : OpensScope lead t) :
    ∃ run after, t = lead ++ (run ++ after) ∧ run ≠ [] ∧
      (∀ d ∈ run, isAsciiAlnum d = true) ∧ ∀ d ∈ after.head?, isAsciiAlnum d = false := by
  obtain ⟨d, more, rfl, hd⟩ := h
  obtain ⟨run, after, hsplit, hrun, hafter, hne⟩ := Text.exists_run isAsciiAlnum (d :: more)
  exact ⟨run, after, congrArg (lead ++ ·) hsplit, hne d rfl hd, hrun, hafter⟩

/-! ## Renaming -/

/-- What stands in the place of a scope id. -/
def renamedId (lead : Text) (scopes : RenameMap) (run : Text) : Option Text :=
  (scopes.find? run).map (lead ++ ·)

theorem replacement_scope (scopes : RenameMap) (run : Text) :
    Matcher.replacement (renamedId lead scopes) ⟨lead ++ run, some run⟩ =
      lead ++ scopes.rename run := by
  cases hfind : scopes.find? run <;> simp [Matcher.replacement, renamedId, RenameMap.rename, hfind]

/-- The piece of a scope id and the text behind it. -/
theorem take_drop_of_scope {c : Char} {rest run after : Text} (hlead : lead ≠ [])
    (hsplit : c :: rest = lead ++ (run ++ after)) :
    c :: rest.take (lead.length + run.length - 1) = lead ++ run ∧
      rest.drop (lead.length + run.length - 1) = after := by
  rw [← List.append_assoc] at hsplit
  have hpiece := take_drop_of_split (by simp [hlead]) hsplit
  rwa [List.length_append] at hpiece

/-- **As many characters as the beginning has stay at every place.** -/
theorem take_rewritten (hlead : lead ≠ []) (scopes : RenameMap) (before : Option Char) (t : Text)
    {n : Nat} (hn : n ≤ lead.length) :
    (rewritten (matcher lead).step (Matcher.replacement (renamedId lead scopes)) before t).take n =
      t.take n := by
  induction t generalizing before n with
  | nil => simp
  | cons c rest ih =>
    by_cases hopens : OpensScope lead (c :: rest)
    · -- both texts begin with the beginning of the id
      obtain ⟨run, after, hsplit, hne, hrun, hafter⟩ := hopens.exists_run
      rw [rewritten_cons]
      simp only [Matcher.step, matcher_run hlead hsplit hne hrun hafter,
        (take_drop_of_scope hlead hsplit).1, replacement_scope]
      rw [hsplit, List.append_assoc, List.take_append_of_le_length hn,
        List.take_append_of_le_length hn]
    · rw [Matcher.rewritten_pass (matcher_pass hopens)]
      cases n with
      | zero => rfl
      | succ n => rw [List.take_succ_cons, List.take_succ_cons, ih _ (Nat.le_of_succ_le hn)]

theorem head?_rewritten (hlead : lead ≠ []) (scopes : RenameMap) (before : Option Char) (t : Text) :
    (rewritten (matcher lead).step (Matcher.replacement (renamedId lead scopes)) before t).head? =
      t.head? := by
  have hone := take_rewritten hlead scopes before t (List.length_pos_iff.mpr hlead)
  simpa [List.head?_take] using congrArg List.head? hone

/-- A place where no scope id begins stays one. -/
theorem not_opensScope_rewritten (hlead : lead ≠ []) (scopes : RenameMap) {c : Char} {rest : Text}
    (h : ¬OpensScope lead (c :: rest)) :
    ¬OpensScope lead (c :: rewritten (matcher lead).step
      (Matcher.replacement (renamedId lead scopes)) (some c) rest) := by
  rintro ⟨d, more, hsplit, hd⟩
  have hsame := take_rewritten hlead scopes (some c) rest (Nat.le_refl _)
  have htake : (c :: rest).take (lead.length + 1) = lead ++ [d] := by
    rw [List.take_succ_cons, ← hsame, ← List.take_succ_cons, hsplit, List.take_length_add_append]
    rfl
  refine h ⟨d, (c :: rest).drop (lead.length + 1), ?_, hd⟩
  have happend := List.take_append_drop (lead.length + 1) (c :: rest)
  rw [htake, List.append_assoc, List.singleton_append] at happend
  exact happend.symm

/-- At every place the renamed id is taken from the renamed text. -/
theorem answers_scope (hlead : lead ≠ []) {scopes : RenameMap} (h : scopes.Spelled [] isAsciiAlnum)
    (before before' : Option Char) (c : Char) (rest : Text) :
    Answers (matcher lead).step (Matcher.replacement (renamedId lead scopes))
      (Option.map scopes.rename) (fun _ _ _ => True) before before' c rest := by
  by_cases hopens : OpensScope lead (c :: rest)
  · obtain ⟨run, after, hsplit, hne, hrun, hafter⟩ := hopens.exists_run
    obtain ⟨htake, hdrop⟩ := take_drop_of_scope hlead hsplit
    obtain ⟨hword, hwordrun⟩ :
        scopes.rename run ≠ [] ∧ ∀ d ∈ scopes.rename run, isAsciiAlnum d = true := by
      cases hfind : scopes.find? run with
      | none =>
        rw [RenameMap.rename_of_find?_none hfind]
        exact ⟨hne, hrun⟩
      | some short =>
        obtain ⟨word, rfl, hword⟩ := h _ _ hfind
        rw [RenameMap.rename_of_find? hfind]
        exact hword
    simp only [Answers, Matcher.step, matcher_run hlead hsplit hne hrun hafter, htake, hdrop,
      replacement_scope]
    obtain ⟨first, body, rfl⟩ := List.exists_cons_of_ne_nil hlead
    refine ⟨first, body ++ scopes.rename run, rfl, fun tail htail => ?_⟩
    have hstop : ∀ d ∈ tail.head?, isAsciiAlnum d = false := by
      rw [htail, head?_rewritten hlead]
      exact hafter
    have hsplit' : first :: (body ++ scopes.rename run ++ tail) =
        (first :: body) ++ (scopes.rename run ++ tail) := by simp
    have htake' := (take_drop_of_scope hlead hsplit').1
    rw [List.cons_append, List.cons.injEq] at htake'
    rw [matcher_run hlead hsplit' hword hwordrun hstop]
    exact ⟨htake'.2, rfl, trivial⟩
  · exact Matcher.answers_of_pass (fun _ _ => trivial) (matcher_pass hopens)
      (matcher_pass (not_opensScope_rewritten hlead scopes hopens))

/-- The scope ids of a renamed text are the renamed ids. -/
theorem all_rename (hlead : lead ≠ []) {scopes : RenameMap} (h : scopes.Spelled [] isAsciiAlnum)
    (t : Text) : all lead (rename lead scopes t) = (all lead t).map scopes.rename :=
  Matcher.findAll_replaceAll (fun s s' c rest _ => answers_scope hlead h s s' c rest) trivial

end ScopeId

/-- **Renaming commutes with finding.** The custom properties of a text with renamed custom
properties are the renamed ones, and so are the scope ids of a text with renamed scope ids, whatever
the beginning of a scope id is. -/
theorem renaming_commutes_with_finding {properties scopes : RenameMap} {lead : Text}
    (hproperties : properties.Spelled "--".toList isAsciiLetter) (hlead : lead ≠ [])
    (hscopes : scopes.Spelled [] isAsciiAlnum) (t : Text) :
    Stylesheet.propertiesIn (Stylesheet.renameProperties properties t) =
        (Stylesheet.propertiesIn t).map properties.rename ∧
      ScopeId.all lead (ScopeId.rename lead scopes t) = (ScopeId.all lead t).map scopes.rename :=
  ⟨Stylesheet.propertiesIn_renameProperties hproperties t, ScopeId.all_rename hlead hscopes t⟩

/-- A text with a scope id whose beginning overlaps the text before it. -/
def overlapText : Text :=
  "a-a-ab2 a-aa-ab2 --tone:var(--tone-2),---tone".toList

theorem renaming_commutes_with_finding_overlap :
    RenameMap.Spelled "--".toList isAsciiLetter ⟨[("--tone".toList, "--t".toList)]⟩ ∧
      RenameMap.Spelled [] isAsciiAlnum ⟨[("b2".toList, "a".toList)]⟩ ∧
      Stylesheet.propertiesIn (Stylesheet.renameProperties ⟨[("--tone".toList, "--t".toList)]⟩
        overlapText) = ["--t".toList, "--tone-2".toList, "---tone".toList] ∧
      ScopeId.all "a-a".toList (ScopeId.rename "a-a".toList ⟨[("b2".toList, "a".toList)]⟩
        overlapText) = ["a".toList, "a".toList] :=
  have hproperties : RenameMap.Spelled "--".toList isAsciiLetter
      ⟨[("--tone".toList, "--t".toList)]⟩ := RenameMap.spelled_of_entries (by decide)
  have hscopes : RenameMap.Spelled [] isAsciiAlnum ⟨[("b2".toList, "a".toList)]⟩ :=
    RenameMap.spelled_of_entries (by decide)
  have hlead : "a-a".toList ≠ [] := by decide
  have hfound := renaming_commutes_with_finding hproperties hlead hscopes overlapText
  ⟨hproperties, hscopes, hfound.1.trans (by decide +kernel), hfound.2.trans (by decide +kernel)⟩

end WebTrim
