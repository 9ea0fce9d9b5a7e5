import WebTrim.Proofs.Script.Replacement

/-!
# Changing the templates of a script

A function is applied to the body of each template without a hole. Around the templates the tokens
stay as they are, exactly if the slashes stay open.

* `template` — the tokens of a template without a hole; `mem_plainTemplatesFrom` finds them where
  `plainTemplates` lists them.
* `safeBody_of_not_occursIn` — which new bodies are safe.
* `mapTemplates` — the tokens with the bodies changed; `mapIdx_plainTemplates` gets them from the
  list of places, and `mergeRuns_mapTemplates` lets code be merged before or after.
* `Framed` — the same tokens but for the listed templates.
* `framed_mapTemplates_iff` — **the tokens are framed exactly if the slashes stay open**.
-/

set_option autoImplicit false

namespace WebTrim.Script

open Text

/-! ## Templates without a hole -/

theorem isBacktick_iff {t : Token Kind} : isBacktick t = true ↔ t = backtick := by
  obtain ⟨kind, text⟩ := t
  simp [isBacktick, backtick]

theorem isBacktick_of_kind {t : Token Kind} (h : t.kind ≠ .operator) : isBacktick t = false := by
  simp [isBacktick, h]

/-- The tokens of a template without a hole. -/
def template (body : Text) : List (Token Kind) :=
  [backtick, ⟨.segment, body⟩, backtick]

/-- The first place that can be listed is the second one. -/
theorem mem_plainTemplatesFrom_cons {index k : Nat} {before t : Token Kind}
    {ts : List (Token Kind)} :
    k ∈ plainTemplatesFrom index (before :: t :: ts) ↔
      (k = index + 1 ∧ t.kind = .segment ∧ isBacktick before = true ∧
        ts.head?.any isBacktick = true) ∨ k ∈ plainTemplatesFrom (index + 1) (t :: ts) := by
  cases ts with
  | nil => simp [plainTemplatesFrom]
  | cons u ts =>
    rw [plainTemplatesFrom]
    split
    · rename_i hplain
      simp [hplain]
    · rename_i hplain
      simp only [List.head?_cons, Option.any_some]
      simp [hplain]

/-- A place is listed exactly if the body of a template stands there. -/
theorem mem_plainTemplatesFrom {index k : Nat} {ts : List (Token Kind)} :
    k ∈ plainTemplatesFrom index ts ↔ ∃ front body rest,
      ts = front ++ (template body ++ rest) ∧ k = index + front.length + 1 := by
  induction ts generalizing index with
  | nil => simp [plainTemplatesFrom, template]
  | cons before ts ih =>
    cases ts with
    | nil =>
      refine iff_of_false (by simp [plainTemplatesFrom]) ?_
      rintro ⟨_ | ⟨_, front⟩, body, rest, hts, _⟩ <;> simp [template] at hts
    | cons t ts =>
      rw [mem_plainTemplatesFrom_cons, ih]
      constructor
      · rintro (⟨rfl, hkind, hbefore, hafter⟩ | ⟨front, body, rest, hts, rfl⟩)
        · obtain ⟨kind, body⟩ := t
          cases hkind
          cases ts with
          | nil => cases hafter
          | cons after ts =>
            obtain rfl := isBacktick_iff.mp hbefore
            obtain rfl := isBacktick_iff.mp hafter
            exact ⟨[], body, ts, rfl, rfl⟩
        · refine ⟨before :: front, body, rest, by rw [hts]; rfl, ?_⟩
          rw [List.length_cons]
          omega
      · rintro ⟨_ | ⟨_, front⟩, body, rest, hts, rfl⟩
        · cases hts
          exact .inl ⟨rfl, rfl, rfl, rfl⟩
        · refine .inr ⟨front, body, rest, (List.cons.inj hts).2, ?_⟩
          rw [List.length_cons]
          omega

theorem exists_of_mem_plainTemplates {k : Nat} {ts : List (Token Kind)}
    (h : k ∈ plainTemplates ts) : ∃ body, ts[k]? = some ⟨.segment, body⟩ := by
  obtain ⟨front, body, rest, rfl, rfl⟩ := mem_plainTemplatesFrom.mp h
  exact ⟨body, by simp [template]⟩

theorem exists_mem_plainTemplates {body : Text} {ts : List (Token Kind)}
    (h : template body <:+: ts) : ∃ k ∈ plainTemplates ts, ts[k]? = some ⟨.segment, body⟩ := by
  obtain ⟨front, rest, rfl⟩ := h
  rw [List.append_assoc]
  exact ⟨0 + front.length + 1, mem_plainTemplatesFrom.mpr ⟨front, body, rest, rfl, rfl⟩,
    by simp [template]⟩

/-- Merging code keeps the templates. -/
theorem template_infix_mergeRuns {body : Text} {ts : List (Token Kind)}
    (h : template body <:+: ts) : template body <:+: Token.mergeRuns .code ts := by
  obtain ⟨front, rest, rfl⟩ := h
  refine ⟨Token.mergeRuns .code front, Token.mergeRuns .code rest, ?_⟩
  have htick : backtick.kind ≠ .code := by decide
  simp only [template, List.append_assoc, List.cons_append, List.nil_append]
  rw [Token.mergeRuns_append_cons htick, Token.mergeRuns_cons_of_ne (by simp),
    Token.mergeRuns_cons_of_ne htick]

/-! ## Safe segments -/

/-- Only a backslash brings a backtick into a segment. -/
theorem backtick_not_mem_segment (t : Text) (h : '\\' ∉ t.take (segmentLength t)) :
    '`' ∉ t.take (segmentLength t) := by
  fun_induction segmentLength t with
  | case1 => simp
  | case2 => simp
  | case3 c hc => simpa using Ne.symm hc
  | case4 d rest ih => simp [Nat.add_comm 2] at h
  | case5 => simp
  | case6 => simp
  | case7 c d rest hslash hc hhole ih =>
    rw [Nat.add_comm, List.take_succ_cons, List.mem_cons, not_or] at h ⊢
    exact ⟨Ne.symm hc, ih h.2⟩

theorem backtick_not_mem_of_mem_atoms (inTemplate : Bool) (holes : List Nat) (behind t : Text) :
    ∀ a ∈ atoms inTemplate holes behind t, a.kind = .segment → '\\' ∉ a.text → '`' ∉ a.text := by
  refine forall_mem_atoms (fun t _ => backtick_not_mem_segment t) (fun _ _ => nofun) (fun _ => nofun)
    ?_ _ _ _ _
  -- no step in code reads a segment
  intro behind rest c kind n hread hkind
  subst hkind
  cases hread

/-- A text without backslashes and backticks is safe unless it opens a hole. -/
theorem safeBody_of_not_occursIn {body : Text} (hchars : ∀ c ∈ body, c ≠ '\\' ∧ c ≠ '`')
    (hhole : occursIn ['$', '{'] body = false) : SafeBody '`' body := by
  induction body with
  | nil => exact .nil
  | cons c rest ih =>
    rw [List.forall_mem_cons] at hchars
    rw [occursIn, Bool.or_eq_false_iff] at hhole
    refine .plain hchars.1.1 hchars.1.2 (fun _ hdollar hhead => ?_) (ih hchars.2 hhole.2)
    obtain ⟨more, rfl⟩ := List.head?_eq_some_iff.mp hhead
    subst hdollar
    simp [List.isPrefixOf] at hhole

/-! ## Changed bodies -/

/-- The tokens with `f` applied to the body of each template without a hole. `opened` tells whether
a backtick stands before them. -/
def mapTemplates (f : Text → Text) (opened : Bool) : List (Token Kind) → List (Token Kind)
  | [] => []
  | t :: ts =>
    (if t.kind = .segment ∧ opened ∧ ts.head?.any isBacktick then { t with text := f t.text } else t) ::
      mapTemplates f (isBacktick t) ts

section Mapped

variable {f : Text → Text}

theorem mapTemplates_cons_of_ne {t : Token Kind} (h : t.kind ≠ .segment) (opened : Bool)
    (ts : List (Token Kind)) :
    mapTemplates f opened (t :: ts) = t :: mapTemplates f (isBacktick t) ts := by
  simp [mapTemplates, h]

/-- The bodies changed are those at the listed places. -/
theorem mapIdx_plainTemplatesFrom (before : Token Kind) (ts : List (Token Kind)) (index : Nat) :
    (ts.mapIdx fun k t =>
      if (plainTemplatesFrom index (before :: ts)).contains (index + 1 + k) then
        { t with text := f t.text } else t) =
      mapTemplates f (isBacktick before) ts := by
  induction ts generalizing before index with
  | nil => rfl
  | cons t ts ih =>
    have hbelow : ∀ {k ts}, k ∈ plainTemplatesFrom (index + 1) ts → index + 1 < k := by
      intro k ts hk
      obtain ⟨front, _, _, _, rfl⟩ := mem_plainTemplatesFrom.mp hk
      omega
    rw [List.mapIdx_cons, mapTemplates, ← ih t (index + 1)]
    congr 1
    · have hself : index + 1 ∉ plainTemplatesFrom (index + 1) (t :: ts) := by
        intro h
        exact absurd (hbelow h) (Nat.lt_irrefl _)
      simp only [List.contains_iff_mem, Nat.add_zero, mem_plainTemplatesFrom_cons, hself, or_false,
        true_and]
    · apply List.mapIdx_eq_mapIdx_iff.mpr
      intro k hk
      have hshift : index + 1 + (k + 1) = index + 1 + 1 + k := by omega
      have hne : index + 1 + 1 + k ≠ index + 1 := by omega
      simp only [List.contains_iff_mem, hshift, mem_plainTemplatesFrom_cons, hne, false_and, false_or]

theorem mapIdx_plainTemplates (ts : List (Token Kind)) :
    (ts.mapIdx fun k t =>
      if (plainTemplates ts).contains k then { t with text := f t.text } else t) =
      mapTemplates f false ts := by
  cases ts with
  | nil => rfl
  | cons t ts =>
    have hfirst : 0 ∉ plainTemplates (t :: ts) := by
      intro h
      obtain ⟨front, _, _, _, hk⟩ := mem_plainTemplatesFrom.mp h
      omega
    rw [List.mapIdx_cons, mapTemplates, ← mapIdx_plainTemplatesFrom t ts 0]
    congr 1
    · simp [hfirst]
    · apply List.mapIdx_eq_mapIdx_iff.mpr
      intro k hk
      simp only [plainTemplates, Nat.add_comm k 1, Nat.zero_add]

/-- Merging code does not change whether a backtick comes first. -/
theorem any_isBacktick_mergeRuns (ts : List (Token Kind)) :
    (Token.mergeRuns .code ts).head?.any isBacktick = ts.head?.any isBacktick := by
  cases ts with
  | nil => rfl
  | cons t ts =>
    by_cases hcode : t.kind = .code
    · obtain ⟨text, more, hmerged⟩ := Token.mergeRuns_head (k := Kind.code) t ts
      have hnot : ∀ text, isBacktick ⟨t.kind, text⟩ = false := fun _ =>
        isBacktick_of_kind (by simp [hcode])
      rw [hmerged, List.head?_cons, List.head?_cons, Option.any_some, Option.any_some, hnot, hnot]
    · rw [Token.mergeRuns_cons_of_ne hcode]
      rfl

/-- Code may be merged before or after the bodies are changed. -/
theorem mergeRuns_mapTemplates (opened : Bool) (ts : List (Token Kind)) :
    Token.mergeRuns .code (mapTemplates f opened ts) =
      mapTemplates f opened (Token.mergeRuns .code ts) := by
  induction ts generalizing opened with
  | nil => rfl
  | cons t ts ih =>
    by_cases hcode : t.kind = .code
    · have hnot : t.kind ≠ .segment := by simp [hcode]
      rw [mapTemplates_cons_of_ne hnot, Token.mergeRuns, ih, Token.mergeRuns]
      cases Token.mergeRuns .code ts with
      | nil => simp [mapTemplates, hcode]
      | cons u merged =>
        by_cases hrun : u.kind = .code
        · have hu : u.kind ≠ .segment := by simp [hrun]
          have htick : isBacktick u = false := isBacktick_of_kind (by simp [hrun])
          rw [mapTemplates_cons_of_ne hu, htick]
          simp only [hcode, hrun, and_self, if_true]
          rw [mapTemplates_cons_of_ne (by simp), isBacktick_of_kind (by simp)]
        · rw [mapTemplates]
          simp only [hcode, true_and]
          rw [if_neg, if_neg hrun, mapTemplates_cons_of_ne hnot, mapTemplates]
          split
          · exact hrun
          · exact hrun
    · rw [Token.mergeRuns_cons_of_ne hcode, mapTemplates, mapTemplates, any_isBacktick_mergeRuns,
        Token.mergeRuns_cons_of_ne, ih]
      split
      · exact hcode
      · exact hcode

/-- If each body is kept or made safe, the tokens are rewritten. -/
theorem rewrites_mapTemplates {opened : Bool} {ts : List (Token Kind)}
    (hsafe : ∀ body, template body <:+: ts → f body = body ∨ SafeBody '`' (f body))
    (hfirst : opened = true → ∀ body, [⟨.segment, body⟩, backtick] <+: ts →
      f body = body ∨ SafeBody '`' (f body)) :
    ts.Forall₂ Rewrites (mapTemplates f opened ts) := by
  induction ts generalizing opened with
  | nil => exact .nil
  | cons t ts ih =>
    refine .cons ?_ (ih (fun body h => hsafe body (h.trans (List.suffix_cons t ts).isInfix)) ?_)
    · split
      · rename_i hplain
        obtain ⟨hkind, hopened, hclosed⟩ := hplain
        obtain ⟨kind, body⟩ := t
        cases hkind
        cases ts with
        | nil => cases hclosed
        | cons u ts =>
          obtain rfl := isBacktick_iff.mp hclosed
          rcases hfirst hopened body ⟨ts, rfl⟩ with hsame | hnew
          · rw [hsame]
            exact .same _
          · exact .segment body hnew
      · exact .same t
    · intro htick body hprefix
      obtain rfl := isBacktick_iff.mp htick
      exact hsafe body ((List.prefix_cons_inj backtick).mpr hprefix).isInfix

end Mapped

/-! ## Framed tokens -/

/-- The tokens have the same kinds and, except that the bodies of templates without a hole may be
replaced as `Replaces` says, the same texts. -/
def Framed (Replaces : Text → Text → Prop) (ts new : List (Token Kind)) : Prop :=
  new.length = ts.length ∧ ∀ k t u, ts[k]? = some t → new[k]? = some u →
    u.kind = t.kind ∧ (u.text = t.text ∨ k ∈ plainTemplates ts ∧ Replaces t.text u.text)

section Framed

variable {Replaces : Text → Text → Prop} {ts new : List (Token Kind)}

theorem Framed.map_skeleton (h : Framed Replaces ts new) : new.map skeleton = ts.map skeleton := by
  apply List.ext_getElem (by simp [h.1])
  intro k hk hk'
  rw [List.length_map] at hk hk'
  obtain ⟨hkind, htext⟩ := h.2 k _ _ (List.getElem?_eq_getElem hk') (List.getElem?_eq_getElem hk)
  rw [List.getElem_map, List.getElem_map]
  rcases htext with hsame | ⟨hplain, _⟩
  · rw [skeleton, skeleton, literalBody?, literalBody?, hkind, hsame]
  · obtain ⟨body, hbody⟩ := exists_of_mem_plainTemplates hplain
    rw [List.getElem?_eq_getElem hk', Option.some.injEq] at hbody
    rw [hbody] at hkind ⊢
    simp [skeleton, literalBody?, hkind]

theorem framed_mapTemplates {f : Text → Text} (hf : ∀ body, f body = body ∨ Replaces body (f body))
    (ts : List (Token Kind)) : Framed Replaces ts (mapTemplates f false ts) := by
  rw [← mapIdx_plainTemplates]
  refine ⟨List.length_mapIdx, fun k t u ht hu => ?_⟩
  rw [List.getElem?_mapIdx, ht, Option.map_some, Option.some.injEq] at hu
  subst hu
  split
  · rename_i hplain
    rw [List.contains_iff_mem] at hplain
    exact ⟨rfl, (hf t.text).imp_right fun h => ⟨hplain, h⟩⟩
  · exact ⟨rfl, .inl rfl⟩

/-- **Around templates the tokens stay exactly if the slashes stay open.** Let `f` keep the body of
each template without a hole or make it safe. -/
theorem framed_mapTemplates_iff {f : Text → Text}
    (hf : ∀ body, f body = body ∨ Replaces body (f body)) (script : Text)
    (hsafe : ∀ body, template body <:+: tokens script → f body = body ∨ SafeBody '`' (f body)) :
    Framed Replaces (tokens script) (tokens (Token.join (mapTemplates f false (tokens script)))) ↔
      SlashesOpen [] (atoms false [] [] script) (mapTemplates f false (atoms false [] [] script)) := by
  have hrewrites : (atoms false [] [] script).Forall₂ Rewrites
      (mapTemplates f false (atoms false [] [] script)) :=
    rewrites_mapTemplates (fun body h => hsafe body (tokens_eq script ▸ template_infix_mergeRuns h))
      (fun h => absurd h Bool.false_ne_true)
  have houtcome := preserved_of_rewrites false [] script [] [] _ (fun _ _ => rfl) hrewrites
  rw [← Token.join_mergeRuns .code, mergeRuns_mapTemplates, ← tokens_eq] at houtcome
  rcases houtcome with ⟨hopen, hnew⟩ | ⟨hclosed, hdiverges⟩
  · refine iff_of_true ?_ hopen
    have htokens : tokens (Token.join (mapTemplates f false (tokens script))) =
        mapTemplates f false (tokens script) := by
      rw [tokens_eq, hnew, mergeRuns_mapTemplates, ← tokens_eq]
    rw [htokens]
    exact framed_mapTemplates hf (tokens script)
  · refine iff_of_false (fun h => hdiverges.skeleton_ne ?_) hclosed
    rw [← tokens_eq, ← tokens_eq]
    exact h.map_skeleton

end Framed

end WebTrim.Script
