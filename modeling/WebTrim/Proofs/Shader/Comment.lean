import WebTrim.Proofs.Shader.Boundary

/-!
# A shader without its comments

A token may look at what stands behind it, and that changes when a comment there goes away. Up to
the first comment nothing changes; in its place stands a blank, or the text ends.

* `Pruned` — this relation between the text behind a token and what becomes of it.
* `pruned_stripComments` — **stripping comments yields a pruned text**.
* `tokenStep_of_pruned` — a token does not see the difference.
* `visible_stripComments` — **the tokens that carry meaning are all that is left**.
-/

set_option autoImplicit false

namespace WebTrim.Shader

open Text

/-! ## What is left of a token -/

@[simp] theorem stripComments_nil : stripComments [] = [] := by
  simp [stripComments, tokens_eq]

theorem stripComments_line (rest : Text) :
    stripComments ('/' :: '/' :: rest) =
      stripComments (rest.drop (rest.takeWhile (· ≠ '\n')).length) := by
  simp [stripComments, tokens_cons, tokenStep_line]

theorem stripComments_block (rest : Text) :
    stripComments ('/' :: '*' :: rest) =
      ' ' :: stripComments (rest.drop (lengthThrough ['*', '/'] rest)) := by
  simp [stripComments, tokens_cons, tokenStep_block]

theorem stripComments_cons {c : Char} {rest : Text}
    (h : (tokenStep () c rest).note ≠ .comment) :
    stripComments (c :: rest) =
      c :: rest.take (tokenStep () c rest).extra ++
        stripComments (rest.drop (tokenStep () c rest).extra) := by
  simp [stripComments, tokens_cons, h]

/-- A place begins a comment of either form, or is kept. -/
theorem comment_cases (c : Char) (rest : Text) :
    (∃ more, c = '/' ∧ rest = '/' :: more) ∨ (∃ more, c = '/' ∧ rest = '*' :: more) ∨
      (tokenStep () c rest).note ≠ .comment := by
  by_cases h : NoOpener c rest
  · exact .inr (.inr fun hnote => note_eq_comment_iff.mp hnote h)
  · unfold NoOpener at h
    cases rest with
    | nil => simp at h
    | cons d more =>
      by_cases hd : d = '/'
      · exact .inl ⟨more, by tauto, by rw [hd]⟩
      · refine .inr (.inl ⟨more, by tauto, ?_⟩)
        simp_all

/-! ## The text behind a token -/

/-- The texts are equal, or they are up to a slash, where the first has a blank or ends. -/
def Pruned (u t : Text) : Prop :=
  u = t ∨ ∃ v w w', t = v ++ '/' :: w ∧ u = v ++ w' ∧ ∀ c ∈ w'.head?, c = ' ' ∨ c = '\n'

theorem Pruned.append {u t : Text} (h : Pruned u t) (v : Text) : Pruned (v ++ u) (v ++ t) := by
  rcases h with rfl | ⟨v', w, w', rfl, rfl, hhead⟩
  · exact .inl rfl
  · exact .inr ⟨v ++ v', w, w', by simp, by simp, hhead⟩

/-- A line comment ends before a newline, which stays. -/
theorem eq_newline_of_line (rest : Text) :
    ∀ d ∈ (stripComments (rest.drop (rest.takeWhile (· ≠ '\n')).length)).head?, d = '\n' := by
  rw [drop_length_takeWhile]
  have hstop := List.head?_dropWhile_not (fun c : Char => decide (c ≠ '\n')) rest
  cases hline : rest.dropWhile (· ≠ '\n') with
  | nil => simp
  | cons c after =>
    rw [hline] at hstop
    have hc : c = '\n' := by simpa using hstop
    subst hc
    have hnote : (tokenStep () '\n' after).note ≠ .comment := by
      rw [tokenStep_blank (by decide)]
      simp
    rw [stripComments_cons hnote]
    simp

/-- **Stripping comments yields a pruned text.** -/
theorem pruned_stripComments (t : Text) : Pruned (stripComments t) t := by
  induction t using tokenInduction with
  | nil => exact .inl stripComments_nil
  | cons c rest ih =>
    rcases comment_cases c rest with ⟨more, rfl, rfl⟩ | ⟨more, rfl, rfl⟩ | hnote
    · refine .inr ⟨[], '/' :: more, _, rfl, stripComments_line more, fun d hd => ?_⟩
      exact .inr (eq_newline_of_line more d hd)
    · exact .inr ⟨[], '*' :: more, _, rfl, stripComments_block more, by simp⟩
    · rw [stripComments_cons hnote]
      have h := ih.append (c :: rest.take (tokenStep () c rest).extra)
      simpa using h

/-- A token does not see that the text behind it was pruned. -/
theorem tokenStep_of_pruned {c : Char} {v t u : Text} (h : Pruned u t)
    (hblank : isBlank c = false) (hopener : NoOpener c (v ++ t)) :
    tokenStep () c (v ++ u) = tokenStep () c (v ++ t) := by
  rcases h with rfl | ⟨v', w, w', rfl, rfl, hhead⟩
  · rfl
  · have hslash : Stops ('/' :: w) := by
      intro d hd
      cases hd
      decide
    have hstop : Stops w' := by
      intro d hd
      rcases hhead d hd with rfl | rfl <;> decide
    have hnone : w'.head? ≠ some '/' ∧ w'.head? ≠ some '*' := by
      constructor <;>
      · intro hd
        simpa using hhead _ hd
    rw [← List.append_assoc] at hopener ⊢
    rw [← List.append_assoc, (tokenStep_append hslash hblank hopener).1,
      (tokenStep_append hstop hblank (hopener.of_append.append hnone)).1]

/-! ## The tokens that are left -/

/-- **The tokens that carry meaning are all that is left.** -/
theorem visible_stripComments (source : Text) :
    visible (stripComments source) = significant (tokens source) := by
  induction source using tokenInduction with
  | nil => simp [significant, tokens_eq]
  | cons c rest ih =>
    rcases comment_cases c rest with ⟨more, rfl, rfl⟩ | ⟨more, rfl, rfl⟩ | hnote
    · rw [tokenStep_line] at ih
      rw [stripComments_line, tokens_cons, tokenStep_line]
      exact ih
    · rw [tokenStep_block] at ih
      rw [stripComments_block, visible_blank (by decide), tokens_cons, tokenStep_block]
      exact ih
    · rw [stripComments_cons hnote, tokens_cons]
      by_cases hblank : isBlank c = true
      · rw [tokenStep_blank hblank] at ih ⊢
        have hall : ∀ d ∈ c :: rest.take (rest.takeWhile isBlank).length, isBlank d = true := by
          rw [← List.prefix_iff_eq_take.mp (List.takeWhile_prefix _)]
          exact List.forall_mem_cons.mpr ⟨hblank, fun d hd => List.mem_takeWhile_imp hd⟩
        rw [visible_blanks hall]
        exact ih
      · have hblank : isBlank c = false := Bool.not_eq_true _ ▸ hblank
        have hopener : NoOpener c rest := by
          by_contra h
          exact hnote (note_eq_comment_iff.mpr h)
        have hle : (tokenStep () c rest).extra ≤ rest.length := by
          have hnil : NoOpener c (rest ++ []) := by rwa [List.append_nil]
          exact (tokenStep_append (by simp [Stops]) hblank hnil).2
        -- the token is read again, since the text behind it was only pruned
        have hsame : tokenStep () c (rest.take (tokenStep () c rest).extra ++
            stripComments (rest.drop (tokenStep () c rest).extra)) = tokenStep () c rest := by
          rw [tokenStep_of_pruned (pruned_stripComments _) hblank, List.take_append_drop]
          rwa [List.take_append_drop]
        have hlength := List.length_take_of_le hle
        have hsignificant : isSignificant
            ⟨(tokenStep () c rest).note, c :: rest.take (tokenStep () c rest).extra⟩ = true := by
          simp [isSignificant, hnote, note_ne_whitespace hblank]
        rw [List.cons_append, visible_cons hblank, hsame, List.take_left' hlength,
          List.drop_left' hlength, ih]
        exact (List.filter_cons_of_pos hsignificant).symm

/-- **A shader keeps its tokens when its comments go.** The tokens of a shader make up its text; the
stripped shader has no comment, and but for white space it has the tokens that the shader had. -/
theorem tokens_stripComments (source : Text) :
    Token.join (tokens source) = source ∧
    (∀ t ∈ tokens (stripComments source), t.kind ≠ .comment) ∧
    (tokens (stripComments source)).filter (fun t => t.kind ≠ .whitespace) =
      (tokens source).filter fun t => t.kind ≠ .whitespace ∧ t.kind ≠ .comment := by
  have hleft : visible (stripComments source) =
      (tokens source).filter fun t => t.kind ≠ .whitespace ∧ t.kind ≠ .comment := by
    rw [visible_stripComments, significant]
    refine List.filter_congr fun t _ => ?_
    rw [isSignificant]
    cases t.kind <;> rfl
  refine ⟨join_tokens source, ?_, hleft⟩
  intro t ht hcomment
  have hmem : t ∈ visible (stripComments source) :=
    List.mem_filter.mpr ⟨ht, by simp [hcomment]⟩
  rw [hleft] at hmem
  simp [hcomment] at hmem

end WebTrim.Shader
