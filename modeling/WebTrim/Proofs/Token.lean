import Mathlib.Data.List.Basic
import Mathlib.Data.List.Chain
import WebTrim.Token

/-!
# Token lists

A token list stands for its text. Where neighbouring tokens of one kind are merged, the tokens of
other kinds stay as they are.

* `mergeRuns_map` — a map that changes no token of the merged kind may be applied before or after.
* `mem_mergeRuns`, `filter_mergeRuns` — tokens of other kinds stay as they are, in their order.
* `isChain_mergeRuns` — no two merged tokens are neighbours.
* `mergeRuns_append_cons` — a token of another kind separates the runs.
* `mergeRuns_append` — what stands before a run decides only what the run is merged with.

A scanner records places with a cursor of its own, which may even run past the end of the text.

* `Contiguous` — the recorded places are those of tokens that stand one after another.
* `contiguous_scan`, `Contiguous.mergeRuns` — **scanners record such places**, and merging keeps them.
* `Contiguous.slice`, `Contiguous.isChain` — the text of a token stands at its place, which is where
  the token before it ends.
-/

set_option autoImplicit false

namespace WebTrim.Token

variable {κ : Type} [DecidableEq κ] {k : κ}

theorem mergeRuns_map {g : Token κ → Token κ} (hkind : ∀ t, (g t).kind = t.kind)
    (hfix : ∀ t, t.kind = k → g t = t) (ts : List (Token κ)) :
    mergeRuns k (ts.map g) = (mergeRuns k ts).map g := by
  induction ts with
  | nil => rfl
  | cons t ts ih =>
    rw [List.map_cons, mergeRuns, mergeRuns, ih]
    cases mergeRuns k ts with
    | nil => rfl
    | cons u merged =>
      simp only [List.map_cons, hkind]
      by_cases hrun : t.kind = k ∧ u.kind = k
      · simp [hrun, hfix t hrun.1, hfix u hrun.2, hfix ⟨k, t.text ++ u.text⟩ rfl]
      · simp [hrun]

theorem mem_mergeRuns {t : Token κ} (ht : t.kind ≠ k) {ts : List (Token κ)} :
    t ∈ mergeRuns k ts ↔ t ∈ ts := by
  induction ts with
  | nil => rfl
  | cons u ts ih =>
    rw [mergeRuns, List.mem_cons, ← ih]
    cases mergeRuns k ts with
    | nil => simp
    | cons v merged =>
      by_cases hrun : u.kind = k ∧ v.kind = k
      · have hu : t ≠ u := fun h => ht (h ▸ hrun.1)
        have hv : t ≠ v := fun h => ht (h ▸ hrun.2)
        have huv : t ≠ ⟨k, u.text ++ v.text⟩ := fun h => ht (h ▸ rfl)
        simp [hrun, hu, hv, huv]
      · simp [hrun]

/-- Merging leaves the tokens of other kinds in their order. -/
theorem filter_mergeRuns (ts : List (Token κ)) :
    (mergeRuns k ts).filter (fun t => t.kind ≠ k) = ts.filter fun t => t.kind ≠ k := by
  induction ts with
  | nil => rfl
  | cons u ts ih =>
    rw [mergeRuns, List.filter_cons, ← ih]
    cases mergeRuns k ts with
    | nil => simp [List.filter_cons]
    | cons v merged =>
      by_cases hrun : u.kind = k ∧ v.kind = k
      · simp [hrun]
      · simp only [if_neg hrun, List.filter_cons]

theorem mergeRuns_head (t : Token κ) (ts : List (Token κ)) :
    ∃ text more, mergeRuns k (t :: ts) = ⟨t.kind, text⟩ :: more := by
  rw [mergeRuns]
  split
  · exact ⟨t.text, [], rfl⟩
  · rename_i u merged _
    split
    · rename_i hrun
      exact ⟨t.text ++ u.text, merged, by rw [hrun.1]⟩
    · exact ⟨t.text, u :: merged, rfl⟩

/-- After the first token of a merged list come tokens of the merged list without its first token. -/
theorem mem_mergeRuns_of_tail {t u v : Token κ} {ts more : List (Token κ)}
    (h : mergeRuns k (t :: ts) = u :: more) (hv : v ∈ more) : v ∈ mergeRuns k ts := by
  rw [mergeRuns] at h
  cases hmerged : mergeRuns k ts with
  | nil =>
    rw [hmerged] at h
    cases h
    exact absurd hv List.not_mem_nil
  | cons w merged =>
    rw [hmerged] at h
    simp only at h
    split at h
    · cases h
      exact List.mem_cons_of_mem _ hv
    · cases h
      exact hv

/-- No two tokens of the merged kind are neighbours. -/
theorem isChain_mergeRuns (k : κ) (ts : List (Token κ)) :
    (mergeRuns k ts).IsChain fun t u => ¬(t.kind = k ∧ u.kind = k) := by
  induction ts with
  | nil => exact .nil
  | cons t ts ih =>
    rw [mergeRuns]
    cases hmerged : mergeRuns k ts with
    | nil => exact .singleton t
    | cons u merged =>
      rw [hmerged] at ih
      by_cases hrun : t.kind = k ∧ u.kind = k
      · simp only [if_pos hrun]
        refine ih.imp_head fun {z} hz => ?_
        rwa [hrun.2] at hz
      · simp only [if_neg hrun]
        exact .cons_cons hrun ih

/-- If no token of the merged kind is empty, none is after the merge. -/
theorem text_ne_nil_of_mem_mergeRuns {ts : List (Token κ)}
    (h : ∀ t ∈ ts, t.kind = k → t.text ≠ []) :
    ∀ t ∈ mergeRuns k ts, t.kind = k → t.text ≠ [] := by
  induction ts with
  | nil => exact fun t ht => absurd ht List.not_mem_nil
  | cons u ts ih =>
    have ih := ih fun t ht => h t (List.mem_cons_of_mem _ ht)
    have hu := h u List.mem_cons_self
    intro t ht
    rw [mergeRuns] at ht
    cases hmerged : mergeRuns k ts with
    | nil =>
      rw [hmerged] at ht
      rw [List.mem_singleton.mp ht]
      exact hu
    | cons v merged =>
      rw [hmerged] at ht ih
      by_cases hrun : u.kind = k ∧ v.kind = k
      · simp only [if_pos hrun, List.mem_cons] at ht
        rcases ht with rfl | ht
        · exact fun _ hnil => hu hrun.1 (List.append_eq_nil_iff.mp hnil).1
        · exact ih t (List.mem_cons_of_mem _ ht)
      · simp only [if_neg hrun] at ht
        rcases List.mem_cons.mp ht with rfl | ht
        · exact hu
        · exact ih t ht

/-- A run of the merged kind at the beginning becomes one token with the text of the run. -/
theorem mergeRuns_cons_run (text : Text) (ts : List (Token κ)) :
    ∃ more, mergeRuns k (⟨k, text⟩ :: ts) =
      ⟨k, text ++ join (ts.takeWhile (·.kind = k))⟩ :: more := by
  induction ts generalizing text with
  | nil => exact ⟨[], by simp [mergeRuns]⟩
  | cons u ts ih =>
    obtain ⟨kind, utext⟩ := u
    by_cases hu : kind = k
    · subst hu
      obtain ⟨more, hmore⟩ := ih utext
      refine ⟨more, ?_⟩
      rw [mergeRuns, hmore]
      simp
    · obtain ⟨vtext, more, hmore⟩ := mergeRuns_head ⟨kind, utext⟩ ts
      refine ⟨⟨kind, vtext⟩ :: more, ?_⟩
      rw [mergeRuns, hmore]
      simp [hu]

theorem mergeRuns_cons_of_ne {t : Token κ} (ht : t.kind ≠ k) (ts : List (Token κ)) :
    mergeRuns k (t :: ts) = t :: mergeRuns k ts := by
  rw [mergeRuns]
  cases mergeRuns k ts with
  | nil => rfl
  | cons u merged => simp [ht]

/-- A token of another kind separates what is merged before it from what is merged after it. -/
theorem mergeRuns_append_cons {t : Token κ} (ht : t.kind ≠ k) (front ts : List (Token κ)) :
    mergeRuns k (front ++ t :: ts) = mergeRuns k front ++ t :: mergeRuns k ts := by
  induction front with
  | nil => exact mergeRuns_cons_of_ne ht ts
  | cons u front ih =>
    rw [List.cons_append, mergeRuns, ih, mergeRuns]
    cases mergeRuns k front with
    | nil => simp [ht]
    | cons v merged =>
      simp only [List.cons_append]
      split <;> rfl

/-- Tokens that are all of the merged kind become one. -/
theorem mergeRuns_of_forall {ts : List (Token κ)} (hne : ts ≠ []) (h : ∀ t ∈ ts, t.kind = k) :
    mergeRuns k ts = [⟨k, join ts⟩] := by
  induction ts with
  | nil => exact absurd rfl hne
  | cons t ts ih =>
    obtain ⟨kind, text⟩ := t
    obtain rfl : kind = k := h _ List.mem_cons_self
    cases ts with
    | nil => simp [mergeRuns]
    | cons u ts =>
      rw [mergeRuns, ih (by simp) fun t ht => h t (List.mem_cons_of_mem _ ht)]
      simp

/-- A run of the merged kind becomes one token, if no such token follows it. -/
theorem mergeRuns_run_append {run ts : List (Token κ)} (hne : run ≠ [])
    (hrun : ∀ t ∈ run, t.kind = k) (hnext : ∀ u ∈ (mergeRuns k ts).head?, u.kind ≠ k) :
    mergeRuns k (run ++ ts) = ⟨k, join run⟩ :: mergeRuns k ts := by
  induction run with
  | nil => exact absurd rfl hne
  | cons t run ih =>
    obtain ⟨kind, text⟩ := t
    obtain ⟨rfl, hrun⟩ := List.forall_mem_cons.mp hrun
    rw [List.cons_append, mergeRuns]
    cases run with
    | nil =>
      rw [List.nil_append]
      cases hmerged : mergeRuns kind ts with
      | nil => simp
      | cons u merged =>
        have hu : u.kind ≠ kind := hnext u (by rw [hmerged]; rfl)
        simp [hu]
    | cons u run =>
      rw [ih (by simp) hrun]
      simp

/-- What stands before a token of the merged kind is merged in one way, whatever the text of that
token is and whatever stands after it. -/
theorem mergeRuns_append (before : List (Token κ)) :
    ∃ merged lead, ∀ ts text more, mergeRuns k ts = ⟨k, text⟩ :: more →
      mergeRuns k (before ++ ts) = merged ++ ⟨k, lead ++ text⟩ :: more := by
  induction before with
  | nil => exact ⟨[], [], fun ts text more h => h⟩
  | cons t before ih =>
    obtain ⟨merged, lead, hmerged⟩ := ih
    cases merged with
    | nil =>
      by_cases ht : t.kind = k
      · refine ⟨[], t.text ++ lead, fun ts text more h => ?_⟩
        rw [List.cons_append, mergeRuns, hmerged ts text more h]
        simp [ht]
      · refine ⟨[t], lead, fun ts text more h => ?_⟩
        rw [List.cons_append, mergeRuns, hmerged ts text more h]
        simp [ht]
    | cons u merged =>
      by_cases hrun : t.kind = k ∧ u.kind = k
      · refine ⟨⟨k, t.text ++ u.text⟩ :: merged, lead, fun ts text more h => ?_⟩
        rw [List.cons_append, mergeRuns, hmerged ts text more h]
        simp [hrun]
      · refine ⟨t :: u :: merged, lead, fun ts text more h => ?_⟩
        rw [List.cons_append, mergeRuns, hmerged ts text more h]
        simp [hrun]

end WebTrim.Token

namespace WebTrim.Placed

variable {σ κ : Type}

/-- The tokens stand one after another, the first at `first`. -/
def Contiguous (first : Nat) (ps : List (Placed κ)) : Prop :=
  ps.map start = Token.starts first (ps.map toToken)

theorem contiguous_nil (first : Nat) : Contiguous first ([] : List (Placed κ)) := rfl

theorem contiguous_cons {first : Nat} {p : Placed κ} {ps : List (Placed κ)} :
    Contiguous first (p :: ps) ↔ p.start = first ∧ Contiguous (first + p.text.length) ps := by
  simp [Contiguous, Token.starts]

/-- **A scanner with a cursor records where its tokens begin.** It may be told to take more than there
is, but then no token follows. -/
theorem contiguous_scan (step : σ → Char → Text → Step σ κ) (state : σ) (first : Nat) (t : Text) :
    Contiguous first (scan step state first t) := by
  fun_induction Text.scan step state t generalizing first with
  | case1 => simp [scan, contiguous_nil]
  | case2 state c rest s ih =>
    have hscan : scan step state first (c :: rest) =
        ⟨⟨s.note, c :: rest.take s.extra⟩, first⟩ ::
          scan step s.next (first + (s.extra + 1)) (rest.drop s.extra) := by
      rw [scan, Text.scan_cons, List.map_cons]
      rfl
    rw [hscan, contiguous_cons]
    refine ⟨rfl, ?_⟩
    by_cases hfits : s.extra ≤ rest.length
    · rw [List.length_cons, List.length_take_of_le hfits]
      exact ih _
    · rw [List.drop_eq_nil_of_le (Nat.le_of_not_le hfits), scan, Text.scan_nil]
      exact contiguous_nil _

variable {first : Nat} {ps : List (Placed κ)}

/-- A merged run begins where its first token does. -/
theorem Contiguous.mergeRuns [DecidableEq κ] (k : κ) (h : Contiguous first ps) :
    Contiguous first (mergeRuns k ps) := by
  induction ps generalizing first with
  | nil => exact h
  | cons p ps ih =>
    obtain ⟨hstart, hrest⟩ := contiguous_cons.mp h
    have ih := ih hrest
    rw [Placed.mergeRuns]
    cases hmerged : Placed.mergeRuns k ps with
    | nil => exact contiguous_cons.mpr ⟨hstart, contiguous_nil _⟩
    | cons q merged =>
      rw [hmerged] at ih
      by_cases hrun : p.kind = k ∧ q.kind = k
      · simp only [if_pos hrun]
        refine contiguous_cons.mpr ⟨hstart, ?_⟩
        rw [List.length_append, ← Nat.add_assoc]
        exact (contiguous_cons.mp ih).2
      · simp only [if_neg hrun]
        exact contiguous_cons.mpr ⟨hstart, ih⟩

/-- The text of a token stands where the token begins. -/
theorem Contiguous.slice (before : Text) (h : Contiguous before.length ps) :
    ∀ p ∈ ps, ((before ++ Token.join (ps.map toToken)).drop p.start).take p.text.length = p.text := by
  induction ps generalizing before with
  | nil => exact fun p hp => absurd hp List.not_mem_nil
  | cons q ps ih =>
    obtain ⟨hstart, hrest⟩ := contiguous_cons.mp h
    rw [List.map_cons, Token.join_cons]
    intro p hp
    rcases List.mem_cons.mp hp with rfl | hp
    · rw [hstart, List.drop_left, List.take_left]
    · rw [← List.append_assoc]
      rw [← List.length_append] at hrest
      exact ih (before ++ q.text) hrest p hp

/-- Each token begins where the one before it ends. -/
theorem Contiguous.isChain (h : Contiguous first ps) :
    ps.IsChain fun p q => q.start = p.start + p.text.length := by
  induction ps generalizing first with
  | nil => exact .nil
  | cons p ps ih =>
    obtain ⟨hstart, hrest⟩ := contiguous_cons.mp h
    refine (ih hrest).cons fun q hq => ?_
    cases ps with
    | nil => cases hq
    | cons q' ps =>
      cases hq
      rw [(contiguous_cons.mp hrest).1, hstart]

end WebTrim.Placed
