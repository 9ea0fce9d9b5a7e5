import WebTrim.Proofs.Naming.Allocation
import WebTrim.Proofs.Text.Scan
import WebTrim.Shader.Minify

/-!
# The characters of a minified shader

Minifying writes few characters of its own: letters, a zero, a number sign, spaces and newlines. All
others come from the source.

* `Admits` — a property that these characters have; `AdmitsLine`: those within a line.
* `Keeps` — a step gives texts of characters with the property from such texts.
* `keeps_stripComments`, `keeps_renameLocals`, `keeps_shortenNumbers`, `keeps_compactSpacing` — the
  four steps.
* `keeps_minifyBody` — **hence every minified template body**.
-/

set_option autoImplicit false

namespace WebTrim.Shader

open Text

/-- `P` holds of the characters that stand in a compact line. -/
structure AdmitsLine (P : Char → Prop) : Prop where
  letter : ∀ {c}, isAsciiLetter c = true → P c
  sign : P '#'
  space : P ' '

/-- `P` holds of the characters that the steps write on their own. -/
structure Admits (P : Char → Prop) : Prop extends AdmitsLine P where
  zero : P '0'
  newline : P '\n'

/-- Texts of characters with `P` become such texts. -/
def Keeps (P : Char → Prop) (step : Text → Text) : Prop :=
  ∀ t, (∀ c ∈ t, P c) → ∀ c ∈ step t, P c

variable {P : Char → Prop}

theorem Keeps.pass {step : Text → Text} (h : Keeps P step) : Keeps P (Gate.pass step) := by
  intro t ht
  unfold Gate.pass Gate.smaller
  split
  · exact h t ht
  · exact ht

/-! ## Token by token -/

theorem forall_mem_token {source : Text} (h : ∀ c ∈ source, P c) :
    ∀ t ∈ tokens source, ∀ c ∈ t.text, P c := by
  intro t ht c hc
  apply h
  rw [← join_tokens source]
  exact List.mem_flatMap.mpr ⟨t, ht, hc⟩

theorem forall_mem_flatMap_tokens {source : Text} {out : Token Kind → Text}
    (h : ∀ c ∈ source, P c) (hout : ∀ t, (∀ c ∈ t.text, P c) → ∀ c ∈ out t, P c) :
    ∀ c ∈ (tokens source).flatMap out, P c := by
  intro c hc
  obtain ⟨t, ht, hct⟩ := List.mem_flatMap.mp hc
  exact hout t (forall_mem_token h t ht) c hct

theorem keeps_stripComments (hP : Admits P) : Keeps P stripComments := by
  intro source h
  refine forall_mem_flatMap_tokens h fun t ht => ?_
  split
  · split
    · simpa using hP.space
    · simp
  · exact ht

/-- The short names of locals are words of letters. -/
theorem localRenames_shortNames (source : Text) : (localRenames source).ShortNames [] := by
  obtain ⟨run, hentries, hrun⟩ := Naming.allocate_sound Alphabet.latin [] _ _
  exact hrun.shortNames hentries

theorem keeps_renameLocals (hP : Admits P) : Keeps P renameLocals := by
  intro source h
  refine forall_mem_flatMap_tokens h fun t ht => ?_
  split
  · cases hfind : (localRenames source).find? t.text with
    | none =>
      rw [RenameMap.rename_of_find?_none hfind]
      exact ht
    | some short =>
      obtain ⟨word, rfl, _, hword⟩ := (localRenames_shortNames source).spelled hfind
      rw [RenameMap.rename_of_find? hfind]
      exact fun c hc => hP.letter (hword c hc)
  · exact ht

/-! ## Numbers -/

theorem dropFinalNewline_subset (t : Text) : dropFinalNewline t ⊆ t := by
  unfold dropFinalNewline
  split
  · exact (List.dropLast_sublist t).subset
  · exact List.Subset.refl t

/-- A number that was taken apart is put together again. -/
theorem FloatLiteral.text_ofText? {t : Text} {f : FloatLiteral}
    (h : FloatLiteral.ofText? t = some f) : f.text = t := by
  unfold FloatLiteral.ofText? at h
  simp only [splitWhile] at h
  split at h
  · rename_i after hafter
    obtain ⟨_, hf⟩ := Option.ite_none_right_eq_some.mp h
    cases hf
    rw [FloatLiteral.text, List.append_assoc, List.cons_append, List.takeWhile_append_dropWhile,
      ← hafter, List.takeWhile_append_dropWhile]
  · cases h

theorem FloatLiteral.mem_trimmed {f : FloatLiteral} {c : Char} (h : c ∈ f.trimmed.text) :
    c = '0' ∨ c ∈ f.text := by
  have hwhole := (List.dropWhile_sublist (l := f.whole) (p := (· == '0'))).subset
  have hfraction := (List.dropWhile_sublist (l := f.fraction.reverse) (p := (· == '0'))).subset
  unfold FloatLiteral.trimmed at h
  simp only at h
  split at h
  · simp only [FloatLiteral.text, List.nil_append, List.cons_append, List.mem_cons] at h
    rcases h with rfl | rfl | h
    · exact .inr (by simp [FloatLiteral.text])
    · exact .inl rfl
    · exact .inr (by simp [FloatLiteral.text, h])
  · right
    simp only [FloatLiteral.text, List.mem_append, List.mem_cons, List.mem_reverse] at h ⊢
    rcases h with (h | h | h) | h
    · exact .inl (.inl (hwhole h))
    · exact .inl (.inr (.inl h))
    · exact .inl (.inr (.inr (List.mem_reverse.mp (hfraction h))))
    · exact .inr h

/-- A shortened number has no characters of its own but a zero. -/
theorem mem_shortenFloat {t : Text} {c : Char} (h : c ∈ shortenFloat t) : c = '0' ∨ c ∈ t := by
  unfold shortenFloat at h
  split at h
  · exact .inr h
  · rename_i f hf
    split at h
    · refine (FloatLiteral.mem_trimmed h).imp_right fun hc => ?_
      rw [FloatLiteral.text_ofText? hf] at hc
      exact dropFinalNewline_subset t hc
    · exact .inr h

theorem keeps_shortenFloat (hP : Admits P) : Keeps P shortenFloat := by
  intro t h c hc
  rcases mem_shortenFloat hc with rfl | hc
  · exact hP.zero
  · exact h c hc

theorem keeps_shortenNumbers (hP : Admits P) : Keeps P shortenNumbers := by
  intro source h
  refine forall_mem_flatMap_tokens h fun t ht => ?_
  split
  · exact keeps_shortenFloat hP t.text ht
  · exact ht

/-! ## Spacing -/

theorem forall_mem_compactFrom (hP : AdmitsLine P) {ts : List (Token Kind)}
    (h : ∀ t ∈ ts, ∀ c ∈ t.text, P c) (before : Option (Token Kind)) (separated : Bool) :
    ∀ c ∈ compactFrom before separated ts, P c := by
  induction ts generalizing before separated with
  | nil => simp [compactFrom]
  | cons t ts ih =>
    rw [List.forall_mem_cons] at h
    rw [compactFrom]
    split
    · rw [List.forall_mem_append, List.forall_mem_append]
      refine ⟨⟨?_, h.1⟩, ih h.2 _ _⟩
      split
      · simpa using hP.space
      · simp
    · exact ih h.2 _ _

theorem keeps_compactCode (hP : AdmitsLine P) : Keeps P compactCode := by
  intro source h
  exact forall_mem_compactFrom hP (forall_mem_token h) none false

theorem trim_subset (t : Text) : trim t ⊆ t := by
  intro c hc
  rw [trim, List.mem_reverse] at hc
  have hback := List.mem_reverse.mp ((List.dropWhile_sublist _).subset hc)
  exact (List.dropWhile_sublist _).subset hback

/-- The name and the argument of a directive stand on its line. -/
theorem subset_of_readDirective? {line name argument : Text}
    (h : readDirective? line = some (name, argument)) : name ⊆ line ∧ argument ⊆ line := by
  unfold readDirective? at h
  split at h
  · rename_i t
    have hline : t.dropWhile isBlank ⊆ '#' :: t :=
      fun c hc => List.mem_cons_of_mem _ ((List.dropWhile_sublist _).subset hc)
    split at h
    · rename_i c rest hrest
      rw [hrest] at hline
      split at h
      · simp only at h
        split at h
        · cases h
        · cases h
          constructor
          · intro d hd
            apply hline
            rcases List.mem_cons.mp hd with rfl | hd
            · exact List.mem_cons_self
            · exact List.mem_cons_of_mem _ ((List.takeWhile_sublist _).subset hd)
          · intro d hd
            apply hline
            have harg := (List.dropWhile_sublist _).subset (trim_subset _ hd)
            exact List.mem_cons_of_mem _ ((List.dropWhile_sublist _).subset harg)
      · cases h
    · cases h
  · cases h

theorem keeps_compactDefinition (hP : AdmitsLine P) : Keeps P compactDefinition := by
  intro argument h
  have hname : ∀ c ∈ argument.takeWhile isIdentChar, P c :=
    fun c hc => h c ((List.takeWhile_sublist _).subset hc)
  have hafter : ∀ c ∈ argument.dropWhile isIdentChar, P c :=
    fun c hc => h c ((List.dropWhile_sublist _).subset hc)
  -- however the parameters are cut off, they and the body come from the argument
  have hparts : ∀ parts : Text × Text, (∀ c ∈ parts.1, P c) ∧ (∀ c ∈ parts.2, P c) →
      ∀ c ∈ argument.takeWhile isIdentChar ++ compactCode parts.1 ++
        (if (compactCode parts.2).isEmpty then [] else ' ' :: compactCode parts.2), P c := by
    rintro ⟨parameters, body⟩ ⟨hparameters, hbody⟩
    rw [List.forall_mem_append, List.forall_mem_append]
    refine ⟨⟨hname, keeps_compactCode hP _ hparameters⟩, ?_⟩
    split
    · simp
    · rw [List.forall_mem_cons]
      exact ⟨hP.space, keeps_compactCode hP _ hbody⟩
  unfold compactDefinition
  simp only [splitWhile]
  refine hparts _ ?_
  split
  · rename_i rest hrest
    rw [hrest, List.forall_mem_cons] at hafter
    split
    · rename_i inside after hcut
      rw [(cut?_eq_some hcut).1, List.forall_mem_append] at hafter
      rw [List.cons_append, List.forall_mem_cons]
      exact ⟨⟨hafter.1, hafter.2.1⟩, hafter.2.2⟩
    · rw [hrest]
      exact ⟨by simp, by rwa [List.forall_mem_cons]⟩
  · exact ⟨by simp, hafter⟩

theorem keeps_compactDirective (hP : AdmitsLine P) : Keeps P compactDirective := by
  intro line h
  unfold compactDirective
  split
  · rw [List.forall_mem_cons]
    exact ⟨hP.sign, fun c hc => h c ((List.drop_sublist 1 line).subset (trim_subset _ hc))⟩
  · rename_i name argument hread
    obtain ⟨hname, hargument⟩ := subset_of_readDirective? hread
    have hname : ∀ c ∈ name, P c := fun c hc => h c (hname hc)
    have hargument : ∀ c ∈ argument, P c := fun c hc => h c (hargument hc)
    have hword : ∀ word : Text, word.all isAsciiLetter = true →
        ∀ c ∈ '#' :: (word ++ [' ']), P c := by
      intro word hword
      rw [List.forall_mem_cons, List.forall_mem_append, List.forall_mem_singleton]
      exact ⟨hP.sign, fun c hc => hP.letter (List.all_eq_true.mp hword c hc), hP.space⟩
    split
    · rw [List.forall_mem_cons]
      exact ⟨hP.sign, hname⟩
    · split
      · rw [List.forall_mem_append]
        exact ⟨hword "include".toList (by decide), hargument⟩
      · split
        · rw [List.forall_mem_append]
          exact ⟨hword "define".toList (by decide), keeps_compactDefinition hP argument hargument⟩
        · rw [List.cons_append, List.forall_mem_cons, List.forall_mem_append, List.forall_mem_cons]
          exact ⟨hP.sign, hname, hP.space, keeps_compactCode hP argument hargument⟩

theorem keeps_normalizeNewlines (hP : Admits P) : Keeps P normalizeNewlines := by
  intro t h
  fun_induction normalizeNewlines t with
  | case1 => exact h
  | case2 rest ih =>
    simp only [List.forall_mem_cons] at h ⊢
    exact ⟨hP.newline, ih h.2.2⟩
  | case3 c rest _ ih =>
    rw [List.forall_mem_cons] at h ⊢
    refine ⟨?_, ih h.2⟩
    split
    · exact hP.newline
    · exact h.1

theorem forall_mem_join {separator : Text} (hseparator : ∀ c ∈ separator, P c) {ts : List Text}
    (h : ∀ t ∈ ts, ∀ c ∈ t, P c) : ∀ c ∈ join separator ts, P c := by
  fun_induction join separator ts with
  | case1 => simp
  | case2 t => exact h t List.mem_cons_self
  | case3 t u rest ih =>
    rw [List.forall_mem_cons] at h
    rw [List.forall_mem_append, List.forall_mem_append]
    exact ⟨⟨h.1, hseparator⟩, ih h.2⟩

theorem forall_mem_lines {t : Text} (h : ∀ c ∈ t, P c) : ∀ line ∈ lines t, ∀ c ∈ line, P c := by
  unfold lines
  fun_induction fields '\n' t with
  | case1 => simp
  | case2 rest ih =>
    rw [List.forall_mem_cons] at h ⊢
    exact ⟨by simp, ih h.2⟩
  | case3 c rest hc hnil ih =>
    rw [List.forall_mem_cons] at h
    simpa using h.1
  | case4 c rest hc head tail hfields ih =>
    rw [List.forall_mem_cons] at h
    rw [hfields] at ih
    have hrest := ih h.2
    rw [List.forall_mem_cons] at hrest ⊢
    rw [List.forall_mem_cons]
    exact ⟨⟨h.1, hrest.1⟩, hrest.2⟩

theorem forall_mem_flushCode (hP : Admits P) {pending : List Text}
    (h : ∀ line ∈ pending, ∀ c ∈ line, P c) : ∀ line ∈ flushCode pending, ∀ c ∈ line, P c := by
  have hnewline : ∀ c ∈ ['\n'], P c := by simpa using hP.newline
  have hcode := keeps_compactCode hP.toAdmitsLine _ (forall_mem_join hnewline h)
  unfold flushCode
  simp only
  split
  · simp
  · rwa [List.forall_mem_singleton]

theorem forall_mem_compactLines (hP : Admits P) {pending ts : List Text}
    (hpending : ∀ line ∈ pending, ∀ c ∈ line, P c) (h : ∀ line ∈ ts, ∀ c ∈ line, P c) :
    ∀ line ∈ compactLines pending ts, ∀ c ∈ line, P c := by
  induction ts generalizing pending with
  | nil => exact forall_mem_flushCode hP hpending
  | cons line rest ih =>
    rw [List.forall_mem_cons] at h
    have hline : ∀ c ∈ trim line, P c := fun c hc => h.1 c (trim_subset line hc)
    unfold compactLines
    simp only
    split
    · exact ih hpending h.2
    · split
      · rw [List.forall_mem_append, List.forall_mem_cons]
        exact ⟨forall_mem_flushCode hP hpending, keeps_compactDirective hP.toAdmitsLine _ hline,
          ih (by simp) h.2⟩
      · refine ih ?_ h.2
        rw [List.forall_mem_append, List.forall_mem_singleton]
        exact ⟨hpending, hline⟩

theorem keeps_compactSpacing (hP : Admits P) : Keeps P compactSpacing := by
  intro source h
  have hsource := keeps_normalizeNewlines hP source h
  have hlines : ∀ line ∈ compactLines [] (lines (normalizeNewlines source)), ∀ c ∈ line, P c :=
    forall_mem_compactLines hP (by simp) (forall_mem_lines hsource)
  have hnewline : ∀ c ∈ ['\n'], P c := by simpa using hP.newline
  have hedge : ∀ atEdge : Prop, [Decidable atEdge] →
      ∀ c ∈ if atEdge then ['\n'] else [], P c := by
    intro atEdge _
    split
    · exact hnewline
    · simp
  unfold compactSpacing
  simp only [List.forall_mem_append]
  exact ⟨⟨hedge _, forall_mem_join hnewline hlines⟩, hedge _⟩

/-! ## The whole -/

/-- **A minified template body has the characters of the body, and those that every step may
write.** -/
theorem keeps_minifyBody (hP : Admits P) : Keeps P minifyBody := by
  intro body h
  unfold minifyBody
  split
  · rename_i short hshort
    split
    · unfold minify? at hshort
      split at hshort
      · cases hshort
      · cases hshort
        refine (keeps_compactSpacing hP).pass _ ((keeps_shortenNumbers hP).pass _ ?_)
        have hstripped := (keeps_stripComments hP).pass _ h
        split
        · exact (keeps_renameLocals hP).pass _ hstripped
        · exact hstripped
    · exact h
  · exact h

end WebTrim.Shader
