import WebTrim.Proofs.Literal.Rename

/-!
# Renaming the tokens of a class list

A class list keeps its separators when its tokens get other names, and it is cut at the same places
again.

* `literalPieces_mapTokens` — **the pieces of a class list with new tokens are the pieces of the
  list, each token in its new form**.
* `literalPieces_renameClassLiteral` — what renaming makes of a literal, whatever classes are known
  as long as all renamed ones are.
* `idReferences_mono` — fewer known ids, fewer references.
* `renameIds_of_idReferences` — a literal without references to renamed ids stays.
-/

set_option autoImplicit false

namespace WebTrim.Literal

open Text

/-! ## Tokens -/

theorem tokenLength_append {body : Text} (h : ∀ c ∈ body, isClassTokenChar c = true) (t : Text) :
    tokenLength (body ++ t) = body.length + tokenLength t := by
  induction body with
  | nil => simp
  | cons c body ih =>
    obtain ⟨hblank, hslash, -, -⟩ := isClassTokenChar_spec (h c List.mem_cons_self)
    have hopens : opensSeparatorEscape c (body ++ t) = false := by
      simp [opensSeparatorEscape, hslash]
    rw [List.cons_append, tokenLength, hblank, hopens,
      ih fun d hd => h d (List.mem_cons_of_mem _ hd)]
    simp
    omega

theorem isBlank_of_mem_token {t : Text} : ∀ c ∈ t.take (tokenLength t), isBlank c = false := by
  induction t with
  | nil => simp
  | cons d t ih =>
    rw [tokenLength]
    split
    · simp
    · rename_i hgoes
      rw [Nat.add_comm, List.take_succ_cons]
      intro c hc
      rcases List.mem_cons.mp hc with rfl | hc
      · simp only [Bool.or_eq_true, not_or, Bool.not_eq_true] at hgoes
        exact hgoes.1
      · exact ih c hc

theorem literalStep_blank {c : Char} (h : isBlank c = true) (rest : Text) :
    literalStep () c rest = ⟨(rest.takeWhile isBlank).length, false, ()⟩ := by
  rw [literalStep, if_pos h]

theorem literalStep_escape {c : Char} {rest : Text} (hblank : isBlank c = false)
    (h : opensSeparatorEscape c rest = true) : literalStep () c rest = ⟨1, false, ()⟩ := by
  rw [literalStep, if_neg (by simp [hblank]), if_pos h]

theorem literalStep_token {c : Char} {rest : Text} (hblank : isBlank c = false)
    (h : opensSeparatorEscape c rest = false) :
    literalStep () c rest = ⟨tokenLength rest, true, ()⟩ := by
  rw [literalStep, if_neg (by simp [hblank]), if_neg (by simp [h])]

/-- What the scanner takes at a place: blanks, an escaped separator, or a token. -/
theorem literalStep_cases (c : Char) (rest : Text) :
    (isBlank c = true ∧ literalStep () c rest = ⟨(rest.takeWhile isBlank).length, false, ()⟩) ∨
    (c = '\\' ∧ (∃ d more, rest = d :: more ∧ opensSeparatorEscape c rest = true) ∧
      literalStep () c rest = ⟨1, false, ()⟩) ∨
    (isBlank c = false ∧ opensSeparatorEscape c rest = false ∧
      literalStep () c rest = ⟨tokenLength rest, true, ()⟩) := by
  cases hblank : isBlank c with
  | true => exact .inl ⟨rfl, literalStep_blank hblank rest⟩
  | false =>
    cases hopens : opensSeparatorEscape c rest with
    | false => exact .inr (.inr ⟨rfl, rfl, literalStep_token hblank hopens⟩)
    | true =>
      refine .inr (.inl ⟨?_, ?_, literalStep_escape hblank hopens⟩)
      · simp only [opensSeparatorEscape, Bool.and_eq_true, beq_iff_eq] at hopens
        exact hopens.1
      · cases rest with
        | nil => simp [opensSeparatorEscape] at hopens
        | cons d more => exact ⟨d, more, rfl, rfl⟩

/-- A token of a literal holds no blank, so the shape of a class leaves no newline at its end. -/
theorem isClassToken_of_mem_literalTokens {literal token : Text}
    (hmem : token ∈ literalTokens literal) (h : isClassToken token = true) :
    IsClassToken token := by
  have hblank : ∀ p ∈ literalPieces literal, p.note = true → ∀ c ∈ p.text, isBlank c = false := by
    refine forall_mem_scan (fun _ c rest _ hnote => ?_) ()
    rcases literalStep_cases c rest with ⟨-, hstep⟩ | ⟨-, -, hstep⟩ | ⟨hc, -, hstep⟩
    · simp [hstep] at hnote
    · simp [hstep] at hnote
    · intro d hd
      rw [hstep] at hd
      rcases List.mem_cons.mp hd with rfl | hd
      · exact hc
      · exact isBlank_of_mem_token d hd
  obtain ⟨p, hp, rfl⟩ := List.mem_map.mp hmem
  rw [List.mem_filter] at hp
  have hlast : p.text.getLast? ≠ some '\n' := by
    intro hlast
    have := hblank p hp.1 hp.2 '\n' (List.mem_of_getLast? hlast)
    exact absurd this (by decide)
  simp only [isClassToken, dropFinalNewline, if_neg hlast, Bool.and_eq_true, List.all_eq_true] at h
  exact ⟨by simpa using h.1, h.2⟩

/-! ## New tokens -/

/-- The text of a piece when `f` gives the new form of tokens. -/
def mappedPiece (f : Text → Text) (p : Piece Bool) : Text :=
  if p.note then f p.text else p.text

/-- All tokens from here on are classes and become classes. -/
def ClassTokens (f : Text → Text) (t : Text) : Prop :=
  ∀ token ∈ literalTokens t, IsClassToken token ∧ IsClassToken (f token)

theorem literalTokens_cons (c : Char) (rest : Text) :
    literalTokens (c :: rest) =
      (if (literalStep () c rest).note then
        [c :: rest.take (literalStep () c rest).extra] else []) ++
      literalTokens (rest.drop (literalStep () c rest).extra) := by
  rw [literalTokens, literalPieces, scan_cons, List.filter_cons]
  cases (literalStep () c rest).note <;> rfl

section Answers

variable {f : Text → Text} {c : Char} {rest : Text}

theorem ClassTokens.drop (h : ClassTokens f (c :: rest)) :
    ClassTokens f (rest.drop (literalStep () c rest).extra) := by
  intro token htoken
  apply h
  rw [literalTokens_cons]
  exact List.mem_append_right _ htoken

theorem ClassTokens.head (h : ClassTokens f (c :: rest))
    (hstep : literalStep () c rest = ⟨tokenLength rest, true, ()⟩) :
    IsClassToken (f (c :: rest.take (tokenLength rest))) := by
  refine (h _ ?_).2
  rw [literalTokens_cons, hstep]
  exact List.mem_append_left _ (by simp)

/-- The new text begins with a blank exactly where the old one does. -/
theorem ClassTokens.head?_blank {t : Text} (h : ClassTokens f t)
    (hblank : ∀ c ∈ t.head?, isBlank c = false) :
    ∀ c ∈ (rewritten literalStep (mappedPiece f) () t).head?, isBlank c = false := by
  cases t with
  | nil => simp
  | cons c rest =>
    have hc : isBlank c = false := hblank c rfl
    rw [rewritten_cons]
    rcases literalStep_cases c rest with ⟨hc', -⟩ | ⟨-, -, hstep⟩ | ⟨-, -, hstep⟩
    · rw [hc] at hc'
      cases hc'
    · rw [hstep]
      simpa [mappedPiece] using hc
    · have hnew := h.head hstep
      obtain ⟨d, body, hbody⟩ := List.exists_cons_of_ne_nil hnew.nonempty
      rw [hstep]
      simp only [mappedPiece, if_true, hbody, List.cons_append, List.head?_cons]
      rintro e ⟨⟩
      exact (isClassTokenChar_spec (hnew.chars d (by rw [hbody]; exact List.mem_cons_self))).1

/-- Where a token ends in the old text, one ends in the new text. -/
theorem tokenLength_rewritten (f : Text → Text) (t : Text) :
    tokenLength (rewritten literalStep (mappedPiece f) () (t.drop (tokenLength t))) = 0 := by
  cases hdrop : t.drop (tokenLength t) with
  | nil => simp [tokenLength]
  | cons c rest =>
    have hstops := tokenLength_stops hdrop
    rw [rewritten_cons]
    rcases literalStep_cases c rest with ⟨hc, hstep⟩ | ⟨rfl, ⟨d, more, rfl, hopens⟩, hstep⟩ |
      ⟨hc, hopens, -⟩
    · rw [hstep]
      simp [mappedPiece, tokenLength, hc]
    · have hopens' : ∀ s, opensSeparatorEscape '\\' (d :: s) = true := by
        intro s
        simpa [opensSeparatorEscape] using hopens
      rw [hstep]
      simp [mappedPiece, tokenLength, hopens']
    · simp [hc, hopens] at hstops

/-- **At every place the scanner takes the new piece from the new text.** -/
theorem answers_literal (h : ClassTokens f (c :: rest)) :
    Answers literalStep (mappedPiece f) id (fun _ _ t => ClassTokens f t) () () c rest := by
  have hnext := h.drop
  unfold Answers
  rcases literalStep_cases c rest with ⟨hc, hstep⟩ | ⟨rfl, ⟨d, more, rfl, hopens⟩, hstep⟩ |
    ⟨hc, hopens, hstep⟩
  · -- blanks: the new text goes on with something else
    rw [hstep] at hnext ⊢
    have hsplit : rest.take (rest.takeWhile isBlank).length = rest.takeWhile isBlank := by
      exact (List.prefix_iff_eq_take.mp (List.takeWhile_prefix _)).symm
    simp only [hsplit, drop_length_takeWhile isBlank rest] at hnext ⊢
    refine ⟨c, rest.takeWhile isBlank, rfl, fun tail htail => ?_⟩
    have hhead : ∀ d ∈ tail.head?, isBlank d = false := by
      rw [htail]
      refine hnext.head?_blank fun d hd => ?_
      have hstop := List.head?_dropWhile_not isBlank rest
      rw [hd] at hstop
      simpa using hstop
    have htake : (rest.takeWhile isBlank ++ tail).takeWhile isBlank = rest.takeWhile isBlank := by
      rw [List.takeWhile_append_of_pos fun d hd => List.mem_takeWhile_imp hd]
      cases tail with
      | nil => simp
      | cons d tail => simp [hhead d rfl]
    rw [literalStep_blank hc, htake]
    exact ⟨List.take_left, rfl, hnext⟩
  · -- an escaped separator
    rw [hstep] at hnext ⊢
    refine ⟨'\\', [d], rfl, fun tail _ => ?_⟩
    have hopens' : opensSeparatorEscape '\\' (d :: tail) = true := by
      simpa [opensSeparatorEscape] using hopens
    rw [List.singleton_append, literalStep_escape (by decide) hopens']
    exact ⟨rfl, rfl, hnext⟩
  · -- a token: it goes up to the separator that ended the old one
    rw [hstep] at hnext ⊢
    have hnew := h.head hstep
    obtain ⟨d, body, hbody⟩ := List.exists_cons_of_ne_nil hnew.nonempty
    have hchars : ∀ e ∈ d :: body, isClassTokenChar e = true := hbody ▸ hnew.chars
    refine ⟨d, body, hbody, fun tail htail => ?_⟩
    obtain ⟨hblank, hslash, -, -⟩ := isClassTokenChar_spec (hchars d List.mem_cons_self)
    have hopens' : opensSeparatorEscape d (body ++ tail) = false := by
      simp [opensSeparatorEscape, hslash]
    have hlength : tokenLength (body ++ tail) = body.length := by
      rw [tokenLength_append fun e he => hchars e (List.mem_cons_of_mem _ he), htail]
      simp only [tokenLength_rewritten, Nat.add_zero]
    rw [literalStep_token hblank hopens', hlength]
    exact ⟨List.take_left, rfl, hnext⟩

end Answers

/-- **The pieces of a class list with new tokens are the pieces of the list, each token in its new
form.** -/
theorem literalPieces_mapTokens {f : Text → Text} {literal : Text} (h : ClassTokens f literal) :
    literalPieces ((literalPieces literal).flatMap (mappedPiece f)) =
      (literalPieces literal).map fun p => ⟨mappedPiece f p, p.note⟩ :=
  scan_rewritten (fun _ _ _ _ hrel => answers_literal hrel) () () literal h

/-! ## Renaming a literal as a class list -/

section Rename

variable {classes : RenameMap} {known : Text → Bool} {literal : Text}

/-- A class list over the renamed classes is one over the known classes. -/
theorem isClassList_mono {known' : Text → Bool} (hknown : ∀ t, known t = true → known' t = true)
    (h : isClassList known literal = true) : isClassList known' literal = true := by
  simp only [isClassList, Bool.and_eq_true, List.any_eq_true] at h ⊢
  obtain ⟨hshape, token, htoken, hk⟩ := h
  exact ⟨hshape, token, htoken, hknown token hk⟩

/-- The new form of a token: only the known classes that a class list names get a short name. -/
def renamedToken (classes : RenameMap) (named : List Text) (token : Text) : Text :=
  if named.contains token then classes.rename token else token

theorem mem_classesOf {token : Text} :
    token ∈ classesOf known literal ↔
      isClassList known literal = true ∧ token ∈ literalTokens literal ∧ known token = true := by
  unfold classesOf
  split
  · rename_i hlist
    rw [List.mem_filter]
    exact ⟨fun h => ⟨hlist, h⟩, And.right⟩
  · rename_i hlist
    simp [hlist]

/-- In a class list over the renamed classes, a token gets the same form whether or not it is looked
up among the known classes first. -/
theorem renamedToken_of_isClassList
    (hknown : ∀ t, (classes.find? t).isSome = true → known t = true)
    (hlist : isClassList (fun t => (classes.find? t).isSome) literal = true) {token : Text}
    (htoken : token ∈ literalTokens literal) :
    renamedToken classes (classesOf known literal) token = classes.rename token := by
  simp only [renamedToken, List.contains_iff_mem]
  split
  · rfl
  · rename_i hnot
    cases hfind : classes.find? token with
    | none => rw [RenameMap.rename_of_find?_none hfind]
    | some short =>
      refine absurd (mem_classesOf.mpr ⟨isClassList_mono hknown hlist, htoken, ?_⟩) hnot
      exact hknown token (by rw [hfind]; rfl)

/-- In a literal that is no class list over the renamed classes, every token stays. -/
theorem renamedToken_of_not_isClassList
    (hlist : isClassList (fun t => (classes.find? t).isSome) literal = false) {token : Text} :
    renamedToken classes (classesOf known literal) token = token := by
  simp only [renamedToken, List.contains_iff_mem]
  split
  · rename_i hmem
    obtain ⟨hknownList, htoken, -⟩ := mem_classesOf.mp hmem
    cases hfind : classes.find? token with
    | none => exact RenameMap.rename_of_find?_none hfind
    | some short =>
      -- a renamed token would make it a class list
      simp only [isClassList, Bool.and_eq_true] at hknownList
      have hany : (literalTokens literal).any (fun t => (classes.find? t).isSome) = true :=
        List.any_eq_true.mpr ⟨token, htoken, by rw [hfind]; rfl⟩
      simp [isClassList, hknownList.1, hany] at hlist
  · rfl

/-- The pieces of a literal with no token changed. -/
theorem map_mappedPiece_of_kept {f : Text → Text} {pieces : List (Piece Bool)}
    (h : ∀ p ∈ pieces, p.note = true → f p.text = p.text) :
    (pieces.map fun p => (⟨mappedPiece f p, p.note⟩ : Piece Bool)) = pieces := by
  refine (List.map_congr_left fun p hp => ?_).trans (List.map_id pieces)
  obtain ⟨text, note⟩ := p
  cases note with
  | false => rfl
  | true => simp [mappedPiece, h _ hp rfl]

/-- **What renaming a literal as a class list does.** Its separators stay, and of its tokens exactly
the renamed classes among those that it names get their short names. -/
theorem literalPieces_renameClassLiteral (hshort : classes.ShortNames [])
    (hknown : ∀ t, (classes.find? t).isSome = true → known t = true) :
    literalPieces (renameClassLiteral classes literal) =
      (literalPieces literal).map fun p =>
        ⟨mappedPiece (renamedToken classes (classesOf known literal)) p, p.note⟩ := by
  cases hlist : isClassList (fun t => (classes.find? t).isSome) literal with
  | false =>
    rw [renameClassLiteral, if_neg (by simp [hlist]), map_mappedPiece_of_kept]
    intro p _ _
    exact renamedToken_of_not_isClassList hlist
  | true =>
    have hshape : ∀ token ∈ literalTokens literal, IsClassToken token := by
      intro token htoken
      have hall := hlist
      simp only [isClassList, Bool.and_eq_true, List.all_eq_true] at hall
      exact isClassToken_of_mem_literalTokens htoken (hall.1 token htoken)
    have hnew : ClassTokens classes.rename literal := by
      intro token htoken
      refine ⟨hshape token htoken, ?_⟩
      cases hfind : classes.find? token with
      | none =>
        rw [RenameMap.rename_of_find?_none hfind]
        exact hshape token htoken
      | some short =>
        obtain ⟨word, rfl, hne, hletters⟩ := hshort.spelled hfind
        rw [RenameMap.rename_of_find? hfind]
        exact ⟨hne, fun c hc => by simp [isClassTokenChar, isAsciiAlnum, hletters c hc]⟩
    rw [renameClassLiteral, if_pos hlist]
    refine (literalPieces_mapTokens hnew).trans (List.map_congr_left fun p hp => ?_)
    obtain ⟨text, note⟩ := p
    cases note with
    | false => rfl
    | true =>
      have htoken : text ∈ literalTokens literal :=
        List.mem_map.mpr ⟨⟨text, true⟩, List.mem_filter.mpr ⟨hp, rfl⟩, rfl⟩
      simp [mappedPiece, renamedToken_of_isClassList hknown hlist htoken]

theorem literalTokens_renameClassLiteral (hshort : classes.ShortNames [])
    (hknown : ∀ t, (classes.find? t).isSome = true → known t = true) :
    literalTokens (renameClassLiteral classes literal) =
      (literalTokens literal).map (renamedToken classes (classesOf known literal)) := by
  rw [literalTokens, literalPieces_renameClassLiteral hshort hknown, literalTokens, List.filter_map,
    List.map_map, List.map_map]
  refine List.map_congr_left fun p hp => ?_
  have hnote : p.note = true := (List.mem_filter.mp hp).2
  simp [mappedPiece, hnote]

/-- A literal that changes names a renamed class. -/
theorem exists_renamed_of_changed (h : renameClassLiteral classes literal ≠ literal) :
    isClassList (fun t => (classes.find? t).isSome) literal = true ∧
      ∃ token ∈ literalTokens literal, (classes.find? token).isSome = true := by
  unfold renameClassLiteral at h
  split at h
  · rename_i hlist
    refine ⟨hlist, ?_⟩
    simp only [isClassList, Bool.and_eq_true, List.any_eq_true] at hlist
    exact hlist.2
  · exact absurd rfl h

end Rename

/-! ## References to ids -/

/-- A literal that refers to no known id refers to none of fewer ids. -/
theorem idReferences_mono {known known' : Text → Bool} {literal : Text}
    (hknown : ∀ id, known id = true → known' id = true) (h : idReferences known' literal = []) :
    idReferences known literal = [] := by
  have hfilter : ∀ ids : List Text, ids.filter known' = [] → ids.filter known = [] := by
    intro ids hnone
    rw [List.filter_eq_nil_iff] at hnone ⊢
    exact fun id hid hk => hnone id hid (hknown id hk)
  unfold idReferences at h ⊢
  split at h
  · rename_i hempty
    rw [if_pos hempty]
  · rename_i hempty
    split at h
    · cases h
    · rename_i hliteral
      have hnot : ¬known literal = true := fun hk => hliteral (hknown literal hk)
      rw [if_neg hempty, if_neg hnot]
      split at h
      · rename_i hcolor
        rw [if_pos hcolor]
      · rename_i hcolor
        rw [List.append_eq_nil_iff] at h
        rw [if_neg hcolor, hfilter _ h.1, hfilter _ h.2]
        rfl

/-- Finds none of whose names is renamed stay as they are. -/
theorem replaceAll_of_no_known {α : Type} {m : Matcher α} {ids : RenameMap} {name : α → Text}
    {literal : Text} (out : α → Text → Text)
    (h : ((m.findAll literal).map name).filter (fun id => (ids.find? id).isSome) = []) :
    m.replaceAll (fun a => (ids.find? (name a)).map (out a)) literal = literal := by
  refine Matcher.replaceAll_of_kept fun p hp => ?_
  cases hnote : p.note with
  | none => rfl
  | some a =>
    have hmem : a ∈ m.findAll literal := List.mem_filterMap.mpr ⟨p, hp, hnote⟩
    have hid := List.filter_eq_nil_iff.mp h (name a) (List.mem_map_of_mem hmem)
    rw [Option.isSome_iff_ne_none, not_not] at hid
    simp [hid]

/-- **A literal that refers to no renamed id stays.** -/
theorem renameIds_of_idReferences {ids : RenameMap} {literal : Text}
    (h : idReferences (fun id => (ids.find? id).isSome) literal = []) :
    renameIds ids literal = literal := by
  unfold idReferences at h
  unfold renameIds
  split
  · rfl
  · rename_i hstays
    simp only [Bool.or_eq_true, not_or] at hstays
    rw [if_neg hstays.1] at h
    split at h
    · cases h
    · rename_i hliteral
      rw [Option.isSome_iff_ne_none, not_not] at hliteral
      rw [if_neg hstays.2, List.append_eq_nil_iff] at h
      rw [hliteral]
      simp only
      rw [replaceAll_of_no_known _ h.2]
      exact replaceAll_of_no_known _ h.1

/-! ## Literals that are no class list -/

/-- A character that neither separates tokens nor may stand in a class makes the literal no class
list. -/
theorem isClassList_of_mem {known : Text → Bool} {literal : Text} {c : Char} (hmem : c ∈ literal)
    (hblank : isBlank c = false) (hletter : c ∉ ['\\', 'n', 'r', 't'])
    (hclass : isClassTokenChar c = false) : isClassList known literal = false := by
  have hseparator : ∀ p ∈ literalPieces literal, p.note = false → c ∉ p.text := by
    refine forall_mem_scan (fun _ d rest _ hnote => ?_) ()
    rcases literalStep_cases d rest with
      ⟨hd, hstep⟩ | ⟨rfl, ⟨e, more, rfl, hopens⟩, hstep⟩ | ⟨-, -, hstep⟩
    · rw [hstep]
      intro hc
      have hall : ∀ x ∈ d :: rest.take (rest.takeWhile isBlank).length, isBlank x = true := by
        intro x hx
        rcases List.mem_cons.mp hx with rfl | hx
        · exact hd
        · have hrun : rest.take (rest.takeWhile isBlank).length = rest.takeWhile isBlank :=
            (List.prefix_iff_eq_take.mp (List.takeWhile_prefix _)).symm
          rw [hrun] at hx
          exact List.mem_takeWhile_imp hx
      rw [hall c hc] at hblank
      cases hblank
    · rw [hstep]
      intro hc
      have he : e = 'n' ∨ e = 'r' ∨ e = 't' := by
        simpa [opensSeparatorEscape, or_assoc] using hopens
      simp only [List.take_succ_cons, List.take_zero, List.mem_cons, List.not_mem_nil,
        or_false] at hc
      rcases hc with rfl | rfl
      · exact hletter (by simp)
      · rcases he with rfl | rfl | rfl <;> exact hletter (by simp)
    · rw [hstep] at hnote
      cases hnote
  have hpieces : c ∈ (literalPieces literal).flatMap Piece.text := by
    rwa [literalPieces, scan_text]
  obtain ⟨p, hp, hc⟩ := List.mem_flatMap.mp hpieces
  have hnote : p.note = true := by
    rw [← Bool.not_eq_false]
    exact fun hnote => hseparator p hp hnote hc
  have htoken : p.text ∈ literalTokens literal :=
    List.mem_map_of_mem (List.mem_filter.mpr ⟨hp, hnote⟩)
  rw [← Bool.not_eq_true]
  intro hlist
  simp only [isClassList, Bool.and_eq_true, List.all_eq_true] at hlist
  have hshape := hlist.1 p.text htoken
  simp only [isClassToken, Bool.and_eq_true, List.all_eq_true] at hshape
  have hnewline : c ≠ '\n' := by
    rintro rfl
    exact absurd hblank (by decide)
  rw [hshape.2 c (mem_dropFinalNewline hc hnewline)] at hclass
  cases hclass

end WebTrim.Literal
