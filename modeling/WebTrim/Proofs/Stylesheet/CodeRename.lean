import WebTrim.Proofs.Stylesheet.Recut
import WebTrim.Proofs.Stylesheet.Size

/-!
# Renaming in code keeps the tokens

Names behind marks and custom properties are renamed in each code token by itself. What is put in
the place of a name is code again, and the code opens so that a token before it ends as before, so
the strings and comments around it are cut as they were.

* `Opens` — a text may stand behind a token in the place of another.
* `IsCode.exchange`, `isCode_ident` — code stays code if the text behind a character, or behind an
  identifier, is exchanged.
* `isCode_renameMarked`, `isCode_renameProperties` — **renaming makes code of code**.
* `tokens_mapCode` — a function that makes code of code keeps the tokens.
* `tokens_renameCode` — **renaming in code keeps strings and comments as they are**.
-/

set_option autoImplicit false

namespace WebTrim.Stylesheet

open Text

/-! ## Exchanging text in code -/

/-- The second text opens so that a token that ends before the first one ends before it, too. -/
structure Opens (t t' : Text) : Prop where
  empty : t' = [] ↔ t = []
  star : t'.head? = some '*' → t.head? = some '*'
  newline : t.head? = some '\n' → t'.head? = some '\n'

namespace Opens

variable {s s' t t' u : Text}

theorem of_head? (h : t'.head? = t.head?) : Opens t t' :=
  ⟨by rw [← List.head?_eq_none_iff, h, List.head?_eq_none_iff], h ▸ id, h ▸ id⟩

theorem refl (t : Text) : Opens t t :=
  of_head? rfl

theorem trans (h : Opens s t) (h' : Opens t u) : Opens s u :=
  ⟨h'.empty.trans h.empty, h.star ∘ h'.star, h'.newline ∘ h.newline⟩

theorem append (h : Opens s s') (h' : Opens t t') : Opens (s ++ t) (s' ++ t') := by
  cases s with
  | nil =>
    rw [h.empty.mpr rfl]
    exact h'
  | cons c s =>
    obtain ⟨d, s', rfl⟩ := List.exists_cons_of_ne_nil (mt h.empty.mp (List.cons_ne_nil c s))
    exact ⟨by simp, h.star, h.newline⟩

end Opens

section IsCode

variable {rest rest' t t' x : Text} {escaped : Bool}

theorem IsCode.of_opens (h : IsCode rest escaped t) (hrest : Opens rest rest') :
    IsCode rest' escaped t := by
  induction t generalizing escaped with
  | nil =>
    cases escaped with
    | false => trivial
    | true => exact hrest.empty.mpr h
  | cons c t ih => exact h.keep ih ((Opens.refl t).append hrest).star

/-- The text behind a character that is no backslash may be exchanged for other code. -/
theorem IsCode.exchange {u : Text} {c : Char} (hc : c ≠ '\\')
    (h : IsCode rest escaped (u ++ c :: t)) (hopens : Opens t t') (ht' : IsCode rest false t') :
    IsCode rest escaped (u ++ c :: t') := by
  induction u generalizing escaped with
  | nil =>
    cases escaped with
    | true => exact ht'
    | false =>
      obtain ⟨hdouble, hsingle, hslash, -⟩ := (isCode_cons hc).mp h
      refine (isCode_cons hc).mpr ⟨hdouble, hsingle, fun heq hstar => hslash heq ?_, ht'⟩
      exact (hopens.append (.refl rest)).star hstar
  | cons d u ih =>
    have hsame : Opens (u ++ c :: t) (u ++ c :: t') := (Opens.refl u).append (.of_head? rfl)
    exact IsCode.keep h ih (hsame.append (.refl rest)).star

theorem isCode_plain (hx : ∀ c ∈ x, c ∉ ['\\', '/', '"', '\'']) :
    IsCode rest false (x ++ t) ↔ IsCode rest false t := by
  induction x with
  | nil => rfl
  | cons c x ih =>
    obtain ⟨hc, hx⟩ := List.forall_mem_cons.mp hx
    simp only [List.mem_cons, List.not_mem_nil, or_false, not_or] at hc
    rw [List.cons_append, isCode_cons hc.1, ih hx]
    simp [hc]

theorem isIdentChar_plain {c : Char} (h : isIdentChar c = true) : c ∉ ['\\', '/', '"', '\''] := by
  intro hc
  simp only [List.mem_cons, List.not_mem_nil, or_false] at hc
  rcases hc with rfl | rfl | rfl | rfl <;> exact absurd h (by decide)

/-- An escape is one character, whichever it is, or digits and perhaps a space. -/
theorem exists_of_take_escapeLength (hrest : rest ≠ []) :
    ∃ d more, rest.take (escapeLength rest) = d :: more ∧
      ∀ c ∈ more, c ∉ ['\\', '/', '"', '\''] := by
  rcases escape_split hrest with ⟨d, after, rfl, -, hone⟩ |
    ⟨digits, space, after, rfl, -, hne, hhex, hlength, hspace⟩
  · exact ⟨d, [], by simp [hone], by simp⟩
  · have hplain : ∀ c ∈ digits, c ∉ ['\\', '/', '"', '\''] := fun c hc =>
      isIdentChar_plain (isIdentChar_of_isHexDigit (hhex c hc))
    have hblank : ∀ c ∈ space, c ∉ ['\\', '/', '"', '\''] := by
      rcases hspace with rfl | ⟨rfl, -⟩ <;> simp
    obtain ⟨d, digits, rfl⟩ := List.exists_cons_of_ne_nil hne
    refine ⟨d, digits ++ space, ?_, ?_⟩
    · rw [hlength, ← List.append_assoc, List.take_left]
      rfl
    · exact List.forall_mem_append.mpr ⟨(List.forall_mem_cons.mp hplain).2, hblank⟩

/-- **An identifier is code exactly if what stands behind it is**, unless the text ends with it. -/
theorem isCode_ident {u : Text} (hend : u.drop (identLength u) ≠ []) :
    IsCode rest false (u.take (identLength u) ++ t) ↔ IsCode rest false t := by
  fun_induction identLength u with
  | case1 => exact absurd rfl hend
  | case2 after ih =>
    have hsucc : 1 + escapeLength after + identLength (after.drop (escapeLength after)) =
        escapeLength after + identLength (after.drop (escapeLength after)) + 1 := by omega
    rw [hsucc] at hend ⊢
    rw [List.drop_succ_cons, ← List.drop_drop] at hend
    have hafter : after ≠ [] := by
      rintro rfl
      simp at hend
    obtain ⟨d, more, htake, hmore⟩ := exists_of_take_escapeLength hafter
    rw [List.take_succ_cons, List.take_add, htake, List.cons_append, List.append_assoc]
    exact (isCode_plain hmore).trans (ih hend)
  | case3 c after hslash hident ih =>
    rw [Nat.add_comm, List.drop_succ_cons] at hend
    rw [Nat.add_comm, List.take_succ_cons]
    have hplain : ∀ d ∈ [c], d ∉ ['\\', '/', '"', '\''] := by
      simpa using isIdentChar_plain hident
    exact (isCode_plain (x := [c]) hplain).trans (ih hend)
  | case4 => rfl

/-- A raw form is code in front of code. -/
theorem isCode_escape (name : Text) :
    IsCode rest false (escape name ++ t) ↔ IsCode rest false t := by
  have hlength : identLength (escape name ++ ['{']) = (escape name).length := by
    rw [(spells_escape name).identLength, identLength_brace, Nat.add_zero]
  have hident := @isCode_ident rest t (escape name ++ ['{'])
  rw [hlength, List.take_left, List.drop_left] at hident
  exact hident (List.cons_ne_nil _ _)

end IsCode

/-! ## Names behind marks -/

section Marked

variable {mark : Char} {rest : Text}

theorem opens_renameMarked (hmark : IsMark mark) (renames : RenameMap) (t : Text) :
    Opens t (renameMarked mark renames t) :=
  .of_head? (sameUpTo_rewritten renames hmark none t).head?_eq

/-- An unquoted address ends with a bracket or with the text. -/
theorem take_lengthThrough_bracket (t : Text) :
    t.drop (lengthThrough [')'] t) = [] ∨
      ∃ front, t.take (lengthThrough [')'] t) = front ++ [')'] := by
  cases hcut : cut? [')'] t with
  | none =>
    have hlength : lengthThrough [')'] t = t.length := by simp [lengthThrough, hcut]
    rw [hlength]
    exact .inl List.drop_length
  | some pair =>
    obtain ⟨before, after⟩ := pair
    have hlength : lengthThrough [')'] t = (before ++ [')']).length := by simp [lengthThrough, hcut]
    rw [hlength, (cut?_eq_some hcut).1, List.take_left]
    exact .inr ⟨before, rfl⟩

section Exchange

variable {c : Char} {t tail : Text} {n : Nat}

/-- If nothing stands behind the first characters, nothing is exchanged. -/
theorem take_append_of_drop (hopens : Opens (t.drop n) tail) (hend : t.drop n = []) :
    t.take n ++ tail = t := by
  rw [hopens.empty.mpr hend, List.append_nil]
  exact List.take_of_length_le (List.drop_eq_nil_iff.mp hend)

theorem IsCode.exchange_address (h : IsCode rest false (c :: t))
    (hopens : Opens (t.drop (lengthThrough [')'] t)) tail)
    (htail : IsCode rest false (t.drop (lengthThrough [')'] t)) → IsCode rest false tail) :
    IsCode rest false (c :: (t.take (lengthThrough [')'] t) ++ tail)) := by
  rcases take_lengthThrough_bracket t with hend | ⟨front, htake⟩
  · rwa [take_append_of_drop hopens hend]
  · have hbracket : ')' ≠ '\\' := by decide
    rw [← List.take_append_drop (lengthThrough [')'] t) t, htake, ← List.cons_append,
      ← List.cons_append, List.append_assoc] at h
    rw [htake, ← List.cons_append, ← List.cons_append, List.append_assoc]
    exact h.exchange hbracket hopens (htail (h.behind hbracket))

theorem IsMark.isCode_cons (hmark : IsMark mark) :
    IsCode rest false (mark :: t) ↔ IsCode rest false t := by
  refine isCode_plain (x := [mark]) (List.forall_mem_singleton.mpr ?_)
  rcases hmark with rfl | rfl <;> decide

theorem IsCode.drop_ident (h : IsCode rest false t) :
    IsCode rest false (t.drop (identLength t)) := by
  by_cases hend : t.drop (identLength t) = []
  · rw [hend]
    trivial
  · rwa [← isCode_ident hend, List.take_append_drop]

theorem IsCode.exchange_ident (h : IsCode rest false t) (hopens : Opens (t.drop (identLength t)) tail)
    (htail : IsCode rest false tail) : IsCode rest false (t.take (identLength t) ++ tail) := by
  by_cases hend : t.drop (identLength t) = []
  · rwa [take_append_of_drop hopens hend]
  · exact (isCode_ident hend).mpr htail

end Exchange

theorem renamedPiece_eq_or (renames : RenameMap) (p : Piece (Option MarkedName)) :
    renamedPiece renames mark p = p.text ∨
      ∃ short, renamedPiece renames mark p = mark :: escape short := by
  unfold renamedPiece
  rcases hout : p.note.bind _ with _ | out
  · exact .inl rfl
  · obtain ⟨m, -, hm⟩ := Option.bind_eq_some_iff.mp hout
    obtain ⟨short, -, rfl⟩ := Option.map_eq_some_iff.mp hm
    exact .inr ⟨short, rfl⟩

/-- **Renaming behind a mark makes code of code.** -/
theorem isCode_renameMarked (hmark : IsMark mark) (renames : RenameMap) {t : Text}
    (h : IsCode rest false t) : IsCode rest false (renameMarked mark renames t) := by
  suffices hscan : ∀ before, IsCode rest false
      (rewritten (markedMatcher mark).step (renamedPiece renames mark) before t) from hscan none
  intro before
  fun_induction scan (markedMatcher mark).step before t with
  | case1 =>
    rw [rewritten_nil]
    exact h
  | case2 before c after st ih =>
    have hopens : ∀ before t, Opens t
        (rewritten (markedMatcher mark).step (renamedPiece renames mark) before t) :=
      fun before t => .of_head? (sameUpTo_rewritten renames hmark before t).head?_eq
    rw [rewritten_cons]
    rcases markedMatcher_cases hmark before c after with
      ⟨rfl, hstep⟩ | ⟨hc, -, -, hstep⟩ | ⟨hc, -, -, hstep⟩ | ⟨rfl, hstep⟩
    · -- an escaped character
      simp only [st, Matcher.step, hstep] at ih ⊢
      rw [renamedPiece_none renames rfl, List.cons_append]
      cases after with
      | nil =>
        rw [take_append_of_drop (hopens _ _) rfl]
        exact h
      | cons d after => exact ih h
    · -- an unquoted address
      simp only [st, Matcher.step, hstep] at ih ⊢
      rw [renamedPiece_none renames rfl]
      exact h.exchange_address (hopens _ _) ih
    · -- another character
      simp only [st, Matcher.step, hstep] at ih ⊢
      rw [renamedPiece_none renames rfl]
      have htail : IsCode rest false after := ((isCode_cons hc).mp h).2.2.2
      exact h.exchange (u := []) hc (hopens _ _) (ih htail)
    · -- a mark: what stands behind the identifier is code, whether the identifier stays or not
      simp only [st, Matcher.step, hstep] at ih ⊢
      have hafter : IsCode rest false after := hmark.isCode_cons.mp h
      have htail := ih hafter.drop_ident
      rcases renamedPiece_eq_or renames ⟨c :: after.take (identLength after), _⟩ with
        hkept | ⟨short, hnew⟩
      · rw [hkept, List.cons_append]
        exact hmark.isCode_cons.mpr (hafter.exchange_ident (hopens _ _) htail)
      · rw [hnew, List.cons_append]
        exact hmark.isCode_cons.mpr ((isCode_escape short).mpr htail)

end Marked

/-! ## Custom properties -/

/-- Every short name is quiet. -/
def QuietShorts (renames : RenameMap) : Prop :=
  ∀ {name short : Text}, renames.find? name = some short → Quiet short

section Properties

variable {renames : RenameMap}

/-- A short name may stand in the place of a property. -/
theorem opens_short {short : Text} (h : Quiet short) (s t : Text) :
    Opens ('-' :: t) (short ++ s) := by
  obtain ⟨c, more, rfl⟩ := List.exists_cons_of_ne_nil h.nonempty
  refine ⟨by simp, fun hstar => ?_, nofun⟩
  cases hstar
  exact absurd (by decide) (h.quiet '*' List.mem_cons_self)

theorem opens_renameProperties (h : QuietShorts renames) (t : Text) :
    Opens t (renameProperties renames t) :=
  renameProperties_induction (fun s t => Opens t s) (.refl []) (fun _ _ _ _ => .of_head? rfl)
    (fun _ _ _ _ _ hfind _ => opens_short (h hfind) _ _) t

/-- **Renaming custom properties makes code of code.** -/
theorem isCode_renameProperties (h : QuietShorts renames) {rest t : Text}
    (hcode : IsCode rest false t) : IsCode rest false (renameProperties renames t) := by
  -- a property may stand behind a backslash, which escapes its first hyphen
  suffices hrel : Opens t (renameProperties renames t) ∧
      ∀ escaped, IsCode rest escaped t → IsCode rest escaped (renameProperties renames t) from
    hrel.2 false hcode
  refine renameProperties_induction (fun s t => Opens t s ∧
    ∀ escaped, IsCode rest escaped t → IsCode rest escaped s) ⟨.refl [], fun _ => id⟩ ?_ ?_ t
  · rintro c s t ⟨hopens, hs⟩
    exact ⟨.of_head? rfl, fun _ ht => ht.keep (hs _) (hopens.append (.refl rest)).star⟩
  · rintro run short s t hrun hfind ⟨-, hs⟩
    refine ⟨opens_short (h hfind) _ _, fun escaped ht => ?_⟩
    obtain ⟨front, c, hfront, hc⟩ : ∃ front c, '-' :: '-' :: run = front ++ [c] ∧ c ≠ '\\' := by
      obtain ⟨front, c, hfront⟩ := (List.eq_nil_or_concat ('-' :: '-' :: run)).resolve_left nofun
      rw [List.concat_eq_append] at hfront
      refine ⟨front, c, hfront, ?_⟩
      rintro rfl
      have hmem : '\\' ∈ '-' :: '-' :: run := hfront ▸ by simp
      simp only [List.mem_cons, Char.reduceEq, false_or] at hmem
      exact absurd (hrun _ hmem) (by decide)
    rw [hfront, List.append_assoc] at ht
    refine .literal (h hfind).nonempty (fun d hd hmem => (h hfind).quiet d hd ?_)
      (hs false (ht.behind hc)) escaped
    simp only [List.mem_cons, List.not_mem_nil, or_false] at hmem ⊢
    tauto

end Properties

/-! ## Token lists -/

/-- The tokens with `f` applied to the code. -/
def codeMapped (f : Text → Text) (ts : List (Token Kind)) : List (Token Kind) :=
  ts.map fun t => if t.kind = .code then ⟨.code, f t.text⟩ else t

section MapCode

variable {f : Text → Text}

theorem join_codeMapped (css : Text) : Token.join (codeMapped f (tokens css)) = mapCode f css := by
  unfold Token.join codeMapped mapCode
  rw [List.flatMap_map]
  refine List.flatMap_congr fun t _ => ?_
  split <;> rfl

theorem Cut.codeMapped {ts : List (Token Kind)} (h : Cut ts) (hopens : ∀ t, Opens t (f t))
    (hcode : ∀ {rest t}, IsCode rest false t → IsCode rest false (f t)) :
    Cut (codeMapped f ts) ∧ Opens (Token.join ts) (Token.join (Stylesheet.codeMapped f ts)) := by
  induction h with
  | nil => exact ⟨.nil, .refl _⟩
  | @code t ts ht _ ih =>
    have hmapped : Stylesheet.codeMapped f (⟨.code, t⟩ :: ts) =
        ⟨.code, f t⟩ :: Stylesheet.codeMapped f ts := rfl
    rw [hmapped, Token.join_cons, Token.join_cons]
    exact ⟨.code (hcode (ht.of_opens ih.2)) ih.1, (hopens t).append ih.2⟩
  | @inert token ts hkind htakes _ ih =>
    have hmapped : Stylesheet.codeMapped f (token :: ts) = token :: Stylesheet.codeMapped f ts := by
      rw [Stylesheet.codeMapped, List.map_cons, if_neg hkind]
      rfl
    rw [hmapped, Token.join_cons, Token.join_cons]
    exact ⟨.inert hkind (htakes.of_after hkind ih.2.empty.mpr ih.2.newline) ih.1,
      (Opens.refl _).append ih.2⟩

/-- **A function that makes code of code keeps the tokens.** -/
theorem tokens_mapCode (hopens : ∀ t, Opens t (f t))
    (hcode : ∀ {rest t}, IsCode rest false t → IsCode rest false (f t)) (css : Text) :
    tokens (mapCode f css) = codeMapped f (tokens css) := by
  have hkind : ∀ t : Token Kind,
      (if t.kind = .code then ⟨.code, f t.text⟩ else t).kind = t.kind := by
    intro t
    split
    · rename_i h
      exact h.symm
    · rfl
  rw [← join_codeMapped]
  refine tokens_join ((cut_tokens css).codeMapped hopens hcode).1 ?_ ?_
  · intro u hu hcode
    obtain ⟨t, ht, rfl⟩ := List.mem_map.mp hu
    rw [hkind] at hcode
    rw [if_pos hcode]
    exact mt (hopens t.text).empty.mp (tokens_text_ne_nil css t ht hcode)
  · refine (List.isChain_map _).mpr ((isChain_tokens css).imp fun t u h => ?_)
    rwa [hkind, hkind]

end MapCode

/-- **Renaming in code keeps strings and comments as they are.** -/
theorem tokens_renameCode (classes ids : RenameMap) {properties : RenameMap}
    (h : QuietShorts properties) (css : Text) :
    tokens (mapCode (renameCode classes ids properties) css) =
      codeMapped (renameCode classes ids properties) (tokens css) := by
  refine tokens_mapCode (fun t => ?_) (fun ht => ?_) css
  · exact ((opens_renameMarked (.inl rfl) classes t).trans
      (opens_renameMarked (.inr rfl) ids _)).trans (opens_renameProperties h _)
  · exact isCode_renameProperties h
      (isCode_renameMarked (.inr rfl) ids (isCode_renameMarked (.inl rfl) classes ht))

end WebTrim.Stylesheet
