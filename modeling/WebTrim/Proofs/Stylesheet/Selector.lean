import WebTrim.Proofs.Stylesheet.Ident
import WebTrim.Proofs.Text.Scan
import WebTrim.Stylesheet.Selector

/-!
# Renaming the names behind a mark

A renamed piece of code is read back with the same names at the same places, each in its new form.

* `SameUpTo` — two texts agree up to the first mark; `sameUpTo_rewritten` says so of a piece of code
  and its renamed form, so a look ahead for `url(` sees the same in both.
* `answers_marked` — at every place the matcher takes from the renamed code the renamed piece.
* `scan_renameMarked`, `pieces_renameMarked` — hence the pieces of the renamed code are the renamed
  pieces.
* `markedSpans_renameMarked` — **renaming commutes with scanning**, and the text outside the names
  stays.
-/

set_option autoImplicit false

namespace WebTrim.Stylesheet

open Text

/-! ## Marks -/

/-- The marks of classes and ids. -/
def IsMark (mark : Char) : Prop :=
  mark = '.' ∨ mark = '#'

theorem IsMark.ne_backslash {mark : Char} (h : IsMark mark) : mark ≠ '\\' := by
  rcases h with rfl | rfl <;> decide

theorem IsMark.matchesLetter {mark : Char} (h : IsMark mark) :
    ∀ w ∈ "url(".toList, matchesLetter w mark = false := by
  have hletters : "url(".toList.all (fun w => !Text.matchesLetter w mark) = true := by
    rcases h with rfl | rfl <;> decide
  simpa using hletters

theorem IsMark.opensUrl {mark : Char} (h : IsMark mark) (rest : Text) :
    opensUrl (mark :: rest) = false := by
  have hu := h.matchesLetter 'u' (by decide)
  have hword : "url(".toList = 'u' :: "rl(".toList := by decide
  rw [Stylesheet.opensUrl, hword]
  simp [dropWord?, hu]

theorem isIdentChar_of_opensUrl {c : Char} {rest : Text} (h : opensUrl (c :: rest) = true) :
    isIdentChar c = true := by
  have hword : "url(".toList = 'u' :: "rl(".toList := by decide
  rw [opensUrl, hword] at h
  simp only [dropWord?] at h
  split at h
  · rename_i hletter
    by_cases hascii : c.toNat < 0x80
    · simp only [matchesLetter, lowerChar, if_pos hascii] at hletter
      split at hletter
      · rename_i hupper
        simp [isIdentChar, isAsciiAlnum, isAsciiLetter, hupper]
      · have hc : c = 'u' := by simpa using hletter
        rw [hc]
        decide
    · simp [isIdentChar, Nat.le_of_not_lt hascii]
  · cases h

/-! ## Texts that agree up to a mark -/

/-- The texts agree up to the first mark that stands in both. -/
inductive SameUpTo (mark : Char) : Text → Text → Prop where
  | nil : SameUpTo mark [] []
  | mark (s t : Text) : SameUpTo mark (mark :: s) (mark :: t)
  | cons (c : Char) {s t : Text} : SameUpTo mark s t → SameUpTo mark (c :: s) (c :: t)

namespace SameUpTo

variable {mark : Char} {s t : Text}

theorem append (before : Text) (h : SameUpTo mark s t) :
    SameUpTo mark (before ++ s) (before ++ t) := by
  induction before with
  | nil => exact h
  | cons c before ih => exact .cons c ih

theorem head?_eq (h : SameUpTo mark s t) : s.head? = t.head? := by
  cases h <;> rfl

theorem eq_nil (h : SameUpTo mark s t) (ht : t = []) : s = [] := by
  subst ht
  cases h
  rfl

/-- A word that the mark is no letter of begins both texts or neither. -/
theorem isSome_dropWord? (h : SameUpTo mark s t) {word : Text}
    (hword : ∀ w ∈ word, matchesLetter w mark = false) :
    (dropWord? word s).isSome = (dropWord? word t).isSome := by
  induction word generalizing s t with
  | nil => rfl
  | cons w word ih =>
    cases h with
    | nil => rfl
    | mark s t => simp [dropWord?, hword w List.mem_cons_self]
    | cons c h =>
      simp only [dropWord?]
      split
      · exact ih h fun w hw => hword w (List.mem_cons_of_mem _ hw)
      · rfl

theorem opensUrl_cons {rest : Text} {n : Nat} (h : SameUpTo mark s (rest.drop n))
    (hmark : IsMark mark) (c : Char) :
    opensUrl (c :: (rest.take n ++ s)) = opensUrl (c :: rest) := by
  have hword := (h.append (c :: rest.take n)).isSome_dropWord? hmark.matchesLetter
  rwa [List.cons_append, List.cons_append, List.take_append_drop] at hword

end SameUpTo

/-! ## One step of the matcher -/

section Step

variable {mark : Char} (renames : RenameMap)

/-- A name behind the mark in its new form, as it is written and as it reads. -/
def MarkedName.renamed (m : MarkedName) : MarkedName :=
  match renames.find? m.name with
  | some short => ⟨escape short, short⟩
  | none => m

theorem MarkedName.renamed_name (m : MarkedName) :
    (m.renamed renames).name = renames.rename m.name := by
  unfold MarkedName.renamed RenameMap.rename
  cases renames.find? m.name <;> rfl

/-- The new text of a piece. -/
def renamedPiece (mark : Char) (p : Piece (Option MarkedName)) : Text :=
  (p.note.bind fun m => (renames.find? m.name).map fun short => mark :: escape short).getD p.text

/-- A name that can be written behind the mark and read back. -/
structure Writable (mark : Char) (name : Text) : Prop where
  nonempty : name ≠ []
  noNul : ∀ c ∈ name, c.toNat ≠ 0
  noNumber : startsWithDigit name = false
  noColor : mark = '#' → isHexColor name = false

theorem Writable.isMarkable {name : Text} (h : Writable mark name) :
    isMarkable mark name = true := by
  simpa [Stylesheet.isMarkable, h.nonempty, h.noNumber, ← imp_iff_not_or] using h.noColor

theorem markedMatcher_url {before : Option Char} {c : Char} {rest : Text} (hslash : c ≠ '\\')
    (hopens : opensUrl (c :: rest) = true) (hfree : before.any isIdentChar = false) :
    markedMatcher mark before c rest = (lengthThrough [')'] rest, none) := by
  simp [markedMatcher, hslash, hopens, hfree]

theorem markedMatcher_pass {before : Option Char} {c : Char} {rest : Text} (hslash : c ≠ '\\')
    (hc : c ≠ mark) (hword : opensUrl (c :: rest) = true → before.any isIdentChar = true) :
    markedMatcher mark before c rest = (0, none) := by
  have hpass : (opensUrl (c :: rest) && !(before.any isIdentChar)) = false := by
    rw [← Bool.not_eq_true, Bool.and_eq_true, Bool.not_eq_true']
    rintro ⟨hopens, hfree⟩
    rw [hword hopens] at hfree
    cases hfree
  simp [markedMatcher, hslash, hpass, hc]

/-- What stands behind the mark, if it is a name. -/
def nameBehind (mark : Char) (raw : Text) : Option MarkedName :=
  if isMarkable mark (unescape raw) then some ⟨raw, unescape raw⟩ else none

theorem markedMatcher_mark (hmark : IsMark mark) (before : Option Char) (rest : Text) :
    markedMatcher mark before mark rest =
      (identLength rest, nameBehind mark (rest.take (identLength rest))) := by
  simp [markedMatcher, hmark.ne_backslash, hmark.opensUrl, nameBehind]

/-- What the matcher does at a place: it passes an escaped character, an unquoted address or some
other character, or it takes the mark and the identifier after it. -/
theorem markedMatcher_cases (hmark : IsMark mark) (before : Option Char) (c : Char) (rest : Text) :
    (c = '\\' ∧ markedMatcher mark before c rest = (1, none)) ∨
    (c ≠ '\\' ∧ opensUrl (c :: rest) = true ∧ before.any isIdentChar = false ∧
      markedMatcher mark before c rest = (lengthThrough [')'] rest, none)) ∨
    (c ≠ '\\' ∧ c ≠ mark ∧ (opensUrl (c :: rest) = true → before.any isIdentChar = true) ∧
      markedMatcher mark before c rest = (0, none)) ∨
    (c = mark ∧ markedMatcher mark before c rest =
      (identLength rest, nameBehind mark (rest.take (identLength rest)))) := by
  by_cases hslash : c = '\\'
  · exact .inl ⟨hslash, by simp [markedMatcher, hslash]⟩
  by_cases hc : c = mark
  · subst hc
    exact .inr (.inr (.inr ⟨rfl, markedMatcher_mark hmark before rest⟩))
  by_cases hurl : opensUrl (c :: rest) = true ∧ before.any isIdentChar = false
  · exact .inr (.inl ⟨hslash, hurl.1, hurl.2, markedMatcher_url hslash hurl.1 hurl.2⟩)
  · have hword : opensUrl (c :: rest) = true → before.any isIdentChar = true := fun hopens => by
      simpa [hopens] using hurl
    exact .inr (.inr (.inl ⟨hslash, hc, hword, markedMatcher_pass hslash hc hword⟩))

/-- What was found behind the mark is the rest of the piece, as it is written and as it reads. -/
theorem markedMatcher_found (hmark : IsMark mark) {before : Option Char} {c : Char} {rest : Text}
    {n : Nat} {m : MarkedName} (h : markedMatcher mark before c rest = (n, some m)) :
    c = mark ∧ n = identLength rest ∧ m = ⟨rest.take n, unescape (rest.take n)⟩ ∧
      isMarkable mark m.name = true := by
  rcases markedMatcher_cases hmark before c rest with
    ⟨-, hstep⟩ | ⟨-, -, -, hstep⟩ | ⟨-, -, -, hstep⟩ | ⟨hc, hstep⟩
  · rw [hstep] at h
    cases h
  · rw [hstep] at h
    cases h
  · rw [hstep] at h
    cases h
  · rw [hstep, Prod.mk.injEq, nameBehind] at h
    obtain ⟨rfl, hfound⟩ := h
    split at hfound
    · rename_i hmarkable
      cases hfound
      exact ⟨hc, rfl, rfl, hmarkable⟩
    · cases hfound

/-- The new text of a piece in which nothing was found is the old one. -/
theorem renamedPiece_none {p : Piece (Option MarkedName)} (h : p.note = none) :
    renamedPiece renames mark p = p.text := by
  rw [renamedPiece, h]
  rfl

/-- The new text of a piece with a name is the mark and the new form of the name. -/
theorem renamedPiece_some {p : Piece (Option MarkedName)} {m : MarkedName} (h : p.note = some m)
    (htext : p.text = mark :: m.raw) :
    renamedPiece renames mark p = mark :: (m.renamed renames).raw := by
  rw [renamedPiece, h, htext, Option.bind_some, MarkedName.renamed]
  cases renames.find? m.name <;> rfl

/-- **A piece of code and its renamed form agree up to the first mark.** -/
theorem sameUpTo_rewritten (hmark : IsMark mark) (before : Option Char) (t : Text) :
    SameUpTo mark (rewritten (markedMatcher mark).step (renamedPiece renames mark) before t) t := by
  fun_induction scan (markedMatcher mark).step before t with
  | case1 =>
    rw [rewritten_nil]
    exact .nil
  | case2 before c rest st ih =>
    rcases hstep : markedMatcher mark before c rest with ⟨n, found⟩
    simp only [st, Matcher.step, hstep] at ih
    rw [rewritten_cons]
    simp only [Matcher.step, hstep]
    cases found with
    | none =>
      rw [renamedPiece_none renames rfl]
      have h := ih.append (c :: rest.take n)
      rwa [List.cons_append, List.cons_append, List.take_append_drop] at h
    | some m =>
      obtain ⟨rfl, -, rfl, -⟩ := markedMatcher_found hmark hstep
      rw [renamedPiece_some renames rfl rfl]
      exact .mark _ _

/-! ## Every step is answered -/

/-- The states at a place of the code and of the renamed code: the character before matters only if
an identifier might go on here, and then it is the same. -/
def SameBefore (before before' : Option Char) (t : Text) : Prop :=
  (∃ c ∈ t.head?, isIdentChar c = true) → before = before'

/-- After an identifier the character before the place no longer matters. -/
theorem sameBefore_after_ident (before before' : Option Char) (rest : Text) :
    SameBefore before before' (rest.drop (identLength rest)) := by
  rintro ⟨c, hc, hident⟩
  have hend := (identLength_eq_zero_iff _).mp (identLength_drop_identLength rest) c hc
  rw [hend.2] at hident
  cases hident

/-- What stands behind the mark is read back as it was, and its new form as the new name. -/
theorem nameBehind_escape {short : Text} (h : Writable mark short) :
    nameBehind mark (escape short) = some ⟨escape short, short⟩ := by
  have hread : unescape (escape short) = short := by
    have := (spells_escape short).unescape []
    simpa [map_readBack h.noNul] using this
  rw [nameBehind, hread, if_pos h.isMarkable]

section Mark

variable {rest tail : Text} {before : Option Char}

/-- Behind the mark, an identifier that stays is taken again. -/
theorem markedMatcher_kept (hmark : IsMark mark)
    (hsame : SameUpTo mark tail (rest.drop (identLength rest))) :
    markedMatcher mark before mark (rest.take (identLength rest) ++ tail) =
      (identLength rest, nameBehind mark (rest.take (identLength rest))) := by
  rw [markedMatcher_mark hmark, identLength_take_append (by simp [hsame.head?_eq]),
    take_append_of_short hsame.eq_nil]

/-- No identifier goes on after the end of one. -/
theorem SameUpTo.identLength_eq_zero
    (hsame : SameUpTo mark tail (rest.drop (identLength rest))) : identLength tail = 0 := by
  rw [identLength_eq_zero_iff, hsame.head?_eq, ← identLength_eq_zero_iff]
  exact identLength_drop_identLength rest

/-- Behind the mark, a new identifier is taken up to its end. -/
theorem markedMatcher_raw (hmark : IsMark mark) (hend : identLength tail = 0) (short : Text) :
    markedMatcher mark before mark (escape short ++ tail) =
      ((escape short).length, nameBehind mark (escape short)) := by
  have hlength : identLength (escape short ++ tail) = (escape short).length := by
    rw [(spells_escape short).identLength, hend, Nat.add_zero]
  rw [markedMatcher_mark hmark, hlength, List.take_left]

theorem markedMatcher_escape {short : Text} (hmark : IsMark mark) (hend : identLength tail = 0)
    (h : Writable mark short) :
    markedMatcher mark before mark (escape short ++ tail) =
      ((escape short).length, some ⟨escape short, short⟩) := by
  rw [markedMatcher_raw hmark hend, nameBehind_escape h]

end Mark

/-- What is found in the place of a name: nothing if the new name cannot stand behind the mark. -/
def MarkedName.reread (mark : Char) (m : MarkedName) : Option MarkedName :=
  nameBehind mark (m.renamed renames).raw

/-- **At every place the matcher takes the renamed piece from the renamed code.** -/
theorem answers_marked (hmark : IsMark mark) (before before' : Option Char) (c : Char) (rest : Text)
    (hbefore : SameBefore before before' (c :: rest)) :
    Answers (markedMatcher mark).step (renamedPiece renames mark)
      (Option.bind · (MarkedName.reread renames mark)) SameBefore before before' c rest := by
  have hrefl : ∀ s t, SameBefore s s t := fun _ _ _ => rfl
  rcases markedMatcher_cases hmark before c rest with
    ⟨rfl, hstep⟩ | ⟨hslash, hopens, hfree, hstep⟩ | ⟨hslash, hc, hword, hstep⟩ | ⟨rfl, hstep⟩
  · -- an escaped character
    refine Matcher.answers_of_kept hrefl hstep rfl fun tail htail => ?_
    have hsame := htail ▸ sameUpTo_rewritten renames hmark _ (rest.drop 1)
    exact ⟨take_append_of_short hsame.eq_nil, rfl⟩
  · -- an unquoted address
    refine Matcher.answers_of_kept hrefl hstep rfl fun tail htail => ?_
    have hsame := htail ▸ sameUpTo_rewritten renames hmark _ (rest.drop (lengthThrough [')'] rest))
    have heq : before = before' := hbefore ⟨c, rfl, isIdentChar_of_opensUrl hopens⟩
    rw [markedMatcher_url hslash ((hsame.opensUrl_cons hmark c).trans hopens) (heq ▸ hfree),
      lengthThrough_take_append hsame.eq_nil]
    exact ⟨take_append_of_short hsame.eq_nil, rfl⟩
  · -- another character
    refine Matcher.answers_of_kept hrefl hstep rfl fun tail htail => ?_
    have hsame := htail ▸ sameUpTo_rewritten renames hmark _ (rest.drop 0)
    have hword' : opensUrl (c :: (rest.take 0 ++ tail)) = true →
        before'.any isIdentChar = true := by
      intro hopens
      rw [hsame.opensUrl_cons hmark c] at hopens
      have heq : before = before' := hbefore ⟨c, rfl, isIdentChar_of_opensUrl hopens⟩
      exact heq ▸ hword hopens
    rw [markedMatcher_pass hslash hc hword']
    exact ⟨rfl, rfl⟩
  · -- a mark: the identifier after it is kept or replaced
    cases hname : nameBehind c (rest.take (identLength rest)) with
    | none =>
      rw [hname] at hstep
      refine Matcher.answers_of_kept hrefl hstep rfl fun tail htail => ?_
      have hsame := htail ▸ sameUpTo_rewritten renames hmark _ (rest.drop (identLength rest))
      rw [markedMatcher_kept hmark hsame, hname]
      exact ⟨take_append_of_short hsame.eq_nil, rfl⟩
    | some m =>
      rw [hname] at hstep
      obtain ⟨-, -, hm, -⟩ := markedMatcher_found hmark hstep
      have hout : renamedPiece renames c ⟨c :: rest.take (identLength rest), some m⟩ =
          c :: (m.renamed renames).raw := renamedPiece_some renames rfl (by rw [hm])
      cases hfind : renames.find? m.name with
      | none =>
        have hkept : m.renamed renames = m := by rw [MarkedName.renamed, hfind]
        rw [hkept, hm] at hout
        refine Matcher.answers_of_kept hrefl hstep (hm ▸ hout) fun tail htail => ?_
        have hsame := htail ▸ sameUpTo_rewritten renames hmark _ (rest.drop (identLength rest))
        have hraw : m.raw = rest.take (identLength rest) := by rw [hm]
        have hagain : m.reread renames c = some m := by rw [MarkedName.reread, hkept, hraw, hname]
        rw [markedMatcher_kept hmark hsame, hname, Option.bind_some, hagain]
        exact ⟨take_append_of_short hsame.eq_nil, rfl⟩
      | some short =>
        have hnew : m.renamed renames = ⟨escape short, short⟩ := by rw [MarkedName.renamed, hfind]
        rw [hnew] at hout
        simp only [Answers, Matcher.step, hstep]
        refine ⟨c, escape short, hout, fun tail htail => ?_⟩
        have hsame := htail ▸ sameUpTo_rewritten renames hmark _ (rest.drop (identLength rest))
        rw [markedMatcher_raw hmark hsame.identLength_eq_zero, Option.bind_some, MarkedName.reread,
          hnew]
        exact ⟨List.take_left, rfl, sameBefore_after_ident _ _ rest⟩

/-! ## The renamed code -/

/-- The pieces of the renamed code are the renamed pieces, whatever the new names are. -/
theorem scan_renameMarked (hmark : IsMark mark) (code : Text) :
    (markedMatcher mark).pieces (renameMarked mark renames code) =
      ((markedMatcher mark).pieces code).map fun p =>
        ⟨renamedPiece renames mark p, p.note.bind (MarkedName.reread renames mark)⟩ :=
  scan_rewritten (answers_marked renames hmark) none none code fun _ => rfl

/-- A piece with a name is the mark and the raw form of the name. -/
theorem text_of_found (hmark : IsMark mark) (code : Text) :
    ∀ p ∈ (markedMatcher mark).pieces code, ∀ m, p.note = some m →
      p.text = mark :: m.raw ∧ identLength m.raw = m.raw.length ∧
        nameBehind mark m.raw = some m := by
  refine forall_mem_scan (fun before c rest _ m hm => ?_) none
  rcases hstep : markedMatcher mark before c rest with ⟨n, found⟩
  simp only [Matcher.step, hstep] at hm ⊢
  subst hm
  obtain ⟨rfl, rfl, rfl, hmarkable⟩ := markedMatcher_found hmark hstep
  exact ⟨rfl, identLength_take_identLength rest, if_pos hmarkable⟩

/-- If the new names can stand behind the mark, each is found in the place of the old one. -/
theorem pieces_renameMarked (hmark : IsMark mark)
    (hshorts : ∀ name short, renames.find? name = some short → Writable mark short) (code : Text) :
    (markedMatcher mark).pieces (renameMarked mark renames code) =
      ((markedMatcher mark).pieces code).map fun p =>
        ⟨renamedPiece renames mark p, p.note.map (MarkedName.renamed renames)⟩ := by
  rw [scan_renameMarked renames hmark]
  refine List.map_congr_left fun p hp => ?_
  cases hnote : p.note with
  | none => rfl
  | some m =>
    have hfound := (text_of_found hmark code p hp m hnote).2.2
    have hagain : m.reread renames mark = some (m.renamed renames) := by
      unfold MarkedName.reread MarkedName.renamed
      cases hfind : renames.find? m.name with
      | none => exact hfound
      | some short => exact nameBehind_escape (hshorts _ _ hfind)
    rw [Option.bind_some, hagain, Option.map_some]

theorem markedSpans_eq (code : Text) :
    markedSpans mark code = spansFrom 0 ((markedMatcher mark).pieces code) := by
  refine foldl_spans (fun start found p => ?_) _ 0 []
  cases p.note <;> rfl

/-- The text that the names and their marks cover. -/
theorem covered_markedSpans (hmark : IsMark mark) (code : Text) :
    covered 0 (markedSpans mark code) code =
      (markedNames mark code).map fun m => mark :: m.raw := by
  have hcovered := covered_spansFrom (fun p hp m hm => (text_of_found hmark code p hp m hm).1) 0
  rwa [Matcher.pieces_text, ← markedSpans_eq] at hcovered

theorem outside_markedSpans (code : Text) :
    outside 0 (markedSpans mark code) code = stretches ((markedMatcher mark).pieces code) := by
  have houtside := outside_spansFrom ((markedMatcher mark).pieces code) 0
  rwa [Matcher.pieces_text, ← markedSpans_eq] at houtside

theorem map_markedSpans (code : Text) :
    (markedSpans mark code).map (·.2.2) = markedNames mark code := by
  rw [markedSpans_eq, map_found_spansFrom]
  rfl

/-- The names in the renamed code are the names of the code in their new form. -/
theorem markedNames_renameMarked (hmark : IsMark mark)
    (hshorts : ∀ name short, renames.find? name = some short → Writable mark short) (code : Text) :
    markedNames mark (renameMarked mark renames code) =
      (markedNames mark code).map (MarkedName.renamed renames) := by
  rw [markedNames, markedNames, Matcher.findAll, pieces_renameMarked renames hmark hshorts,
    Matcher.findAll, List.filterMap_map, List.map_filterMap]
  rfl

/-- **Renaming commutes with scanning.** Behind the mark the renamed code has the same names in the
same order, each in its new form; the text between the names stays, and each name that is not
renamed keeps the form in which it is written. -/
theorem markedSpans_renameMarked (hmark : mark = '.' ∨ mark = '#')
    (hshorts : ∀ name short, renames.find? name = some short → Writable mark short) (code : Text) :
    (markedSpans mark (renameMarked mark renames code)).map (·.2.2.name) =
        (markedSpans mark code).map (fun span => renames.rename span.2.2.name) ∧
      outside 0 (markedSpans mark (renameMarked mark renames code))
          (renameMarked mark renames code) =
        outside 0 (markedSpans mark code) code ∧
      covered 0 (markedSpans mark code) code =
        (markedSpans mark code).map (fun span => mark :: span.2.2.raw) ∧
      covered 0 (markedSpans mark (renameMarked mark renames code))
          (renameMarked mark renames code) =
        (markedSpans mark code).map (fun span => mark :: (span.2.2.renamed renames).raw) := by
  refine ⟨?_, ?_, ?_, ?_⟩
  · calc (markedSpans mark (renameMarked mark renames code)).map (·.2.2.name)
        = (markedNames mark (renameMarked mark renames code)).map MarkedName.name := by
          rw [← map_markedSpans, List.map_map]
          rfl
      _ = (markedNames mark code).map fun m => renames.rename m.name := by
          rw [markedNames_renameMarked renames hmark hshorts, List.map_map]
          exact List.map_congr_left fun m _ => m.renamed_name renames
      _ = (markedSpans mark code).map fun span => renames.rename span.2.2.name := by
          rw [← map_markedSpans, List.map_map]
          rfl
  · rw [outside_markedSpans, outside_markedSpans, pieces_renameMarked renames hmark hshorts]
    refine stretches_map (fun p _ => ?_) (fun p _ hnone => ?_)
    · exact Option.isSome_map
    · exact renamedPiece_none renames hnone
  · rw [covered_markedSpans hmark, ← map_markedSpans, List.map_map]
    rfl
  · rw [covered_markedSpans hmark, markedNames_renameMarked renames hmark hshorts,
      ← map_markedSpans, List.map_map, List.map_map]
    rfl

end Step

/-- An escaped id gets a name that needs an escape itself; a colour and an address stay. -/
theorem markedSpans_renameMarked_escaped :
    (∀ name short, RenameMap.find? ⟨[("main".toList, "a b".toList)]⟩ name = some short →
      Writable '#' short) ∧
    (markedSpans '#' (renameMarked '#' ⟨[("main".toList, "a b".toList)]⟩
      "#\\6d ain,#x\x7bcolor:#fff;fill:url(#main)\x7d".toList)).map (·.2.2.name) =
      ["a b".toList, "x".toList] := by
  have hshorts : ∀ name short, RenameMap.find? ⟨[("main".toList, "a b".toList)]⟩ name =
      some short → Writable '#' short := by
    intro name short h
    simp only [RenameMap.find?, List.lookup_cons, List.lookup_nil] at h
    split at h
    · cases h
      exact ⟨by decide, by simp, by decide, fun _ => by decide⟩
    · cases h
  refine ⟨hshorts, ?_⟩
  rw [(markedSpans_renameMarked _ (.inr rfl) hshorts _).1]
  decide +kernel

end WebTrim.Stylesheet
