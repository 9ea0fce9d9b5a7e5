import WebTrim.Proofs.Naming.Allocation
import WebTrim.Proofs.Stylesheet.CodeRename

/-!
# The tokens of a renamed stylesheet

Attribute selectors and references to ids are looked for in the whole text of a stylesheet, so they
are found in strings and comments, too. What is replaced of them are names, the letters of `url(`
and blanks. If no name holds a quote, a backslash or the beginning or end of a comment, this can be
done wherever they stand: the new stylesheet has the same tokens, some with other names in them.

* `Harmless` — short names that can be put in the place of their names.
* `AttributeSelector.parts`, `UrlFragment.parts` — the parts that the two renamings replace.
* `AttributeSelector.tokens_renameAll`, `UrlFragment.tokens_renameAll` — what becomes of the tokens.
* `rename_tokens` — **a string or a comment stays unless one of the two renamings finds a name in
  it**.
-/

set_option autoImplicit false

namespace WebTrim.Stylesheet

open Text

/-! ## Names -/

/-- The short names can be put in the place of their names in any token. -/
structure Harmless (renames : RenameMap) : Prop where
  tame : ∀ {name short : Text}, renames.find? name = some short → Tame name
  quiet : QuietShorts renames

/-- Names that are quiet themselves can be replaced. -/
theorem Harmless.of_quiet {renames : RenameMap}
    (h : ∀ entry ∈ renames.entries, Quiet entry.1 ∧ Quiet entry.2) : Harmless renames :=
  ⟨fun hfind => (h _ (RenameMap.mem_entries_of_find? hfind)).1.tame,
    fun hfind => (h _ (RenameMap.mem_entries_of_find? hfind)).2⟩

/-- The parts of a name: it is replaced if it has a short name. -/
def nameParts (renames : RenameMap) (name : Text) : List Part :=
  match renames.find? name with
  | some short => [.replace name short]
  | none => keepAll name

section Name

variable {renames : RenameMap} {name : Text}

@[simp] theorem oldText_nameParts : oldText (nameParts renames name) = name := by
  unfold nameParts
  split
  · simp [Part.old]
  · simp

@[simp] theorem newText_nameParts : newText (nameParts renames name) = renames.rename name := by
  unfold nameParts
  split
  · rename_i short hfind
    simp [Part.new, RenameMap.rename, hfind]
  · rename_i hfind
    simp [RenameMap.rename, hfind]

theorem Harmless.sound_nameParts (h : Harmless renames) (name : Text) :
    Sound (nameParts renames name) := by
  unfold nameParts
  split
  · rename_i short hfind
    exact .single ⟨h.tame hfind, h.quiet hfind⟩
  · exact (Loose.keepAll name).toSound

end Name

theorem isBlank_calm {c : Char} (h : isBlank c = true) : Calm c := by
  constructor <;> rintro rfl <;> exact absurd h (by decide)

/-! ## Attribute selectors -/

namespace AttributeSelector

/-- The parts of the value of a selector: the words of a class value and an id are replaced. -/
def valueParts (classes ids : RenameMap) (s : AttributeSelector) : List Part :=
  if s.onClass then
    (wordPieces s.value).flatMap fun p =>
      if p.note then nameParts classes p.text else keepAll p.text
  else nameParts ids s.value

/-- The parts of a piece of a stylesheet: in an exact selector the value is replaced. -/
def pieceParts (classes ids : RenameMap) (p : Piece (Option AttributeSelector)) : List Part :=
  match p.note with
  | some s =>
    if s.isExact then keepAll s.head ++ valueParts classes ids s ++ keepAll s.tail
    else keepAll p.text
  | none => keepAll p.text

/-- The parts of a stylesheet under the renaming of attribute selectors. -/
def parts (classes ids : RenameMap) (css : Text) : List Part :=
  (matcher.pieces css).flatMap (pieceParts classes ids)

variable {classes ids : RenameMap}

theorem oldText_valueParts (s : AttributeSelector) :
    oldText (valueParts classes ids s) = s.value := by
  unfold valueParts
  split
  · rw [oldText_flatMap]
    refine Eq.trans (List.flatMap_congr fun p _ => ?_) (scan_text wordStep () s.value)
    split <;> simp
  · exact oldText_nameParts

theorem newText_valueParts (s : AttributeSelector) :
    newText (valueParts classes ids s) = (s.renamed classes ids).value := by
  unfold valueParts renamed
  split
  · rw [newText_flatMap]
    refine List.flatMap_congr fun p _ => ?_
    split <;> simp
  · exact newText_nameParts

theorem text_renamed (s : AttributeSelector) :
    (s.renamed classes ids).text = s.head ++ (s.renamed classes ids).value ++ s.tail := by
  unfold renamed
  split <;> rfl

/-- The parts make up the stylesheet. -/
theorem oldText_parts (css : Text) : oldText (parts classes ids css) = css := by
  refine Eq.trans ?_ (matcher.pieces_text css)
  rw [parts, oldText_flatMap]
  refine List.flatMap_congr fun p hp => ?_
  unfold pieceParts
  split
  · rename_i s hnote
    split
    · simp [oldText_valueParts, (read?_of_mem_pieces hp hnote).1, text]
    · exact oldText_keepAll p.text
  · exact oldText_keepAll p.text

/-- Their new texts make up the renamed stylesheet. -/
theorem newText_parts (css : Text) :
    newText (parts classes ids css) = renameAll classes ids css := by
  rw [parts, newText_flatMap]
  refine List.flatMap_congr fun p _ => ?_
  unfold pieceParts
  split
  · rename_i s hnote
    rw [hnote]
    split
    · rename_i hexact
      simp [hexact, newText_valueParts, text_renamed]
    · rename_i hexact
      simp [hexact]
  · rename_i hnote
    simp [hnote]

/-! ### Selectors can be replaced everywhere -/

theorem quotes_of_readValue? {t opening value closing after : Text}
    (h : readValue? t = some (opening, value, closing, after)) :
    closing = opening ∧ ∀ c ∈ opening, c = '"' ∨ c = '\'' := by
  cases t with
  | nil => cases h
  | cons c rest =>
    simp only [readValue?] at h
    split at h
    · rename_i hquote
      split at h
      · cases h
        simpa using hquote
      · cases h
    · split at h
      · cases h
      · cases h
        simp

/-- Behind the value and its quote stands a blank or the bracket. -/
theorem first_of_readEnd? {t ending : Text} {ignoresCase : Bool}
    (h : readEnd? t = some (ending, ignoresCase)) : ∃ c after, ending = c :: after ∧ Calm c := by
  have hblanks : ∀ c ∈ (spanBlanks t).1, isBlank c = true := fun c => List.mem_takeWhile_imp
  unfold readEnd? at h
  simp only at h
  generalize (spanBlanks t).1 = blanks at h hblanks
  split at h
  · cases h
    cases blanks with
    | nil => exact ⟨']', [], rfl, by decide, by decide⟩
    | cons c more => exact ⟨c, _, rfl, isBlank_calm (hblanks c List.mem_cons_self)⟩
  · split at h
    · rename_i hflag
      split at h
      · cases h
        cases blanks with
        | nil => simp at hflag
        | cons c more => exact ⟨c, _, rfl, isBlank_calm (hblanks c List.mem_cons_self)⟩
      · cases h
    · cases h
  · cases h

/-- No comment begins or ends beside the value of a selector. -/
theorem edges_of_read? {t : Text} {s : AttributeSelector} (h : read? t = some s) :
    (s.head ≠ [] ∧ ∀ c ∈ s.head.getLast?, Calm c) ∧ s.tail ≠ [] ∧ ∀ c ∈ s.tail.head?, Calm c := by
  have hblanks : ∀ t : Text, ∀ c ∈ (spanBlanks t).1, Calm c := fun t c hc =>
    isBlank_calm (List.mem_takeWhile_imp hc)
  have hquote : ∀ c, c = '"' ∨ c = '\'' → Calm c := by
    rintro c (rfl | rfl) <;> exact ⟨by decide, by decide⟩
  unfold read? at h
  simp only at h
  split at h
  · cases h
  · split at h
    · rename_i after _
      split at h
      · cases h
      · rename_i opening value closing _ hvalue
        obtain ⟨⟨ending, ignoresCase⟩, hend, rfl⟩ := Option.map_eq_some_iff.mp h
        obtain ⟨rfl, hopening⟩ := quotes_of_readValue? hvalue
        obtain ⟨d, more, rfl, hd⟩ := first_of_readEnd? hend
        refine ⟨⟨by simp, fun c hc => ?_⟩, by simp, fun c hc => ?_⟩
        · -- the last character is the equals sign, a blank behind it or the quote
          have hlast : c ∈ '=' :: (spanBlanks after).1 ++ closing := by
            refine List.mem_of_mem_getLast? ?_
            rwa [List.append_assoc, List.getLast?_append_of_ne_nil _ (by simp)] at hc
          rw [List.cons_append, List.mem_cons, List.mem_append] at hlast
          rcases hlast with rfl | hblank | hclosing
          · exact ⟨by decide, by decide⟩
          · exact hblanks _ c hblank
          · exact hquote c (hopening c hclosing)
        · cases closing with
          | nil =>
            cases hc
            exact hd
          | cons q closing =>
            cases hc
            exact hquote c (hopening c List.mem_cons_self)
    · cases h

/-- The parts of a class value can be replaced: blanks divide the words. -/
theorem sound_words (h : Harmless classes) (value : Text) :
    Sound ((wordPieces value).flatMap fun p =>
      if p.note then nameParts classes p.text else keepAll p.text) := by
  unfold wordPieces
  fun_induction scan wordStep () value with
  | case1 => exact .nil
  | case2 state c rest st ih =>
    rw [List.flatMap_cons]
    refine Sound.append ?_ ih fun p hp q hq => ?_
    · split
      · exact h.sound_nameParts _
      · exact (Loose.keepAll _).toSound
    · by_cases hblank : isBlank c = true
      · -- a blank stands at the end of the piece
        simp only [st, wordStep, if_pos hblank] at hp
        refine .of_last (calm_last_keepAll (fun d hd => isBlank_calm ?_) p hp)
        rcases List.mem_cons.mp (List.mem_of_mem_getLast? hd) with rfl | hd
        · exact hblank
        · rw [← List.prefix_iff_eq_take.mp (List.takeWhile_prefix isBlank)] at hd
          exact List.mem_takeWhile_imp hd
      · -- a blank stands behind the word
        simp only [st, wordStep, if_neg hblank, drop_length_takeWhile] at hq
        cases hafter : rest.dropWhile fun d => !isBlank d with
        | nil =>
          rw [hafter, scan_nil] at hq
          cases hq
        | cons d after =>
          have hd : isBlank d = true := by
            have hstop := not_head_dropWhile (t := rest) d (by rw [hafter]; rfl)
            simpa using hstop
          rw [hafter, scan_cons, List.flatMap_cons] at hq
          simp only [wordStep, if_pos hd] at hq
          cases hq
          exact .of_first (by simpa [Part.old] using isBlank_calm hd)

theorem loose_pieceParts (hclasses : Harmless classes) (hids : Harmless ids) {css : Text}
    {p : Piece (Option AttributeSelector)} (hp : p ∈ matcher.pieces css) :
    Loose (pieceParts classes ids p) := by
  unfold pieceParts
  split
  · rename_i s hnote
    split
    · obtain ⟨-, t, hread⟩ := read?_of_mem_pieces hp hnote
      obtain ⟨⟨hhead, hlast⟩, htail, hfirst⟩ := edges_of_read? hread
      have hvalue : Sound (valueParts classes ids s) := by
        unfold valueParts
        split
        · exact sound_words hclasses s.value
        · exact hids.sound_nameParts s.value
      refine .enclose (.keepAll _) (.keepAll _) hvalue ?_ ?_ ?_ ?_
      · simpa [keepAll] using hhead
      · simpa [keepAll] using htail
      · exact calm_last_keepAll hlast
      · exact calm_first_keepAll hfirst
    · exact .keepAll p.text
  · exact .keepAll p.text

/-- **The tokens of a stylesheet with its attribute selectors renamed.** -/
theorem tokens_renameAll (hclasses : Harmless classes) (hids : Harmless ids) {css : Text}
    (hclosed : ClosedBeforeLast (tokens css)) :
    (rows (parts classes ids css)).map Row.before = tokens css ∧
      tokens (renameAll classes ids css) = (rows (parts classes ids css)).map Row.after ∧
      ClosedBeforeLast (tokens (renameAll classes ids css)) := by
  have hsound : Sound (parts classes ids css) :=
    (Loose.flatMap fun _ hp => loose_pieceParts hclasses hids hp).toSound
  have htokens := hsound.tokens_newText
  rw [oldText_parts, newText_parts] at htokens
  exact htokens hclosed

end AttributeSelector

/-! ## References to ids -/

namespace UrlFragment

/-- The parts of a reference to a renamed id. The opening and the closing bracket are written out
without blanks. -/
def fragmentParts (text : Text) (f : UrlFragment) (short : Text) : List Part :=
  let opening := text.takeWhile fun c => !(c == '#' || c == '\'' || c == '"')
  let closing := text.drop (opening ++ f.quote ++ '#' :: f.name ++ f.quote).length
  ([.replace opening "url(".toList] ++ keepAll (f.quote ++ ['#'])) ++ [.replace f.name short] ++
    (keepAll f.quote ++ [.replace closing [')']])

/-- The parts of a piece of a stylesheet: references to renamed ids are replaced. -/
def pieceParts (ids : RenameMap) (p : Piece (Option UrlFragment)) : List Part :=
  match p.note with
  | some f =>
    match ids.find? f.name with
    | some short => fragmentParts p.text f short
    | none => keepAll p.text
  | none => keepAll p.text

/-- The parts of a stylesheet under the renaming of references. -/
def parts (ids : RenameMap) (css : Text) : List Part :=
  (matcher.pieces css).flatMap (pieceParts ids)

/-- A text in which no string, comment, escape or fragment begins or ends. -/
structure Bare (t : Text) : Prop where
  nonempty : t ≠ []
  bare : ∀ c ∈ t, c ∉ ['\\', '"', '\'', '#', '/', '*']

namespace Bare

variable {t : Text}

theorem calm (h : Bare t) : ∀ c ∈ t, Calm c := by
  intro c hc
  constructor <;> rintro rfl <;> exact h.bare _ hc (by decide)

theorem tame (h : Bare t) : Tame t := by
  refine .of_calm h.nonempty (fun c hc => ?_) h.calm
  have hbare := h.bare c hc
  simp only [List.mem_cons, List.not_mem_nil, or_false, not_or] at hbare
  exact ⟨hbare.1, hbare.2.1, hbare.2.2.1⟩

theorem loose (h : Bare t) {new : Text} (hnew : Quiet new) : Loose [.replace t new] := by
  refine .single ⟨h.tame, hnew⟩ (.inr ⟨fun c hc => ?_, fun c hc => ?_⟩)
  · exact h.calm c (List.mem_of_mem_head? hc)
  · exact h.calm c (List.mem_of_mem_getLast? hc)

end Bare

/-- The letters of `url(` in any case, and blanks, are bare. -/
theorem not_mem_of_spelling {spelled : Text} (h : Spelling "url(".toList spelled) :
    ∀ c ∈ spelled, c ∉ ['\\', '"', '\'', '#', '/', '*'] := by
  intro c hc hmem
  obtain ⟨letter, hletter, hmatch⟩ := h.exists_letter c hc
  have hnone : "url(".toList.all (fun letter => ['\\', '"', '\'', '#', '/', '*'].all fun c =>
      !matchesLetter letter c) = true := by decide
  have hfalse := List.all_eq_true.mp (List.all_eq_true.mp hnone letter hletter) c hmem
  rw [hmatch] at hfalse
  cases hfalse

theorem not_mem_of_blank {c : Char} (h : isBlank c = true) :
    c ∉ ['\\', '"', '\'', '#', '/', '*'] := by
  intro hc
  simp only [List.mem_cons, List.not_mem_nil, or_false] at hc
  rcases hc with rfl | rfl | rfl | rfl | rfl | rfl <;> exact absurd h (by decide)

variable {ids : RenameMap}

/-- The parts of a reference that was found, in terms of how it is written. -/
theorem exists_fragmentParts {css : Text} {p : Piece (Option UrlFragment)} {f : UrlFragment}
    (hp : p ∈ matcher.pieces css) (hnote : p.note = some f) (short : Text) :
    ∃ opening closing, Bare opening ∧ Bare closing ∧ (∀ q ∈ f.quote, q = '\'' ∨ q = '"') ∧
      p.text = opening ++ f.quote ++ '#' :: f.name ++ f.quote ++ closing ∧
      fragmentParts p.text f short =
        ([.replace opening "url(".toList] ++ keepAll (f.quote ++ ['#'])) ++
          [.replace f.name short] ++ (keepAll f.quote ++ [.replace closing [')']]) := by
  obtain ⟨spelled, blanks, more, hspelling, hblanks, hmore, hquote, htext⟩ :=
    exists_of_mem_pieces hp hnote
  have hopening : Bare (spelled ++ blanks) := by
    refine ⟨fun hnil => ?_, List.forall_mem_append.mpr
      ⟨not_mem_of_spelling hspelling, fun c hc => not_mem_of_blank (hblanks c hc)⟩⟩
    rw [(List.append_eq_nil_iff.mp hnil).1] at hspelling
    cases hspelling.length_eq
  have hclosing : Bare (more ++ [')']) :=
    ⟨by simp, List.forall_mem_append.mpr ⟨fun c hc => not_mem_of_blank (hmore c hc), by simp⟩⟩
  refine ⟨spelled ++ blanks, more ++ [')'], hopening, hclosing, hquote, by simp [htext], ?_⟩
  have hfirst : ∀ c ∈ (f.quote ++ '#' :: f.name ++ f.quote ++ (more ++ [')'])).head?,
      (!(c == '#' || c == '\'' || c == '"')) = false := by
    intro c hc
    cases hf : f.quote with
    | nil =>
      rw [hf] at hc
      cases hc
      rfl
    | cons q rest =>
      rw [hf] at hc
      cases hc
      rcases hquote c (by rw [hf]; exact List.mem_cons_self) with rfl | rfl <;> rfl
  have htake : p.text.takeWhile (fun c => !(c == '#' || c == '\'' || c == '"')) =
      spelled ++ blanks := by
    have hwhole : p.text =
        (spelled ++ blanks) ++ (f.quote ++ '#' :: f.name ++ f.quote ++ (more ++ [')'])) := by
      simp [htext]
    rw [hwhole, takeWhile_append_of_stop hfirst, List.takeWhile_eq_self_iff]
    intro c hc
    have hbare := hopening.bare c hc
    simp only [List.mem_cons, List.not_mem_nil, or_false, not_or] at hbare
    simp [hbare]
  have hdrop : p.text.drop (spelled ++ blanks ++ f.quote ++ '#' :: f.name ++ f.quote).length =
      more ++ [')'] := by
    rw [htext, List.append_assoc _ more, List.drop_left]
  simp only [fragmentParts, htake, hdrop]

theorem oldText_parts (css : Text) : oldText (parts ids css) = css := by
  refine Eq.trans ?_ (matcher.pieces_text css)
  rw [parts, oldText_flatMap]
  refine List.flatMap_congr fun p hp => ?_
  unfold pieceParts
  split
  · rename_i f hnote
    split
    · rename_i short _
      obtain ⟨opening, closing, -, -, -, htext, hparts⟩ := exists_fragmentParts hp hnote short
      rw [hparts, htext]
      simp [Part.old]
    · exact oldText_keepAll p.text
  · exact oldText_keepAll p.text

theorem newText_parts (css : Text) : newText (parts ids css) = renameAll ids css := by
  rw [parts, newText_flatMap]
  refine List.flatMap_congr fun p hp => ?_
  unfold pieceParts
  split
  · rename_i f hnote
    rw [hnote]
    split
    · rename_i short hfind
      obtain ⟨opening, closing, -, -, -, -, hparts⟩ := exists_fragmentParts hp hnote short
      rw [hparts, Option.bind_some, hfind]
      change _ = "url(".toList ++ f.quote ++ '#' :: short ++ f.quote ++ [')']
      generalize "url(".toList = word
      simp [Part.new]
    · rename_i hfind
      simp [hfind]
  · rename_i hnote
    simp [hnote]

theorem loose_pieceParts (hids : Harmless ids) {css : Text} {p : Piece (Option UrlFragment)}
    (hp : p ∈ matcher.pieces css) : Loose (pieceParts ids p) := by
  unfold pieceParts
  split
  · rename_i f hnote
    split
    · rename_i short hfind
      obtain ⟨opening, closing, hopening, hclosing, hquote, -, hparts⟩ :=
        exists_fragmentParts hp hnote short
      rw [hparts]
      have hfront : Loose ([.replace opening "url(".toList] ++ keepAll (f.quote ++ ['#'])) :=
        (hopening.loose (.of_all (by decide) (by decide))).append (.keepAll _)
      have hback : Loose (keepAll f.quote ++ [.replace closing [')']]) :=
        (Loose.keepAll f.quote).append (hclosing.loose (.of_all (by decide) (by decide)))
      refine .enclose hfront hback (.single ⟨hids.tame hfind, hids.quiet hfind⟩) ?_ ?_ ?_ ?_
      · exact List.cons_ne_nil _ _
      · simp
      · rw [List.getLast?_append_of_ne_nil _ (by simp [keepAll])]
        refine calm_last_keepAll fun c hc => ?_
        rw [List.getLast?_concat] at hc
        cases hc
        exact ⟨by decide, by decide⟩
      · cases hf : f.quote with
        | nil =>
          rintro q ⟨⟩ c hc
          exact hclosing.calm c (List.mem_of_mem_head? hc)
        | cons q rest =>
          rintro p ⟨⟩ c ⟨⟩
          rcases hquote q (by rw [hf]; exact List.mem_cons_self) with rfl | rfl <;>
            exact ⟨by decide, by decide⟩
    · exact .keepAll p.text
  · exact .keepAll p.text

/-- **The tokens of a stylesheet with its references renamed.** -/
theorem tokens_renameAll (hids : Harmless ids) {css : Text}
    (hclosed : ClosedBeforeLast (tokens css)) :
    (rows (parts ids css)).map Row.before = tokens css ∧
      tokens (renameAll ids css) = (rows (parts ids css)).map Row.after ∧
      ClosedBeforeLast (tokens (renameAll ids css)) := by
  have hsound : Sound (parts ids css) :=
    (Loose.flatMap fun _ hp => loose_pieceParts hids hp).toSound
  have htokens := hsound.tokens_newText
  rw [oldText_parts, newText_parts] at htokens
  exact htokens hclosed

end UrlFragment

/-! ## The renamed stylesheet -/

section Rename

variable (classes ids properties : RenameMap) (css : Text)

/-- The tokens of a stylesheet with its code renamed, and what the renaming of attribute selectors
makes of them. -/
def selectorRows : List Row :=
  rows (AttributeSelector.parts classes ids (mapCode (renameCode classes ids properties) css))

/-- The tokens that this leads to, and what the renaming of references makes of them. -/
def referenceRows : List Row :=
  rows (UrlFragment.parts ids
    (AttributeSelector.renameAll classes ids (mapCode (renameCode classes ids properties) css)))

end Rename

theorem ClosedBeforeLast.codeMapped {f : Text → Text} {ts : List (Token Kind)}
    (h : ClosedBeforeLast ts) : ClosedBeforeLast (codeMapped f ts) := by
  intro t ht hkind
  rw [Stylesheet.codeMapped, ← List.map_dropLast] at ht
  obtain ⟨u, hu, rfl⟩ := List.mem_map.mp ht
  by_cases hcode : u.kind = .code
  · rw [if_pos hcode] at hkind
    cases hkind
  · rw [if_neg hcode] at hkind ⊢
    exact h u hu hkind

/-- **A string or a comment stays unless one of the two renamings finds a name in it.** The renamed
stylesheet has the tokens of the old one, with the code renamed and the parts replaced that the
renamings of attribute selectors and of references find, wherever they stand. -/
theorem rename_tokens {classes ids properties : RenameMap} (hclasses : Harmless classes)
    (hids : Harmless ids) (hproperties : QuietShorts properties) {css : Text}
    (hclosed : ClosedBeforeLast (tokens css)) :
    (selectorRows classes ids properties css).map Row.before =
        codeMapped (renameCode classes ids properties) (tokens css) ∧
      (referenceRows classes ids properties css).map Row.before =
        (selectorRows classes ids properties css).map Row.after ∧
      tokens (rename classes ids properties css) =
        (referenceRows classes ids properties css).map Row.after ∧
      ∀ (i : Nat) (token : Token Kind), (tokens css)[i]? = some token → token.kind ≠ .code →
        (∀ r ∈ (selectorRows classes ids properties css)[i]?, Row.Kept r) →
        (∀ r ∈ (referenceRows classes ids properties css)[i]?, Row.Kept r) →
        (tokens (rename classes ids properties css))[i]? = some token := by
  have hcode := tokens_renameCode classes ids hproperties css
  obtain ⟨hbefore, hafter, hclosed'⟩ := AttributeSelector.tokens_renameAll hclasses hids
    (hcode ▸ hclosed.codeMapped)
  obtain ⟨hbefore', hafter', -⟩ := UrlFragment.tokens_renameAll hids hclosed'
  refine ⟨hbefore.trans hcode, hbefore'.trans hafter, hafter', ?_⟩
  intro i token htoken hkind hkept hkept'
  have hmapped :
      (codeMapped (renameCode classes ids properties) (tokens css))[i]? = some token := by
    rw [codeMapped, List.getElem?_map, htoken, Option.map_some, if_neg hkind]
  rw [← hcode, ← hbefore] at hmapped
  have hmiddle := Row.getElem?_after hmapped hkept
  rw [← hafter, ← hbefore'] at hmiddle
  exact hafter' ▸ Row.getElem?_after hmiddle hkept'

/-- A class and an id that stand in a comment and in a string, but not in a selector, stay there. -/
theorem rename_tokens_card :
    Harmless ⟨[("card".toList, "a".toList)]⟩ ∧ Harmless ⟨[("main".toList, "b".toList)]⟩ ∧
      QuietShorts ⟨[("--gap".toList, "--c".toList)]⟩ ∧
      rename ⟨[("card".toList, "a".toList)]⟩ ⟨[("main".toList, "b".toList)]⟩
          ⟨[("--gap".toList, "--c".toList)]⟩
          "/* .card */.card[class~=card]\x7bcontent:\".card #main\";gap:var(--gap)\x7d".toList =
        "/* .card */.a[class~=a]\x7bcontent:\".card #main\";gap:var(--c)\x7d".toList ∧
      (tokens (rename ⟨[("card".toList, "a".toList)]⟩ ⟨[("main".toList, "b".toList)]⟩
          ⟨[("--gap".toList, "--c".toList)]⟩
          "/* .card */.card[class~=card]\x7bcontent:\".card #main\";gap:var(--gap)\x7d".toList))[2]? =
        some ⟨.string, "\".card #main\"".toList⟩ := by
  have hclasses : Harmless ⟨[("card".toList, "a".toList)]⟩ := .of_quiet <|
    List.forall_mem_singleton.mpr
      ⟨.of_all (by decide) (by decide), .of_all (by decide) (by decide)⟩
  have hids : Harmless ⟨[("main".toList, "b".toList)]⟩ := .of_quiet <|
    List.forall_mem_singleton.mpr
      ⟨.of_all (by decide) (by decide), .of_all (by decide) (by decide)⟩
  have hproperties : Harmless ⟨[("--gap".toList, "--c".toList)]⟩ := .of_quiet <|
    List.forall_mem_singleton.mpr
      ⟨.of_all (by decide) (by decide), .of_all (by decide) (by decide)⟩
  have htokens : tokens
      "/* .card */.card[class~=card]\x7bcontent:\".card #main\";gap:var(--gap)\x7d".toList =
        [⟨.comment, "/* .card */".toList⟩, ⟨.code, ".card[class~=card]\x7bcontent:".toList⟩,
          ⟨.string, '"' :: (".card #main".toList ++ ['"'])⟩,
          ⟨.code, ";gap:var(--gap)\x7d".toList⟩] := by
    decide +kernel
  have hclosed : ClosedBeforeLast (tokens
      "/* .card */.card[class~=card]\x7bcontent:\".card #main\";gap:var(--gap)\x7d".toList) := by
    rw [htokens]
    intro t ht hkind
    simp only [List.dropLast_cons_cons, List.dropLast_singleton, List.mem_cons, List.not_mem_nil,
      or_false] at ht
    rcases ht with rfl | rfl | rfl
    · cases hkind
    · cases hkind
    · exact .string (.inl rfl) (.closing (by decide))
  refine ⟨hclasses, hids, hproperties.quiet, by decide +kernel, ?_⟩
  exact (rename_tokens hclasses hids hproperties.quiet hclosed).2.2.2 2 _
    (by rw [htokens]; rfl) nofun (by decide +kernel) (by decide +kernel)

/-- A selector that is only quoted, in a string or in a comment, is renamed like any other. -/
theorem quoted_selector_renamed :
    tokens "/* [class=\"card\"] */a:after\x7bcontent:\"[id=main]\"\x7d".toList =
        [⟨.comment, "/* [class=\"card\"] */".toList⟩, ⟨.code, "a:after\x7bcontent:".toList⟩,
          ⟨.string, "\"[id=main]\"".toList⟩, ⟨.code, "\x7d".toList⟩] ∧
      tokens (rename ⟨[("card".toList, "a".toList)]⟩ ⟨[("main".toList, "b".toList)]⟩ {}
          "/* [class=\"card\"] */a:after\x7bcontent:\"[id=main]\"\x7d".toList) =
        [⟨.comment, "/* [class=\"a\"] */".toList⟩, ⟨.code, "a:after\x7bcontent:".toList⟩,
          ⟨.string, "\"[id=b]\"".toList⟩, ⟨.code, "\x7d".toList⟩] := by
  decide +kernel

-- A string that breaks off at a newline goes on if the newline is dropped: strings have to be closed.
example :
    tokens "\"url(\n#main)\" /* x */".toList =
        [⟨.string, "\"url(".toList⟩, ⟨.code, "\n#main)".toList⟩, ⟨.string, "\" /* x */".toList⟩] ∧
      tokens (UrlFragment.renameAll ⟨[("main".toList, "b".toList)]⟩
          "\"url(\n#main)\" /* x */".toList) =
        [⟨.string, "\"url(#b)\"".toList⟩, ⟨.code, " ".toList⟩, ⟨.comment, "/* x */".toList⟩] := by
  decide +kernel

end WebTrim.Stylesheet
