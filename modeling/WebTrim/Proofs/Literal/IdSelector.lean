import WebTrim.Proofs.Literal.Rename
import WebTrim.Proofs.Literal.Size

/-!
# Attribute selectors on ids and their renamed forms

A text with its selectors renamed holds the same selectors, under the new names. A renamed selector
is shorter and has lost its blanks, so a place before it may be read differently, but never so that a
selector begins or ends there which did not before.

* `ValueForm`, `Form` — how a selector is written.
* `read?_of_form`, `exists_form_of_read?` — **these are the selectors that are read**.
* `selectorInduction` — a text is a row of characters that are passed and of selectors.
* `Agree` — where two texts differ, both have an opening bracket, and behind it a value stops alike.
  `Agree.isSome_read?`: a selector begins in both or in neither; `agree_renameAll` says so of a text
  and its renamed form.
* `findAll_renameAll` — **the selectors of the renamed text are the renamed selectors**.
-/

set_option autoImplicit false

namespace WebTrim.Literal.IdSelector

open Text

/-! ## How selectors are written -/

/-- How the value of a selector and its closing bracket are written. A name without quotes does not
begin with a blank, unless it is nothing else. -/
inductive ValueForm : IdSelector → Text → Prop
  | quoted {lead name : Text} {q : Char} (hlead : ∀ c ∈ lead, isBlank c = true)
      (hq : q = '\'' ∨ q = '"') (hne : name ≠ []) (hname : ∀ c ∈ name, isIdValueChar c = true) :
      ValueForm ⟨[q], name⟩ (lead ++ q :: (name ++ [q, ']']))
  | bare {lead name : Text} (hlead : ∀ c ∈ lead, isBlank c = true) (hne : name ≠ [])
      (hname : ∀ c ∈ name, isIdValueChar c = true)
      (hfirst : (∀ c ∈ name.head?, isBlank c = false) ∨ name.length = 1) :
      ValueForm ⟨[], name⟩ (lead ++ (name ++ [']']))

/-- How a selector is written behind its opening bracket. -/
inductive Form (s : IdSelector) : Text → Prop
  | mk {word gap value : Text} (hword : Spelling "id".toList word)
      (hgap : ∀ c ∈ gap, isBlank c = true) (hvalue : ValueForm s value) :
      Form s (word ++ (gap ++ '=' :: value))

theorem isIdValueChar_eq_false_iff {c : Char} :
    isIdValueChar c = false ↔ c = '\'' ∨ c = '"' ∨ c = ']' := by
  simp only [isIdValueChar, Bool.not_eq_false', Bool.or_eq_true, beq_iff_eq, or_assoc]

theorem isIdValueChar_of_isBlank {c : Char} (h : isBlank c = true) : isIdValueChar c = true := by
  rw [← Bool.not_eq_false, isIdValueChar_eq_false_iff]
  rintro (rfl | rfl | rfl) <;> exact absurd h (by decide)

theorem isIdValueChar_of_isIdentChar {c : Char} (h : Stylesheet.isIdentChar c = true) :
    isIdValueChar c = true := by
  rw [← Bool.not_eq_false, isIdValueChar_eq_false_iff]
  rintro (rfl | rfl | rfl) <;> exact absurd h (by decide)

theorem isBlank_quote {q : Char} (h : q = '\'' ∨ q = '"') : isBlank q = false := by
  rcases h with rfl | rfl <;> decide

theorem isIdValueChar_quote {q : Char} (h : q = '\'' ∨ q = '"') : isIdValueChar q = false :=
  isIdValueChar_eq_false_iff.mpr (h.imp_right .inl)

/-- A quoted name is read from the quote on. -/
theorem readName?_quoted {name : Text} {q : Char} (hq : q = '\'' ∨ q = '"') (hne : name ≠ [])
    (hname : ∀ c ∈ name, isIdValueChar c = true) (blanks after : Text) :
    readName? blanks (q :: (name ++ q :: ']' :: after)) = some (⟨[q], name⟩, after) := by
  have hrun : splitWhile isIdValueChar (name ++ q :: ']' :: after) = (name, q :: ']' :: after) :=
    splitWhile_append_of hname fun c hc => by cases hc; exact isIdValueChar_quote hq
  simp [readName?, hq, hrun, hne]

/-- A name without quotes is read from its first character on. -/
theorem readName?_bare {name : Text} (hne : name ≠ []) (hname : ∀ c ∈ name, isIdValueChar c = true)
    (blanks after : Text) :
    readName? blanks (name ++ ']' :: after) = some (⟨[], name⟩, after) := by
  have hrun : splitWhile isIdValueChar (name ++ ']' :: after) = (name, ']' :: after) :=
    splitWhile_append_of hname fun c hc => by cases hc; decide
  obtain ⟨c, rest, rfl⟩ := List.exists_cons_of_ne_nil hne
  have hquote : ¬(c = '\'' ∨ c = '"') := fun hc => by
    have := hname c List.mem_cons_self
    rw [isIdValueChar_quote hc] at this
    cases this
  rw [List.cons_append] at hrun ⊢
  simp [readName?, hquote, hrun]

/-- The last blank before the closing bracket is read as the name. -/
theorem readName?_blank (lead after : Text) (b : Char) :
    readName? (lead ++ [b]) (']' :: after) = some (⟨[], [b]⟩, after) := by
  have hrun : splitWhile isIdValueChar (']' :: after) = ([], ']' :: after) :=
    splitWhile_append_of (s := []) (by simp) fun c hc => by cases hc; decide
  simp [readName?, hrun]

theorem readName?_of_form {s : IdSelector} {value : Text} (h : ValueForm s value) (after : Text) :
    readName? (splitWhile isBlank (value ++ after)).1 (splitWhile isBlank (value ++ after)).2 =
      some (s, after) := by
  cases h with
  | @quoted lead name q hlead hq hne hname =>
    have hsplit : splitWhile isBlank (lead ++ q :: (name ++ q :: ']' :: after)) =
        (lead, q :: (name ++ q :: ']' :: after)) :=
      splitWhile_append_of hlead fun c hc => by cases hc; exact isBlank_quote hq
    simp only [List.append_assoc, List.cons_append, List.nil_append]
    rw [hsplit]
    exact readName?_quoted hq hne hname _ after
  | @bare lead name hlead hne hname hfirst =>
    simp only [List.append_assoc, List.cons_append, List.nil_append]
    by_cases hhead : ∀ c ∈ name.head?, isBlank c = false
    · have hstop : ∀ c ∈ (name ++ ']' :: after).head?, isBlank c = false := by
        obtain ⟨d, rest, rfl⟩ := List.exists_cons_of_ne_nil hne
        exact hhead
      rw [splitWhile_append_of hlead hstop]
      exact readName?_bare hne hname _ after
    · -- the name is a blank, and read as one of those before it
      obtain ⟨b, rfl⟩ := List.length_eq_one_iff.mp (hfirst.resolve_left hhead)
      have hblank : ∀ c ∈ lead ++ [b], isBlank c = true := by
        simpa [or_imp, forall_and] using And.intro hlead (by simpa using hhead)
      have hsplit : splitWhile isBlank (lead ++ [b] ++ ']' :: after) = (lead ++ [b], ']' :: after) :=
        splitWhile_append_of hblank fun c hc => by cases hc; decide
      rw [List.append_assoc, List.singleton_append] at hsplit
      rw [List.singleton_append, hsplit]
      exact readName?_blank lead after b

theorem exists_form_of_readName? {u after : Text} {s : IdSelector}
    (h : readName? (splitWhile isBlank u).1 (splitWhile isBlank u).2 = some (s, after)) :
    ∃ value, ValueForm s value ∧ u = value ++ after := by
  have hlead : ∀ c ∈ (splitWhile isBlank u).1, isBlank c = true := fun c hc =>
    List.mem_takeWhile_imp hc
  have hstop : ∀ c ∈ (splitWhile isBlank u).2.head?, isBlank c = false := not_head_dropWhile
  have hu := splitWhile_append isBlank u
  generalize (splitWhile isBlank u).1 = lead at *
  generalize (splitWhile isBlank u).2 = t at *
  subst hu
  cases t with
  | nil => cases h
  | cons c rest =>
    have hchars : ∀ {t name more : Text} {d : Char},
        splitWhile isIdValueChar t = (name, d :: more) → ∀ e ∈ name, isIdValueChar e = true := by
      intro t name more d hsplit e he
      rw [splitWhile, Prod.mk.injEq] at hsplit
      exact List.mem_takeWhile_imp (hsplit.1 ▸ he)
    simp only [readName?] at h
    split at h
    · rename_i hq
      split at h
      · rename_i name d more hsplit
        split at h
        · rename_i hclosing
          cases h
          obtain ⟨rfl, hne⟩ := hclosing
          refine ⟨_, .quoted hlead hq (by simpa using hne) (hchars hsplit), ?_⟩
          simp [(splitWhile_eq_cons hsplit).1]
        · cases h
      · cases h
    · split at h
      · rename_i name more hsplit
        obtain ⟨hrest, -⟩ := splitWhile_eq_cons hsplit
        split at h
        · rename_i hne
          cases h
          have hne : name ≠ [] := by simpa using hne
          refine ⟨_, .bare hlead hne (hchars hsplit) (.inl fun d hd => hstop d ?_), ?_⟩
          · obtain ⟨e, front, rfl⟩ := List.exists_cons_of_ne_nil hne
            rw [hrest]
            exact hd
          · simp [hrest]
        · rename_i hempty
          obtain ⟨b, hlast, heq⟩ := Option.map_eq_some_iff.mp h
          cases heq
          obtain ⟨front, rfl⟩ := List.getLast?_eq_some_iff.mp hlast
          have hname : name = [] := by simpa using hempty
          have hb : ∀ e ∈ [b], isIdValueChar e = true := fun e he =>
            isIdValueChar_of_isBlank (hlead e (List.mem_append_right _ he))
          refine ⟨_, .bare (fun e he => hlead e (List.mem_append_left _ he)) (by simp) hb
            (.inr rfl), ?_⟩
          simp [hrest, hname]
      · cases h

theorem read?_of_form {s : IdSelector} {body : Text} (h : Form s body) (after : Text) :
    read? (body ++ after) = some (s, after) := by
  cases h with
  | @mk word gap value hword hgap hvalue =>
    have hdrop : dropWord? "id".toList (word ++ (gap ++ '=' :: value) ++ after) =
        some (gap ++ '=' :: (value ++ after)) :=
      dropWord?_eq_some_iff.mpr ⟨word, hword, by simp⟩
    have hgap : splitWhile isBlank (gap ++ '=' :: (value ++ after)) =
        (gap, '=' :: (value ++ after)) :=
      splitWhile_append_of hgap fun c hc => by cases hc; decide
    have hequals : (gap ++ '=' :: (value ++ after)).dropWhile isBlank = '=' :: (value ++ after) :=
      congrArg Prod.snd hgap
    simp only [read?, hdrop, hequals]
    exact readName?_of_form hvalue after

theorem exists_form_of_read? {t after : Text} {s : IdSelector} (h : read? t = some (s, after)) :
    ∃ body, Form s body ∧ t = body ++ after := by
  unfold read? at h
  split at h
  · cases h
  · rename_i t₁ hdrop
    obtain ⟨word, hword, rfl⟩ := dropWord?_eq_some_iff.mp hdrop
    split at h
    · rename_i t₂ hequals
      obtain ⟨value, hvalue, rfl⟩ := exists_form_of_readName? h
      have hgap : ∀ c ∈ t₁.takeWhile isBlank, isBlank c = true := fun c hc =>
        List.mem_takeWhile_imp hc
      refine ⟨_, .mk hword hgap hvalue, ?_⟩
      have hblanks : t₁.takeWhile isBlank ++ t₁.dropWhile isBlank = t₁ :=
        List.takeWhile_append_dropWhile
      rw [hequals] at hblanks
      simp only [List.append_assoc, List.cons_append, hblanks]
    · cases h

/-! ## Finding selectors -/

section Find

variable {c : Char} {s : IdSelector} {rest body : Text}

theorem matcher_pass (h : c = '[' → read? rest = none) (before : Option Char) :
    matcher before c rest = (0, none) := by
  by_cases hc : c = '['
  · simp [matcher, Matcher.ofPattern, hc, h hc]
  · simp [matcher, Matcher.ofPattern, hc]

theorem matcher_of_form (h : Form s body) (before : Option Char) (after : Text) :
    matcher before '[' (body ++ after) = (body.length, some s) := by
  simp [matcher, Matcher.ofPattern, read?_of_form h]

/-- What is read at a place does not depend on the text before it. -/
theorem scan_eq_pieces (before : Option Char) (t : Text) :
    scan matcher.step before t = matcher.pieces t := by
  have hsame : ∀ c rest, matcher before c rest = matcher none c rest := fun c rest => rfl
  exact Matcher.scan_of_same hsame t

theorem pieces_pass (h : c = '[' → read? rest = none) :
    matcher.pieces (c :: rest) = ⟨[c], none⟩ :: matcher.pieces rest := by
  rw [Matcher.pieces, scan_cons, scan_eq_pieces]
  simp [Matcher.step, matcher_pass h]

theorem pieces_selector (h : Form s body) (after : Text) :
    matcher.pieces ('[' :: (body ++ after)) = ⟨'[' :: body, some s⟩ :: matcher.pieces after := by
  rw [Matcher.pieces, scan_cons, scan_eq_pieces]
  simp [Matcher.step, matcher_of_form h]

/-- A text begins with a character that is passed or with a selector, and so does the rest. -/
theorem selectorInduction {P : Text → Prop} (nil : P [])
    (pass : ∀ c rest, (c = '[' → read? rest = none) → P rest → P (c :: rest))
    (selector : ∀ s body after, Form s body → P after → P ('[' :: (body ++ after))) (t : Text) :
    P t := by
  induction hlength : t.length using Nat.strong_induction_on generalizing t with
  | _ n ih =>
    subst hlength
    cases t with
    | nil => exact nil
    | cons c rest =>
      by_cases hpass : c = '[' → read? rest = none
      · exact pass c rest hpass (ih _ (by simp) rest rfl)
      · obtain ⟨rfl, hsome⟩ := Classical.not_imp.mp hpass
        obtain ⟨⟨s, after⟩, hread⟩ := Option.ne_none_iff_exists'.mp hsome
        obtain ⟨body, hform, rfl⟩ := exists_form_of_read? hread
        refine selector s body after hform (ih _ ?_ after rfl)
        rw [List.length_cons, List.length_append]
        omega

@[simp] theorem findAll_nil : matcher.findAll [] = [] := by
  simp [Matcher.findAll, Matcher.pieces]

theorem findAll_pass (h : c = '[' → read? rest = none) :
    matcher.findAll (c :: rest) = matcher.findAll rest := by
  simp [Matcher.findAll, pieces_pass h]

theorem findAll_selector (h : Form s body) (after : Text) :
    matcher.findAll ('[' :: (body ++ after)) = s :: matcher.findAll after := by
  simp [Matcher.findAll, pieces_selector h]

end Find

/-! ## Where a value stops -/

/-- The character at which a value stops, and whether it is a quote before a closing bracket. -/
def stop? (t : Text) : Option (Char × Bool) :=
  match t.dropWhile isIdValueChar with
  | [] => none
  | c :: rest => some (c, c != ']' && rest.head? == some ']')

theorem stop?_cons_of_value {c : Char} (h : isIdValueChar c = true) (t : Text) :
    stop? (c :: t) = stop? t := by
  simp [stop?, h]

theorem stop?_cons_of_stop {c : Char} (h : isIdValueChar c = false) (t : Text) :
    stop? (c :: t) = some (c, c != ']' && t.head? == some ']') := by
  simp [stop?, h]

theorem stop?_append {front : Text} (h : ∀ c ∈ front, isIdValueChar c = true) (t : Text) :
    stop? (front ++ t) = stop? t := by
  rw [stop?, List.dropWhile_append_of_pos h]
  rfl

theorem isIdValueChar_of_spelling {word : Text} (h : Spelling "id".toList word) :
    ∀ c ∈ word, isIdValueChar c = true := by
  intro c hc
  obtain ⟨letter, hletter, hmatch⟩ := h.exists_letter c hc
  rw [← Bool.not_eq_false, isIdValueChar_eq_false_iff]
  have hid : letter = 'i' ∨ letter = 'd' := by simpa using hletter
  rintro (rfl | rfl | rfl) <;> rcases hid with rfl | rfl <;> exact absurd hmatch (by decide)

/-- Behind the opening bracket of a selector a value stops at its first quote, or else at the closing
bracket. -/
theorem Form.stop? {s : IdSelector} {body : Text} (h : Form s body) (after : Text) :
    stop? (body ++ after) = some (s.quote.headD ']', false) := by
  cases h with
  | @mk word gap value hword hgap hvalue =>
    have hblanks : ∀ lead : Text, (∀ c ∈ lead, isBlank c = true) →
        ∀ c ∈ lead, isIdValueChar c = true := fun lead hlead c hc =>
      isIdValueChar_of_isBlank (hlead c hc)
    rw [List.append_assoc, stop?_append (isIdValueChar_of_spelling hword), List.append_assoc,
      stop?_append (hblanks gap hgap), List.cons_append, stop?_cons_of_value (by decide)]
    cases hvalue with
    | @quoted lead name q hlead hq hne hname =>
      obtain ⟨d, name, rfl⟩ := List.exists_cons_of_ne_nil hne
      have hd : d ≠ ']' := by
        rintro rfl
        exact absurd (hname ']' List.mem_cons_self) (by decide)
      rw [List.append_assoc, stop?_append (hblanks lead hlead), List.cons_append,
        stop?_cons_of_stop (isIdValueChar_quote hq)]
      simp [hd]
    | @bare lead name hlead hne hname hfirst =>
      rw [List.append_assoc, stop?_append (hblanks lead hlead), List.append_assoc,
        stop?_append hname, List.cons_append, stop?_cons_of_stop (by decide)]
      rfl

/-- A quoted name is read exactly if it is not empty and its closing quote stands before a closing
bracket. -/
theorem isSome_readName?_quote {c : Char} (hc : c = '\'' ∨ c = '"') (blanks rest : Text) :
    (readName? blanks (c :: rest)).isSome = true ↔
      stop? rest = some (c, true) ∧ ∃ d ∈ rest.head?, isIdValueChar d = true := by
  obtain ⟨name, after, rfl, hname, hafter, -⟩ := exists_run isIdValueChar rest
  have hsplit : splitWhile isIdValueChar (name ++ after) = (name, after) :=
    splitWhile_append_of hname hafter
  have hhead : (∃ d ∈ (name ++ after).head?, isIdValueChar d = true) ↔ name ≠ [] := by
    cases name with
    | nil => simpa using hafter
    | cons d name => simpa using hname d List.mem_cons_self
  rw [stop?_append hname, hhead]
  simp only [readName?, if_pos hc, hsplit]
  cases after with
  | nil => simp [stop?]
  | cons d after =>
    have hbracket : c ≠ ']' := by rcases hc with rfl | rfl <;> decide
    rw [stop?_cons_of_stop (hafter d rfl)]
    cases after with
    | nil => simp
    | cons e after =>
      by_cases he : e = ']'
      · subst he
        by_cases hd : d = c
        · simp [hd, hbracket]
        · simp [hd]
      · simp [he]

/-- A name without quotes is read exactly if a closing bracket stops it, and a character of it or a
blank stands before that. -/
theorem isSome_readName?_bare {c : Char} (hc : ¬(c = '\'' ∨ c = '"')) (blanks rest : Text) :
    (readName? blanks (c :: rest)).isSome = true ↔
      stop? (c :: rest) = some (']', false) ∧ (isIdValueChar c = true ∨ blanks ≠ []) := by
  obtain ⟨name, after, hrun, hname, hafter, -⟩ := exists_run isIdValueChar (c :: rest)
  have hsplit : splitWhile isIdValueChar (c :: rest) = (name, after) := by
    rw [hrun, splitWhile_append_of hname hafter]
  have hfirst : isIdValueChar c = true ↔ name ≠ [] := by
    cases name with
    | nil =>
      obtain rfl : c :: rest = after := hrun
      simpa using hafter c rfl
    | cons d name =>
      obtain rfl : c = d := (List.cons.inj hrun).1
      simpa using hname c List.mem_cons_self
  have hstop : stop? (c :: rest) = stop? after := by rw [hrun, stop?_append hname]
  rw [hfirst, hstop]
  simp only [readName?, if_neg hc, hsplit]
  cases after with
  | nil => simp [stop?]
  | cons d after =>
    rw [stop?_cons_of_stop (hafter d rfl)]
    by_cases hd : d = ']'
    · subst hd
      by_cases hne : name = []
      · simp [hne]
      · simp [hne]
    · simp [hd]

/-! ## Texts in which selectors begin at the same places -/

/-- Where the texts differ, both have an opening bracket, and behind it a value stops alike. -/
inductive Agree : Text → Text → Prop
  | nil : Agree [] []
  | keep (c : Char) {t t' : Text} : Agree t t' → Agree (c :: t) (c :: t')
  | bracket {t t' : Text} : stop? t = stop? t' → Agree ('[' :: t) ('[' :: t')

namespace Agree

variable {t t' : Text}

theorem head?_eq (h : Agree t t') : t.head? = t'.head? := by
  cases h <;> rfl

theorem stop?_eq (h : Agree t t') : stop? t = stop? t' := by
  induction h with
  | nil => rfl
  | keep c h ih =>
    cases hc : isIdValueChar c with
    | true => rw [stop?_cons_of_value hc, stop?_cons_of_value hc, ih]
    | false => rw [stop?_cons_of_stop hc, stop?_cons_of_stop hc, h.head?_eq]
  | bracket h => rw [stop?_cons_of_value (by decide), stop?_cons_of_value (by decide), h]

/-- Blanks begin both texts alike. -/
theorem splitWhile (h : Agree t t') {p : Char → Bool} (hp : p '[' = false) :
    (Text.splitWhile p t).1 = (Text.splitWhile p t').1 ∧
      Agree (Text.splitWhile p t).2 (Text.splitWhile p t').2 := by
  induction h with
  | nil => exact ⟨rfl, .nil⟩
  | keep c h ih =>
    cases hc : p c with
    | true => simpa [Text.splitWhile, hc] using ih
    | false => simpa [Text.splitWhile, hc] using .keep c h
  | bracket h => simpa [Text.splitWhile, hp] using .bracket h

/-- A word that a bracket is no letter of begins both texts or neither. -/
theorem dropWord? (h : Agree t t') {word : Text} (hword : ∀ w ∈ word, matchesLetter w '[' = false) :
    Option.Rel Agree (Text.dropWord? word t) (Text.dropWord? word t') := by
  induction word generalizing t t' with
  | nil => exact .some h
  | cons w word ih =>
    cases h with
    | nil => exact .none
    | keep c h =>
      simp only [Text.dropWord?]
      split
      · exact ih h fun v hv => hword v (List.mem_cons_of_mem _ hv)
      · exact .none
    | bracket h =>
      simp only [Text.dropWord?, hword w List.mem_cons_self]
      exact .none

theorem isSome_readName? (h : Agree t t') (blanks : Text) :
    (readName? blanks t).isSome = (readName? blanks t').isSome := by
  cases h with
  | nil => rfl
  | keep c h =>
    by_cases hc : c = '\'' ∨ c = '"'
    · rw [Bool.eq_iff_iff, isSome_readName?_quote hc, isSome_readName?_quote hc, h.stop?_eq,
        h.head?_eq]
    · rw [Bool.eq_iff_iff, isSome_readName?_bare hc, isSome_readName?_bare hc,
        (h.keep c).stop?_eq]
  | bracket h =>
    have hbracket : ¬('[' = '\'' ∨ '[' = '"') := by decide
    rw [Bool.eq_iff_iff, isSome_readName?_bare hbracket, isSome_readName?_bare hbracket,
      (bracket h).stop?_eq]

/-- A selector is read in both texts or in neither. -/
theorem isSome_read? (h : Agree t t') : (read? t).isSome = (read? t').isSome := by
  have hword : ∀ w ∈ "id".toList, matchesLetter w '[' = false := by
    have hletters : "id".toList.all (fun w => !matchesLetter w '[') = true := by decide
    simpa using hletters
  have hid := h.dropWord? hword
  unfold read?
  generalize Text.dropWord? "id".toList t = o at hid ⊢
  generalize Text.dropWord? "id".toList t' = o' at hid ⊢
  cases hid with
  | none => rfl
  | some hgap =>
    have hequals := (hgap.splitWhile (p := isBlank) (by decide)).2
    simp only [Text.splitWhile] at hequals ⊢
    generalize List.dropWhile isBlank _ = u at hequals ⊢
    generalize List.dropWhile isBlank _ = u' at hequals ⊢
    cases hequals with
    | nil => rfl
    | bracket h => rfl
    | keep c hvalue =>
      by_cases hc : c = '='
      · subst hc
        obtain ⟨hblanks, hname⟩ := hvalue.splitWhile (p := isBlank) (by decide)
        simp only [Text.splitWhile] at hblanks hname
        simp only [hblanks]
        exact hname.isSome_readName? _
      · simp [hc]

end Agree

/-! ## Renaming -/

section Rename

variable {ids : RenameMap} {c : Char} {s : IdSelector} {rest body : Text}

/-- The selector under its new name. -/
def renamed (ids : RenameMap) (s : IdSelector) : IdSelector :=
  { s with name := ids.rename s.name }

@[simp] theorem renameAll_nil : renameAll ids [] = [] := by
  simp [renameAll, Matcher.replaceAll, Matcher.pieces]

theorem renameAll_pass (h : c = '[' → read? rest = none) :
    renameAll ids (c :: rest) = c :: renameAll ids rest := by
  simp [renameAll, Matcher.replaceAll, pieces_pass h]

theorem text_eq (s : IdSelector) :
    s.text = '[' :: ("id".toList ++ ([] ++ '=' :: (s.quote ++ (s.name ++ (s.quote ++ [']']))))) := by
  show "[id=".toList ++ s.quote ++ s.name ++ s.quote ++ [']'] = _
  have hopen : "[id=".toList = '[' :: ("id".toList ++ ['=']) := by decide
  rw [hopen]
  simp only [List.cons_append, List.append_assoc, List.nil_append]

/-- A selector under a name of letters is written out in a form that is read again. -/
theorem form_of_letters {short : Text} (hform : Form s body) (hne : short ≠ [])
    (hletters : ∀ c ∈ short, isAsciiLetter c = true) :
    ∃ body', { s with name := short }.text = '[' :: body' ∧ Form { s with name := short } body' := by
  have hvalue : ∀ c ∈ short, isIdValueChar c = true := fun c hc =>
    isIdValueChar_of_isIdentChar (Stylesheet.isIdentChar_of_isAsciiLetter (hletters c hc))
  have hword : Spelling "id".toList "id".toList := .cons (by decide) (.cons (by decide) .nil)
  have hnone : ∀ c ∈ ([] : Text), isBlank c = true := by simp
  cases hform with
  | mk _ _ hold =>
    cases hold with
    | quoted hlead hq _ _ =>
      exact ⟨_, text_eq _, .mk hword hnone (.quoted hnone hq hne hvalue)⟩
    | bare hlead _ _ _ =>
      have hfirst : ∀ c ∈ short.head?, isBlank c = false := fun c hc =>
        isBlank_of_isAsciiLetter (hletters c (List.mem_of_mem_head? hc))
      exact ⟨_, text_eq _, .mk hword hnone (.bare hnone hne hvalue (.inl hfirst))⟩

/-- A selector becomes one under the new name. -/
theorem renameAll_selector
    (hshorts : ∀ name short, ids.find? name = some short →
      short ≠ [] ∧ ∀ c ∈ short, isAsciiLetter c = true)
    (h : Form s body) (after : Text) :
    ∃ body', Form (s.renamed ids) body' ∧
      renameAll ids ('[' :: (body ++ after)) = '[' :: (body' ++ renameAll ids after) := by
  have hpieces := pieces_selector h after
  cases hfind : ids.find? s.name with
  | none =>
    have hsame : s.renamed ids = s := by simp [renamed, RenameMap.rename, hfind]
    refine ⟨body, hsame.symm ▸ h, ?_⟩
    simp [renameAll, Matcher.replaceAll, hpieces, hfind]
  | some short =>
    obtain ⟨hne, hletters⟩ := hshorts _ _ hfind
    obtain ⟨body', htext, hform⟩ := form_of_letters h hne hletters
    have hnew : s.renamed ids = { s with name := short } := by
      simp [renamed, RenameMap.rename, hfind]
    refine ⟨body', hnew.symm ▸ hform, ?_⟩
    simp [renameAll, Matcher.replaceAll, hpieces, hfind, htext]

variable (hshorts : ∀ name short, ids.find? name = some short →
  short ≠ [] ∧ ∀ c ∈ short, isAsciiLetter c = true)

include hshorts

/-- **A text and its renamed form agree.** -/
theorem agree_renameAll (t : Text) : Agree t (renameAll ids t) := by
  induction t using selectorInduction with
  | nil =>
    rw [renameAll_nil]
    exact .nil
  | pass c rest h ih =>
    rw [renameAll_pass h]
    exact .keep c ih
  | selector s body after hform ih =>
    obtain ⟨body', hform', htext⟩ := renameAll_selector hshorts hform after
    rw [htext]
    refine .bracket ?_
    rw [hform.stop?, hform'.stop?]
    rfl

/-- **The selectors of the renamed text are the renamed selectors.** -/
theorem findAll_renameAll (t : Text) :
    matcher.findAll (renameAll ids t) = (matcher.findAll t).map (renamed ids) := by
  induction t using selectorInduction with
  | nil => simp
  | pass c rest h ih =>
    have hpass : c = '[' → read? (renameAll ids rest) = none := fun hc => by
      rw [← Option.isNone_iff_eq_none, ← Option.not_isSome,
        ← (agree_renameAll hshorts rest).isSome_read?, h hc]
      rfl
    rw [renameAll_pass h, findAll_pass hpass, findAll_pass h, ih]
  | selector s body after hform ih =>
    obtain ⟨body', hform', htext⟩ := renameAll_selector hshorts hform after
    rw [htext, findAll_selector hform', findAll_selector hform, ih, List.map_cons]

end Rename

end WebTrim.Literal.IdSelector
