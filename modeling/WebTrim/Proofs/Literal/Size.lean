import WebTrim.Literal.Rename
import WebTrim.Markup.Reference
import WebTrim.Proofs.Markup.Tag
import WebTrim.Proofs.Naming.Allocation
import WebTrim.ScopeId

/-!
# Renaming makes a literal smaller

* `renameClassLiteral_shrinks` — classes of a literal.
* `IdSelector.renameAll_shrinks`, `renameIds_shrinks` — ids that a literal refers to.
* `rename_shrinks` — **a renamed literal without markup is the old one or smaller**.
* `ScopeId.rename_shrinks` — so is a text with its scope ids renamed.
* `renames_pass_gate` — **a pass with shorter names is never held back by the size gate**.
-/

set_option autoImplicit false

namespace WebTrim

open Text

namespace Literal

theorem renameClassLiteral_shrinks {classes : RenameMap}
    (h : classes.Shortens [] isAsciiLetter) (literal : Text) :
    ShrinksTo literal (renameClassLiteral classes literal) := by
  unfold renameClassLiteral
  split
  · refine ShrinksTo.piecewise.rewritten fun p _ => ?_
    split
    · exact h.rename_shrinks p.text
    · exact .refl _
  · exact .refl _

/-! ## Attribute selectors on ids -/

namespace IdSelector

/-- The name and the closing that were read stand at the end of the blanks and the text. -/
theorem text_of_readName? {blanks t after : Text} {s : IdSelector}
    (h : readName? blanks t = some (s, after)) :
    (∀ c ∈ s.quote, c = '\'' ∨ c = '"') ∧
      ∃ lead, blanks ++ t = lead ++ s.quote ++ s.name ++ s.quote ++ ']' :: after := by
  cases t with
  | nil => cases h
  | cons c rest =>
    simp only [readName?] at h
    split at h
    · rename_i hquote
      split at h
      · rename_i name d more hsplit
        split at h
        · rename_i hclosing
          cases h
          obtain ⟨hrest, -⟩ := splitWhile_eq_cons hsplit
          obtain ⟨rfl, -⟩ := hclosing
          exact ⟨by simpa using hquote, blanks, by simp [hrest]⟩
        · cases h
      · cases h
    · split at h
      · rename_i name more hsplit
        obtain ⟨hrest, -⟩ := splitWhile_eq_cons hsplit
        split at h
        · cases h
          exact ⟨by simp, blanks, by simp [hrest]⟩
        · rename_i hempty
          -- the last of the blanks is taken for the name
          obtain ⟨b, hlast, heq⟩ := Option.map_eq_some_iff.mp h
          cases heq
          obtain ⟨front, rfl⟩ := List.getLast?_eq_some_iff.mp hlast
          have hname : name = [] := by simpa using hempty
          exact ⟨by simp, front, by simp [hrest, hname]⟩
      · cases h

/-- A selector that was read stands in the text, with blanks in it. -/
theorem text_of_read? {t after : Text} {s : IdSelector} (h : read? t = some (s, after)) :
    (∀ c ∈ s.quote, c = '\'' ∨ c = '"') ∧
      ∃ before lead, 2 ≤ before.length ∧
        t = before ++ '=' :: lead ++ s.quote ++ s.name ++ s.quote ++ ']' :: after := by
  unfold read? at h
  split at h
  · cases h
  · rename_i t₁ hword
    split at h
    · rename_i t₂ hequals
      simp only at h
      obtain ⟨hquote, lead, hname⟩ := text_of_readName? h
      rw [splitWhile_append] at hname
      obtain ⟨word, rfl, hlength⟩ := Stylesheet.exists_of_dropWord? hword
      refine ⟨hquote, word ++ t₁.takeWhile isBlank, lead, ?_, ?_⟩
      · have htwo : word.length = 2 := hlength
        rw [List.length_append]
        omega
      · have hblanks : t₁.takeWhile isBlank ++ t₁.dropWhile isBlank = t₁ :=
          List.takeWhile_append_dropWhile
        rw [hequals, hname] at hblanks
        refine (Eq.trans ?_ (congrArg (word ++ ·) hblanks)).symm
        simp only [List.append_assoc, List.cons_append]
    · cases h

/-- What the matcher takes is the bracket, the selector and its closing bracket. -/
theorem matcher_found {before : Option Char} {c : Char} {rest : Text} {n : Nat} {s : IdSelector}
    (h : matcher before c rest = (n, some s)) :
    c = '[' ∧ (∀ d ∈ s.quote, d = '\'' ∨ d = '"') ∧
      ∃ lead gap, 2 ≤ lead.length ∧
        rest.take n = lead ++ '=' :: gap ++ s.quote ++ s.name ++ s.quote ++ [']'] := by
  simp only [matcher, Matcher.ofPattern] at h
  by_cases hc : c = '['
  · rw [if_pos hc] at h
    cases hread : read? rest with
    | none =>
      rw [hread] at h
      cases h
    | some pair =>
      obtain ⟨found, after⟩ := pair
      rw [hread] at h
      simp only [Option.map_some, Prod.mk.injEq, Option.some.injEq] at h
      obtain ⟨rfl, rfl⟩ := h
      obtain ⟨hquote, lead, gap, hlength, hrest⟩ := text_of_read? hread
      refine ⟨hc, hquote, lead, gap, hlength, ?_⟩
      have hsplit : rest =
          (lead ++ '=' :: gap ++ found.quote ++ found.name ++ found.quote ++ [']']) ++ after := by
        rw [hrest]
        simp
      conv_lhs => rw [hsplit]
      rw [List.length_append, Nat.add_sub_cancel, List.take_left]
  · rw [if_neg hc] at h
    cases h

/-- The literal with its id selectors renamed. -/
def renameAll (ids : RenameMap) (literal : Text) : Text :=
  matcher.replaceAll (fun s => (ids.find? s.name).map fun short => { s with name := short }.text)
    literal

theorem byteLength_text (s : IdSelector) :
    byteLength s.text = 5 + 2 * byteLength s.quote + byteLength s.name := by
  have hopen : byteLength "[id=".toList = 4 := by decide
  have hbracket : byteLength [']'] = 1 := rfl
  unfold text
  generalize "[id=".toList = opening at hopen ⊢
  simp only [byteLength_append, hopen, hbracket]
  omega

theorem renameAll_shrinks {ids : RenameMap} (h : ids.Shortens [] isAsciiLetter) (literal : Text) :
    ShrinksTo literal (renameAll ids literal) := by
  refine Matcher.replaceAll_piecewise ShrinksTo.piecewise
    (forall_mem_scan (fun before c rest _ s out hnote hout => ?_) none)
  rcases hstep : matcher before c rest with ⟨n, note⟩
  simp only [Matcher.step, hstep] at hnote ⊢
  subst hnote
  obtain ⟨rfl, -, lead, gap, hlength, htake⟩ := matcher_found hstep
  obtain ⟨short, hfind, rfl⟩ := Option.map_eq_some_iff.mp hout
  have hsmaller := h.smaller hfind
  have hlead := Naming.length_le_byteLength lead
  have hopening : '['.utf8Size = 1 := rfl
  have hclosing : ']'.utf8Size = 1 := rfl
  have hequals : '='.utf8Size = 1 := rfl
  refine .of_lt ?_
  simp only [byteLength_text, htake, byteLength_append, byteLength_cons, byteLength_nil, hopening,
    hclosing, hequals]
  omega

/-- Renaming id selectors adds no escapes. -/
theorem escapes_renameAll_subset {ids : RenameMap} (h : ids.Shortens [] isAsciiLetter)
    (literal : Text) :
    Stylesheet.escapes (renameAll ids literal) ⊆ Stylesheet.escapes literal := by
  have hedited : Stylesheet.Edited '[' (renameAll ids literal) literal := by
    refine Stylesheet.edited_rewritten (fun before c rest n s out hstep hout => ?_) none literal
    obtain ⟨rfl, hquote, lead, gap, -, htake⟩ := matcher_found hstep
    obtain ⟨short, hfind, rfl⟩ := Option.map_eq_some_iff.mp hout
    have hslash : '\\' ∉ s.quote := fun hmem => by
      rcases hquote _ hmem with hc | hc <;> exact absurd hc (by decide)
    have hshort : '\\' ∉ short := fun hmem => absurd (h.letters hfind _ hmem) (by decide)
    refine ⟨rfl, ?_, "id=".toList ++ s.quote ++ short ++ s.quote ++ [']'], rfl, ?_⟩
    · conv_rhs => rw [← List.take_append_drop n rest, htake, List.append_assoc]
      exact Stylesheet.escapes_subset_append (by decide) _
    · simp only [List.mem_append, not_or]
      exact ⟨⟨⟨⟨by decide, hslash⟩, hshort⟩, hslash⟩, by decide⟩
  exact (hedited.escapes_subset (by decide) (by decide)).1

end IdSelector

/-- Renaming the ids of a literal leaves it or makes it smaller. -/
theorem renameIds_shrinks {ids : RenameMap} (h : ids.Shortens [] isAsciiLetter) {literal : Text}
    (hliteral : Stylesheet.replacementChar ∉ Stylesheet.escapes literal) :
    ShrinksTo literal (renameIds ids literal) := by
  unfold renameIds
  split
  · exact .refl _
  · split
    · rename_i short hfind
      exact .of_lt (h.smaller hfind)
    · have hescapes : Stylesheet.replacementChar ∉
          Stylesheet.escapes (IdSelector.renameAll ids literal) := fun hmem =>
        hliteral (IdSelector.escapes_renameAll_subset h literal hmem)
      exact (IdSelector.renameAll_shrinks h literal).trans
        (Stylesheet.renameMarked_shrinks (.inr rfl) h hescapes)

/-- **A renamed literal without markup is the old one or smaller**, if no escape in it stands for
U+FFFD. -/
theorem rename_shrinks (decode : Text → Text) {renames : Renames}
    (hclasses : renames.classes.Shortens [] isAsciiLetter)
    (hids : renames.ids.Shortens [] isAsciiLetter)
    (hproperties : renames.properties.Shortens "--".toList isAsciiLetter) {literal : Text}
    (hliteral : Stylesheet.replacementChar ∉ Stylesheet.escapes literal)
    (htag : Markup.hasTag literal = false) :
    ShrinksTo literal (rename decode renames literal) := by
  have hmarkup :
      Markup.hasTag (Stylesheet.renameProperties renames.properties literal) = false := by
    rw [Markup.hasTag_renameProperties hproperties, htag]
  have hescapes : Stylesheet.replacementChar ∉
      Stylesheet.escapes (Stylesheet.renameProperties renames.properties literal) := fun hmem =>
    hliteral (Stylesheet.escapes_renameProperties_subset hproperties literal hmem)
  refine (Stylesheet.renameProperties_shrinks hproperties literal).trans ?_
  simp only [rename, hmarkup, Bool.false_eq_true, if_false]
  split
  · exact renameIds_shrinks hids hescapes
  · exact renameClassLiteral_shrinks hclasses _

end Literal

/-! ## Scope ids -/

theorem ScopeId.rename_shrinks {scopes : RenameMap} {kind : Char → Bool}
    (h : scopes.Shortens [] kind) (lead t : Text) : ShrinksTo t (ScopeId.rename lead scopes t) := by
  refine Matcher.replaceAll_piecewise ShrinksTo.piecewise fun p hp run out hnote hout => ?_
  obtain ⟨short, hfind, rfl⟩ := Option.map_eq_some_iff.mp hout
  have htext : p.text = lead ++ run := by
    refine Matcher.piece_of_ofPattern (P := fun text run => text = lead ++ run) ?_ p hp run hnote
    intro before c rest n run hpattern
    split at hpattern
    · cases hpattern
    · rename_i hlead
      split at hpattern
      · cases hpattern
      · rename_i after hbegins
        simp only at hpattern
        split at hpattern
        · cases hpattern
        · simp only [Option.some.injEq, Prod.mk.injEq] at hpattern
          obtain ⟨rfl, rfl⟩ := hpattern
          have hsplit : c :: rest =
              (lead ++ after.takeWhile isAsciiAlnum) ++ after.dropWhile isAsciiAlnum := by
            rw [List.append_assoc, List.takeWhile_append_dropWhile]
            exact (List.isPrefixOf?_eq_some_iff_append_eq.mp hbegins).symm
          have hne : lead ++ after.takeWhile isAsciiAlnum ≠ [] := by
            simp only [ne_eq, List.append_eq_nil_iff, not_and]
            exact fun hnil => absurd (List.isEmpty_iff.mpr hnil) hlead
          have htaken := cons_take_of_append hne hsplit
          have hlength := congrArg List.length hsplit
          simp only [List.length_cons, List.length_append] at hlength
          have hcount : rest.length - (after.dropWhile isAsciiAlnum).length =
              lead.length + (after.takeWhile isAsciiAlnum).length - 1 := by
            omega
          rwa [hcount] at htaken
  rw [htext]
  exact .of_lt (by simpa using h.smaller hfind)

/-! ## The size gate -/

/-- A lower case ASCII letter or a digit. -/
def isScopeChar (c : Char) : Bool :=
  ('a' ≤ c && c ≤ 'z') || isAsciiDigit c

/-- A test on the entries of a map decides whether its names are shortened. -/
theorem RenameMap.Shortens.of_entries {lead : Text} {kind : Char → Bool} {m : RenameMap}
    (h : (m.entries.all fun e => decide (byteLength e.2 < byteLength e.1) &&
      lead.isPrefixOf e.2 && (e.2.drop lead.length).all kind) = true) : m.Shortens lead kind := by
  have hentry : ∀ {name short}, m.find? name = some short →
      byteLength short < byteLength name ∧ lead <+: short ∧
        ∀ c ∈ short.drop lead.length, kind c = true := by
    intro name short hfind
    have hcheck := List.all_eq_true.mp h _ (RenameMap.mem_entries_of_find? hfind)
    simpa [and_assoc] using hcheck
  refine ⟨fun hfind => (hentry hfind).1, fun hfind => ?_⟩
  obtain ⟨-, ⟨word, rfl⟩, hword⟩ := hentry hfind
  exact ⟨word, rfl, by rwa [List.drop_left] at hword⟩

/-- Every short name is smaller than its name and spelled as its category asks. -/
structure Renames.Shorten (r : Renames) : Prop where
  classes : r.classes.Shortens [] isAsciiLetter
  ids : r.ids.Shortens [] isAsciiLetter
  properties : r.properties.Shortens "--".toList isAsciiLetter
  scopes : r.scopes.Shortens [] isScopeChar

/-- **A pass with shorter names is never held back by the size gate.** In a text no escape of which
stands for U+FFFD, renaming a stylesheet, scope ids, or a literal without markup gives the text or a
strictly smaller one, so the gate lets each renamed text through. -/
theorem renames_pass_gate (decode : Text → Text) {renames : Renames} (h : renames.Shorten)
    {text : Text} (htext : Stylesheet.replacementChar ∉ Stylesheet.escapes text) :
    ShrinksTo text
        (Stylesheet.rename renames.classes renames.ids renames.properties text) ∧
      ShrinksTo text (ScopeId.rename renames.scopeLead renames.scopes text) ∧
      (Markup.hasTag text = false → ShrinksTo text (Literal.rename decode renames text)) ∧
      Gate.pass (Stylesheet.rename renames.classes renames.ids renames.properties) text =
        Stylesheet.rename renames.classes renames.ids renames.properties text ∧
      Gate.pass (ScopeId.rename renames.scopeLead renames.scopes) text =
        ScopeId.rename renames.scopeLead renames.scopes text := by
  have hcss : ShrinksTo text
      (Stylesheet.rename renames.classes renames.ids renames.properties text) :=
    Stylesheet.rename_shrinks h.classes h.ids h.properties htext
  have hscope : ShrinksTo text (ScopeId.rename renames.scopeLead renames.scopes text) :=
    ScopeId.rename_shrinks h.scopes _ text
  exact ⟨hcss, hscope, Literal.rename_shrinks decode h.classes h.ids h.properties htext,
    Gate.pass_of_shrinks hcss, Gate.pass_of_shrinks hscope⟩

/-- Short names of one category each, and a selector whose escapes stand for a colon and `é`. -/
theorem renames_pass_gate_escaped :
    let renames : Renames := {
      properties := ⟨[("--main-size".toList, "--a".toList)]⟩
      classes := ⟨[("md:é".toList, "b".toList)]⟩
      ids := ⟨[("top-bar".toList, "c".toList)]⟩
      scopes := ⟨[("j7pv25f6".toList, "a0".toList)]⟩ }
    let text := ".md\\:\\e9 #top-bar[class~=astro-cid-j7pv25f6]".toList
    renames.Shorten ∧ Stylesheet.replacementChar ∉ Stylesheet.escapes text ∧
      Gate.pass (Stylesheet.rename renames.classes renames.ids renames.properties) text =
        ".b#c[class~=astro-cid-j7pv25f6]".toList ∧
      Gate.pass (ScopeId.rename renames.scopeLead renames.scopes) text =
        ".md\\:\\e9 #top-bar[class~=astro-cid-a0]".toList ∧
      Markup.hasTag text = false ∧
      ShrinksTo text (Literal.rename Markup.decodeReferences renames text) := by
  intro renames text
  have hshorten : renames.Shorten :=
    ⟨.of_entries (by decide), .of_entries (by decide), .of_entries (by decide),
      .of_entries (by decide)⟩
  have htext : Stylesheet.replacementChar ∉ Stylesheet.escapes text := by decide
  have htag : Markup.hasTag text = false := by decide +kernel
  obtain ⟨-, -, hliteral, hcss, hscope⟩ :=
    renames_pass_gate Markup.decodeReferences hshorten htext
  exact ⟨hshorten, htext, hcss.trans (by decide +kernel), hscope.trans (by decide +kernel), htag,
    hliteral htag⟩

end WebTrim
