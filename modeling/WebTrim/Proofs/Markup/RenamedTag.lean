import WebTrim.Proofs.Markup.Attribute
import WebTrim.Proofs.Markup.Value

/-!
# The attributes of a renamed tag

A renamed tag begins as the tag, and what renaming brings in neither opens nor ends a value. So
every attribute is read at its place, with its renamed value.

* `ValueForm.of_fits` — another value may be written in the place of one.
* `readValue?_renamedRest` — **where a name has no value, it gets none**.
* `AttributeForm.renamed`, `pieces_renamedRest` — **a renamed tag is read piece by piece as the
  tag**.
* `splitTagName_renameTag` — and its name is the same.
* `valuePieces` — the values of a tag and the text between them; `valueSpans_eq` tells their spans.
* `renameTag_changes_values` — **renaming a tag changes its attribute values and nothing else**.
-/

set_option autoImplicit false

namespace WebTrim.Markup

open Text

/-- Another value may stand in the place of one, before a text that begins alike. -/
theorem ValueForm.of_fits {after tail lead value value' closing : Text}
    (h : ValueForm after lead value closing) (hfits : Fits value value')
    (hhead : tail.head? = after.head?) : ValueForm tail lead value' closing := by
  cases h with
  | quoted hblanks hmore hq hvalue =>
    refine .quoted hblanks hmore hq fun hmem => hvalue (hfits.mem_of_mem hmem ?_)
    rcases hq with rfl | rfl <;> decide
  | bare hblanks hmore hne hvalue hstop =>
    refine .bare hblanks hmore (hfits.ne_nil hne) (fun c hc => ?_) (hhead ▸ hstop)
    rcases hfits.chars c hc with hc | hc
    · exact hvalue c hc
    · exact isBareValueChar_of_isRenameChar hc

/-- An attribute with its value renamed, and the text between attributes. -/
def renamedPiece (decode : Text → Text) (renames : Renames) (p : Piece (Option Attribute)) :
    Piece (Option Attribute) :=
  match p.note with
  | some a => ⟨(a.renamed decode renames).text, some (a.renamed decode renames)⟩
  | none => p

section Rename

variable (decode : Text → Text) (renames : Renames) {after t : Text} {a : Attribute}

theorem exists_text_eq (a : Attribute) :
    ∃ more more', a.text = a.before ++ more ∧ (a.renamed decode renames).text = a.before ++ more' :=
  ⟨_, _, List.append_assoc _ _ _, List.append_assoc _ _ _⟩

/-- The renamed text begins as the text. -/
theorem head?_renamedRest (t : Text) : (renamedRest decode renames t).head? = t.head? := by
  induction t using attributeInduction with
  | nil => simp
  | pass c rest hc _ => rw [renamedRest_pass decode renames hc]; rfl
  | found a after h _ =>
    obtain ⟨more, more', htext, htext'⟩ := exists_text_eq decode renames a
    rw [renamedRest_attribute decode renames h, htext, htext', List.append_assoc, List.append_assoc,
      List.head?_append_of_ne_nil _ h.before_ne_nil, List.head?_append_of_ne_nil _ h.before_ne_nil]

/-- And as far as its second character, which decides whether it has a tag name. -/
theorem take_two_renamedRest (t : Text) : (renamedRest decode renames t).take 2 = t.take 2 := by
  have hone : ∀ u : Text, (renamedRest decode renames u).take 1 = u.take 1 := by
    intro u
    rw [List.take_one, List.take_one, head?_renamedRest]
  induction t using attributeInduction with
  | nil => simp
  | pass c rest hc _ =>
    rw [renamedRest_pass decode renames hc, List.take_succ_cons, List.take_succ_cons, hone]
  | found a after h _ =>
    rw [renamedRest_attribute decode renames h]
    by_cases hlong : 2 ≤ a.before.length
    · obtain ⟨more, more', htext, htext'⟩ := exists_text_eq decode renames a
      rw [htext, htext', List.append_assoc, List.append_assoc, List.take_append_of_le_length hlong,
        List.take_append_of_le_length hlong]
    · -- a name of one character, with no value behind it
      cases h with
      | @valued name lead value closing hne hname hvalue =>
        have hname := List.length_pos_iff.mpr hne
        have hlead := List.length_pos_iff.mpr hvalue.lead_chars.1
        rw [List.length_append] at hlong
        omega
      | @flag name hne hname hstop hnone =>
        obtain ⟨c, more, rfl⟩ := List.exists_cons_of_ne_nil hne
        obtain rfl : more = [] := by
          cases more with
          | nil => rfl
          | cons d more => simp at hlong
        exact congrArg (c :: ·) (hone after)

/-- Characters that belong to no attribute stand in both texts. -/
theorem exists_of_renamedRest_append {run tail : Text}
    (hrun : ∀ c ∈ run, isAttributeNameChar c = false)
    (h : renamedRest decode renames t = run ++ tail) :
    ∃ t', t = run ++ t' ∧ renamedRest decode renames t' = tail := by
  induction run generalizing t with
  | nil => exact ⟨t, rfl, h⟩
  | cons c run ih =>
    have hhead := head?_renamedRest decode renames t
    rw [h, List.cons_append] at hhead
    obtain ⟨rest, rfl⟩ := List.head?_eq_some_iff.mp hhead.symm
    rw [renamedRest_pass decode renames (hrun c List.mem_cons_self), List.cons_append,
      List.cons.injEq] at h
    obtain ⟨t', rfl, htail⟩ := ih (fun d hd => hrun d (List.mem_cons_of_mem c hd)) h.2
    exact ⟨t', rfl, htail⟩

variable {renames} (h : renames.Lettered)

include h

theorem fits_renamedValue (name value : Text) :
    Fits value (if value.isEmpty then value else renameAttribute decode renames name value) := by
  split
  · exact .refl value
  · exact fits_renameAttribute decode h name value

theorem fits_renamed (a : Attribute) : Fits a.text (a.renamed decode renames).text := by
  obtain ⟨name, lead, value, closing⟩ := a
  refine ((Fits.refl lead).append ?_).append (.refl closing)
  cases value with
  | none => exact .refl _
  | some value => exact fits_renamedValue decode h name value

theorem fits_renamedRest (t : Text) : Fits t (renamedRest decode renames t) := by
  induction t using attributeInduction with
  | nil => simpa using Fits.refl []
  | pass c rest hc ih =>
    rw [renamedRest_pass decode renames hc]
    exact (Fits.refl [c]).append ih
  | found a after hform ih =>
    rw [renamedRest_attribute decode renames hform]
    exact (fits_renamed decode h a).append ih

/-- **Where no value is read, none is read from the renamed text.** -/
theorem readValue?_renamedRest (hnone : readValue? t = none) :
    readValue? (renamedRest decode renames t) = none := by
  rw [Option.eq_none_iff_forall_ne_some]
  rintro ⟨lead, value, closing⟩ hread
  obtain ⟨after, hsplit, hform⟩ := exists_of_readValue? hread
  obtain ⟨-, hlead⟩ := hform.lead_chars
  rw [List.append_assoc, List.append_assoc] at hsplit
  obtain ⟨t', rfl, htail⟩ := exists_of_renamedRest_append decode renames hlead hsplit
  -- a value behind the same signs would have been read from the text
  suffices hvalue : ∃ value closing after, t' = value ++ closing ++ after ∧
      ValueForm after lead value closing by
    obtain ⟨value, closing, after, rfl, hform⟩ := hvalue
    rw [← List.append_assoc, ← List.append_assoc, readValue?_of_form hform] at hnone
    cases hnone
  cases hform with
  | @quoted blanks more _ q hblanks hmore hq hvalue =>
    have hmem : q ∈ renamedRest decode renames t' := by
      rw [htail]
      simp
    have hnew : isRenameChar q = false := by
      rcases hq with rfl | rfl <;> decide
    obtain ⟨body, after, hcut, hbody⟩ :=
      cut?_singleton_of_mem ((fits_renamedRest decode h t').mem_of_mem hmem hnew)
    exact ⟨body, [q], after, (cut?_eq_some hcut).1, .quoted hblanks hmore hq hbody⟩
  | @bare blanks more value hblanks hmore hne hvalue hstop =>
    obtain ⟨c, value, rfl⟩ := List.exists_cons_of_ne_nil hne
    have hhead := head?_renamedRest decode renames t'
    rw [htail] at hhead
    obtain ⟨run, after, rfl, hrun, hafter, hlong⟩ := exists_run isBareValueChar t'
    have hfirst := hlong c hhead.symm (hvalue c List.mem_cons_self)
    exact ⟨run, [], after, by simp, .bare hblanks hmore hfirst hrun hafter⟩

/-- **An attribute whose value is renamed is still read before the renamed text.** -/
theorem AttributeForm.renamed (hform : AttributeForm after a) :
    AttributeForm (renamedRest decode renames after) (a.renamed decode renames) := by
  have hhead := head?_renamedRest decode renames after
  cases hform with
  | @valued name lead value closing hne hname hvalue =>
    exact .valued hne hname (hvalue.of_fits (fits_renamedValue decode h (lower name) value) hhead)
  | flag hne hname hstop hnone =>
    exact .flag hne hname (hhead ▸ hstop) (readValue?_renamedRest decode h hnone)

/-- **A renamed text is read piece by piece as the text was.** -/
theorem pieces_renamedRest (t : Text) :
    attributeMatcher.pieces (renamedRest decode renames t) =
      (attributeMatcher.pieces t).map (renamedPiece decode renames) := by
  induction t using attributeInduction with
  | nil => simp [Matcher.pieces]
  | pass c rest hc ih =>
    rw [renamedRest_pass decode renames hc, pieces_pass hc, pieces_pass hc, ih]
    rfl
  | found a after hform ih =>
    rw [renamedRest_attribute decode renames hform, pieces_attribute (hform.renamed decode h),
      pieces_attribute hform, ih]
    rfl

end Rename

/-! ## The name of a tag -/

section TagName

variable {tag : Text}

theorem splitTagName_of_not (h : ∀ c rest, tag = '<' :: c :: rest → isAsciiLetter c = false) :
    splitTagName tag = ([], tag) := by
  unfold splitTagName
  split
  · rename_i c rest
    rw [h c rest rfl]
    rfl
  · rfl

theorem splitTagName_of_letter {c : Char} {run after : Text} (hc : isAsciiLetter c = true)
    (hrun : ∀ d ∈ run, isTagNameChar d = true)
    (hafter : ∀ d ∈ after.head?, isTagNameChar d = false) :
    splitTagName ('<' :: c :: (run ++ after)) = ('<' :: c :: run, after) := by
  simp only [splitTagName, hc, if_true, splitWhile_append_of hrun hafter]

/-- A renamed tag keeps its name, or the lack of one. -/
theorem splitTagName_renameTag (decode : Text → Text) (renames : Renames) (tag : Text) :
    splitTagName (renameTag decode renames tag) =
      ((splitTagName tag).1, renamedRest decode renames (splitTagName tag).2) := by
  have hrename : renameTag decode renames tag =
    (splitTagName tag).1 ++ renamedRest decode renames (splitTagName tag).2 := rfl
  rw [hrename]
  by_cases hname : ∃ c rest, tag = '<' :: c :: rest ∧ isAsciiLetter c = true
  · obtain ⟨c, rest, rfl, hc⟩ := hname
    obtain ⟨run, after, rfl, hrun, hafter, -⟩ := exists_run isTagNameChar rest
    rw [splitTagName_of_letter hc hrun hafter]
    refine splitTagName_of_letter hc hrun fun d hd => hafter d ?_
    rwa [head?_renamedRest] at hd
  · have hletter : ∀ c rest, tag = '<' :: c :: rest → isAsciiLetter c = false := by
      intro c rest htag
      exact Bool.eq_false_iff.mpr fun hc => hname ⟨c, rest, htag, hc⟩
    rw [splitTagName_of_not hletter, List.nil_append]
    refine splitTagName_of_not fun c rest hrenamed => ?_
    have htwo := take_two_renamedRest decode renames tag
    rw [hrenamed] at htwo
    refine hletter c (tag.drop 2) ?_
    rw [← List.take_append_drop 2 tag, ← htwo]
    simp

end TagName

/-! ## Values and the text between them -/

/-- An attribute cut into the text before its value, the value and the text after it. -/
def cutAttribute (p : Piece (Option Attribute)) : List (Piece (Option Attribute)) :=
  match p.note with
  | some a => [⟨a.before, none⟩, ⟨a.value.getD [], some a⟩, ⟨a.after, none⟩]
  | none => [p]

/-- A tag as an alternation of text and attribute values. -/
def valuePieces (tag : Text) : List (Piece (Option Attribute)) :=
  ⟨(splitTagName tag).1, none⟩ ::
    (attributeMatcher.pieces (splitTagName tag).2).flatMap cutAttribute

theorem valuePieces_text (tag : Text) : (valuePieces tag).flatMap Piece.text = tag := by
  have hrest : ∀ t : Text,
      ((attributeMatcher.pieces t).flatMap cutAttribute).flatMap Piece.text = t := by
    intro t
    induction t using attributeInduction with
    | nil => simp [Matcher.pieces]
    | pass c rest hc ih =>
      rw [pieces_pass hc, List.flatMap_cons, List.flatMap_append, ih]
      rfl
    | found a after h ih =>
      rw [pieces_attribute h, List.flatMap_cons, List.flatMap_append, ih]
      simp [cutAttribute, Attribute.text]
  rw [valuePieces, List.flatMap_cons, hrest, splitTagName_append]

/-- The spans of the values, each with its attribute. -/
def valueSpans (tag : Text) : List (Nat × Nat × Attribute) :=
  (attributeSpans tag).map fun s => (s.2.1, s.2.2, s.1)

/-- A fold that counts the characters and puts each attribute before the earlier ones lists the
spans of the values in reverse. -/
theorem foldl_attributes
    {step : Nat × List (Attribute × Nat × Nat) → Piece (Option Attribute) →
      Nat × List (Attribute × Nat × Nat)}
    (hstep : ∀ start found p, step (start, found) p =
      (start + p.text.length,
        (p.note.map fun a => (a, start + a.before.length,
          start + a.before.length + (a.value.getD []).length)).toList ++ found))
    (t : Text) (start : Nat) (found : List (Attribute × Nat × Nat)) :
    (((attributeMatcher.pieces t).foldl step (start, found)).2.reverse).map
        (fun s => (s.2.1, s.2.2, s.1)) =
      (found.reverse.map fun s => (s.2.1, s.2.2, s.1)) ++
        spansFrom start ((attributeMatcher.pieces t).flatMap cutAttribute) := by
  induction t using attributeInduction generalizing start found with
  | nil => simp [Matcher.pieces, spansFrom]
  | pass c rest hc ih =>
    rw [pieces_pass hc, List.foldl_cons, hstep, ih]
    rfl
  | found a after h ih =>
    rw [pieces_attribute h, List.foldl_cons, hstep, ih]
    simp [cutAttribute, spansFrom, Attribute.text, Nat.add_assoc]

theorem valueSpans_eq (tag : Text) : valueSpans tag = spansFrom 0 (valuePieces tag) := by
  refine (foldl_attributes (fun start found p => ?_) (splitTagName tag).2
    (splitTagName tag).1.length []).trans ?_
  · obtain ⟨text, note⟩ := p
    cases note <;> rfl
  · simp [valuePieces, spansFrom]

/-- A value with what becomes of it, and the text between values. -/
def renamedValue (decode : Text → Text) (renames : Renames) (p : Piece (Option Attribute)) :
    Piece (Option Attribute) :=
  match p.note with
  | some a => ⟨(a.renamed decode renames).value.getD [], some (a.renamed decode renames)⟩
  | none => p

theorem valuePieces_renameTag (decode : Text → Text) {renames : Renames} (h : renames.Lettered)
    (tag : Text) :
    valuePieces (renameTag decode renames tag) =
      (valuePieces tag).map (renamedValue decode renames) := by
  have hcut : ∀ p, cutAttribute (renamedPiece decode renames p) =
      (cutAttribute p).map (renamedValue decode renames) := by
    rintro ⟨text, note⟩
    cases note <;> rfl
  rw [valuePieces, splitTagName_renameTag, valuePieces, List.map_cons]
  simp only [pieces_renamedRest decode h, List.flatMap_map, List.map_flatMap, hcut]
  rfl

/-- The attributes with spans are the values among the pieces. -/
theorem map_attributeSpans (tag : Text) :
    (attributeSpans tag).map Prod.fst = (valuePieces tag).filterMap Piece.note := by
  rw [← map_found_spansFrom (valuePieces tag) 0, ← valueSpans_eq, valueSpans, List.map_map]
  rfl

theorem outside_valueSpans (tag : Text) :
    outside 0 (valueSpans tag) tag = stretches (valuePieces tag) := by
  have houtside := outside_spansFrom (valuePieces tag) 0
  rwa [valuePieces_text, ← valueSpans_eq] at houtside

/-- A span covers the value of its attribute. -/
theorem covered_valueSpans (tag : Text) :
    covered 0 (valueSpans tag) tag = (attributeSpans tag).map fun s => s.1.value.getD [] := by
  have htext : ∀ p ∈ valuePieces tag, ∀ a, p.note = some a → p.text = a.value.getD [] := by
    intro p hp a hnote
    rcases List.mem_cons.mp hp with rfl | hp
    · cases hnote
    · obtain ⟨⟨text, note⟩, -, hp⟩ := List.mem_flatMap.mp hp
      cases note with
      | none =>
        obtain rfl := List.mem_singleton.mp hp
        cases hnote
      | some b =>
        simp only [cutAttribute, List.mem_cons, List.not_mem_nil, or_false] at hp
        rcases hp with rfl | rfl | rfl <;> cases hnote
        rfl
  have hcovered := covered_spansFrom htext 0
  rw [valuePieces_text, ← valueSpans_eq, ← map_attributeSpans, List.map_map] at hcovered
  exact hcovered

theorem map_attributeSpans_renameTag (decode : Text → Text) {renames : Renames}
    (h : renames.Lettered) (tag : Text) :
    (attributeSpans (renameTag decode renames tag)).map Prod.fst =
      ((attributeSpans tag).map Prod.fst).map (Attribute.renamed decode renames) := by
  rw [map_attributeSpans, map_attributeSpans, valuePieces_renameTag decode h, List.filterMap_map,
    List.map_filterMap]
  congr 1
  funext p
  obtain ⟨text, note⟩ := p
  cases note <;> rfl

/-- **Renaming a tag changes its attribute values and nothing else.** The attributes have the same
names in the same order; one without a value has none, an empty value stays empty, and every other
value is renamed. The text outside the values stays. -/
theorem renameTag_changes_values (decode : Text → Text) {renames : Renames} (h : renames.Lettered)
    (tag : Text) :
    (attributeSpans (renameTag decode renames tag)).map (fun s => (s.1.name, s.1.value)) =
        (attributeSpans tag).map (fun s => (s.1.name, s.1.value.map fun v =>
          if v = [] then [] else renameAttribute decode renames s.1.name v)) ∧
      outside 0 (valueSpans (renameTag decode renames tag)) (renameTag decode renames tag) =
        outside 0 (valueSpans tag) tag ∧
      covered 0 (valueSpans tag) tag = (attributeSpans tag).map fun s => s.1.value.getD [] := by
  refine ⟨?_, ?_, covered_valueSpans tag⟩
  · have hattributes := congrArg (List.map fun a => (a.name, a.value))
      (map_attributeSpans_renameTag decode h tag)
    rw [List.map_map, List.map_map, List.map_map] at hattributes
    refine hattributes.trans (List.map_congr_left fun s _ => ?_)
    have hvalue : ∀ v : Text, (if v.isEmpty then v else renameAttribute decode renames s.1.name v) =
        if v = [] then [] else renameAttribute decode renames s.1.name v := by
      intro v
      cases v <;> simp
    simp only [Function.comp_apply, Attribute.renamed, hvalue]
  · rw [outside_valueSpans, outside_valueSpans, valuePieces_renameTag decode h]
    refine stretches_map (fun p _ => ?_) fun p _ hnote => ?_
    · obtain ⟨text, note⟩ := p
      cases note <;> rfl
    · rw [renamedValue, hnote]

/-- A tag with values in either quotes and without, an empty one, and a quote that is not closed. -/
def mixedTag : Text :=
  "<a class='menu' ID=menu href=\"#menu\" alt=\"\" hidden style='top:var(--gap)' x=\"--gap".toList

/-- Short names for the names in the tag. -/
def mixedRenames : Renames where
  classes := ⟨[("menu".toList, "a".toList)]⟩
  ids := ⟨[("menu".toList, "b".toList)]⟩
  properties := ⟨[("--gap".toList, "--c".toList)]⟩

theorem renameTag_changes_values_mixed :
    mixedRenames.Lettered ∧
      renameTag id mixedRenames mixedTag =
        "<a class='a' ID=b href=\"#b\" alt=\"\" hidden style='top:var(--c)' x=\"--gap".toList ∧
      (attributeSpans (renameTag id mixedRenames mixedTag)).map (fun s => (s.1.name, s.1.value)) =
        [("class".toList, some "a".toList), ("id".toList, some "b".toList),
          ("href".toList, some "#b".toList), ("alt".toList, some []), ("hidden".toList, none),
          ("style".toList, some "top:var(--c)".toList), ("x".toList, none),
          ("--gap".toList, none)] :=
  have h : mixedRenames.Lettered :=
    ⟨RenameMap.spelled_of_entries (by decide), RenameMap.spelled_of_entries (by decide),
      RenameMap.spelled_of_entries (by decide)⟩
  ⟨h, by decide +kernel, (renameTag_changes_values id h mixedTag).1.trans (by decide +kernel)⟩

end WebTrim.Markup
