import WebTrim.Proofs.Corpus.Agreement

/-!
# Ids behind a number sign

A renamed id may also stand as `#id`, in a stylesheet or in a literal. A name that reads as a hex
colour is passed over there, and a literal that is an id as a whole is taken for that id.

* `rename_hashSelector` — **the selector of a renamed id gets the short name**.
* `renameIds_hash` — **so does a literal that is the number sign and the id**, unless it is an id.
* `renamed_id_behind_number_sign` — both, for the short names of a corpus.
* `number_sign_positions_kept` — a colour-like id and an id that begins with a number sign.
-/

set_option autoImplicit false

namespace WebTrim

open Text

namespace Stylesheet

theorem CodeOnly.identChars {name : Text} (h : ∀ c ∈ name, isIdentChar c = true) :
    CodeOnly name := by
  induction name with
  | nil => exact .nil
  | cons c name ih =>
    exact (CodeOnly.identChar (h c List.mem_cons_self)).append
      (ih fun d hd => h d (List.mem_cons_of_mem _ hd))

/-- From any state on, a text without the mark stays. -/
theorem rewritten_of_not_mem {mark : Char} (hmark : IsMark mark) {t : Text} (h : mark ∉ t)
    (f : MarkedName → Option Text) (before : Option Char) :
    rewritten (markedMatcher mark).step (Matcher.replacement f) before t = t := by
  have hnone : ∀ p ∈ scan (markedMatcher mark).step before t, Matcher.replacement f p = p.text := by
    refine forall_mem_scan (fun before c rest hsuffix => ?_) before
    rcases hstep : markedMatcher mark before c rest with ⟨n, found⟩
    cases found with
    | none => simp [Matcher.step, hstep, Matcher.replacement]
    | some m =>
      obtain ⟨rfl, -⟩ := markedMatcher_found hmark hstep
      exact absurd (hsuffix.subset List.mem_cons_self) h
  rw [rewritten, List.flatMap_congr hnone, scan_text]

/-- Each letter of a word that was read stands in the text. -/
theorem exists_mem_of_dropWord? {word t rest : Text} (h : dropWord? word t = some rest) :
    ∀ w ∈ word, ∃ c ∈ t, matchesLetter w c = true := by
  obtain ⟨spelled, hspelling, rfl⟩ := dropWord?_eq_some_iff.mp h
  intro w hw
  obtain ⟨c, hc, hmatch⟩ := hspelling.exists_mem w hw
  exact ⟨c, List.mem_append_left rest hc, hmatch⟩

/-- A text without an opening bracket holds no address. -/
theorem UrlFragment.renameAll_of_no_bracket (ids : RenameMap) {t : Text}
    (h : ∀ c ∈ t, matchesLetter '(' c = false) : UrlFragment.renameAll ids t = t := by
  refine Matcher.replaceAll_of_not_found fun before c rest hsuffix => ?_
  have hword : dropWord? "url(".toList (c :: rest) = none := by
    rw [Option.eq_none_iff_forall_ne_some]
    intro after hafter
    obtain ⟨d, hd, hmatch⟩ := exists_mem_of_dropWord? hafter '(' (by decide)
    rw [h d (hsuffix.subset hd)] at hmatch
    cases hmatch
  simp only [UrlFragment.matcher, Matcher.ofPattern, hword]

/-- No letter reads as an opening bracket. -/
theorem matchesLetter_bracket_of_letter {c : Char} (h : isAsciiLetter c = true) :
    matchesLetter '(' c = false := by
  have hrange := toNat_of_isAsciiLetter h
  have hlower : lowerChar c ≠ '(' := by
    unfold lowerChar
    simp only
    rw [if_pos (by omega)]
    split
    · have hletters : ∀ n < 123, 65 ≤ n → Char.ofNat (n + 0x20) ≠ '(' := by decide
      exact hletters _ (by omega) (by omega)
    · rintro rfl
      exact absurd h (by decide)
  simp [matchesLetter, hlower]

section Hash

variable {classes ids properties : RenameMap} {name short : Text}

/-- Behind the number sign a renamed id gets its short name, whatever follows that neither goes on
with the name nor holds a number sign. -/
theorem renameMarked_hash (hchars : ∀ c ∈ name, isIdentChar c = true)
    (hmarkable : isMarkable '#' name = true) (hfind : ids.find? name = some short)
    {tail : Text} (hend : identLength tail = 0) (htail : '#' ∉ tail) :
    renameMarked '#' ids ('#' :: (name ++ tail)) = '#' :: (escape short ++ tail) := by
  have hspells := Spells.identChars hchars
  have hlength : identLength (name ++ tail) = name.length := by
    rw [hspells.identLength, hend, Nat.add_zero]
  have hread : unescape name = name := by simpa using hspells.unescape []
  have hstep : ∀ before, markedMatcher '#' before '#' (name ++ tail) =
      (name.length, some ⟨name, name⟩) := by
    intro before
    rw [markedMatcher_mark (.inr rfl), hlength, List.take_left, nameBehind, hread,
      if_pos hmarkable]
  rw [renameMarked, Matcher.replaceAll_eq, rewritten_cons]
  simp only [Matcher.step, hstep, List.take_left, List.drop_left]
  rw [rewritten_of_not_mem (.inr rfl) htail]
  simp [Matcher.replacement, hfind]

/-- **The selector of a renamed id gets the short name.** -/
theorem rename_hashSelector (hchars : ∀ c ∈ name, isIdentChar c = true)
    (hmarkable : isMarkable '#' name = true) (hfind : ids.find? name = some short)
    (hletters : ∀ c ∈ short, isAsciiLetter c = true) :
    rename classes ids properties ('#' :: (name ++ ['{', '}'])) =
      '#' :: (short ++ ['{', '}']) := by
  have hcode : CodeOnly ('#' :: (name ++ ['{', '}'])) := by
    have hbraces : CodeOnly ['{', '}'] :=
      CodeOnly.append (.single (c := '{') (by decide)) (.single (c := '}') (by decide))
    exact CodeOnly.append (.single (c := '#') (by decide))
      ((CodeOnly.identChars hchars).append hbraces)
  have htoken := hcode [] (by simp)
  rw [List.append_nil] at htoken
  have hdot : '.' ∉ '#' :: (name ++ ['{', '}']) := by
    intro hmem
    rcases List.mem_cons.mp hmem with h | hmem
    · exact absurd h (by decide)
    rcases List.mem_append.mp hmem with hmem | hmem
    · exact absurd (hchars '.' hmem) (by decide)
    · exact absurd hmem (by decide)
  have hnew : ∀ c ∈ '#' :: (short ++ ['{', '}']), isAsciiLetter c = true ∨ c ∈ ['#', '{', '}'] := by
    intro c hc
    rcases List.mem_cons.mp hc with rfl | hc
    · exact .inr (by decide)
    rcases List.mem_append.mp hc with hc | hc
    · exact .inl (hletters c hc)
    · exact .inr (List.mem_cons_of_mem _ hc)
  have hnot : ∀ c, isAsciiLetter c = false → c ∉ ['#', '{', '}'] →
      c ∉ '#' :: (short ++ ['{', '}']) := by
    intro c hletter hsign hmem
    rcases hnew c hmem with h | h
    · rw [hletter] at h
      cases h
    · exact hsign h
  have hbracket : ∀ c ∈ '#' :: (short ++ ['{', '}']), matchesLetter '(' c = false := by
    intro c hc
    rcases hnew c hc with h | h
    · exact matchesLetter_bracket_of_letter h
    · have hsigns : (['#', '{', '}'].all fun d => !matchesLetter '(' d) = true := by decide
      simpa using List.all_eq_true.mp hsigns c h
  rw [rename, mapCode_of_code _ (List.cons_ne_nil _ _) htoken, renameCode,
    renameMarked_of_not_mem (.inl rfl) classes hdot,
    renameMarked_hash hchars hmarkable hfind (by decide +kernel) (by decide),
    escape_of_letters hletters,
    renameProperties_of_not_mem properties (hnot '-' (by decide) (by decide)),
    AttributeSelector.renameAll_of_not_mem classes ids (hnot '[' (by decide) (by decide)),
    UrlFragment.renameAll_of_no_bracket ids hbracket]

end Hash

end Stylesheet

/-- **A literal that is the number sign and a renamed id gets the short name**, unless it is an id as
a whole. -/
theorem Literal.renameIds_hash {ids : RenameMap} {name short : Text}
    (hchars : ∀ c ∈ name, Stylesheet.isIdentChar c = true)
    (hmarkable : Stylesheet.isMarkable '#' name = true) (hfind : ids.find? name = some short)
    (hletters : ∀ c ∈ short, isAsciiLetter c = true) :
    Literal.renameIds ids ('#' :: name) = (ids.find? ('#' :: name)).getD ('#' :: short) := by
  have hcolor : Literal.isHexColorLiteral ('#' :: name) = false := by
    simp only [Stylesheet.isMarkable, Bool.and_eq_true, Bool.not_eq_true'] at hmarkable
    simpa [Literal.isHexColorLiteral] using hmarkable.2
  have hselectors : ∀ f, Literal.IdSelector.matcher.replaceAll f ('#' :: name) = '#' :: name := by
    intro f
    refine Matcher.replaceAll_of_not_found fun before c rest hsuffix => ?_
    have hc : c ≠ '[' := by
      rintro rfl
      rcases List.mem_cons.mp (hsuffix.subset List.mem_cons_self) with h | h
      · exact absurd h (by decide)
      · exact absurd (hchars '[' h) (by decide)
    simp [Literal.IdSelector.matcher, Matcher.ofPattern, hc]
  have hmarked := Stylesheet.renameMarked_hash hchars hmarkable hfind Stylesheet.identLength_nil
    List.not_mem_nil
  rw [List.append_nil, List.append_nil, Stylesheet.escape_of_letters hletters] at hmarked
  rw [Literal.renameIds, if_neg (by simp [hcolor])]
  cases hwhole : ids.find? ('#' :: name) with
  | some whole => rfl
  | none =>
    simp only [hselectors, hmarked]
    rfl

/-- **A renamed id is renamed behind a number sign too**, if its name is one of identifier characters
that neither begins with a digit nor reads as a hex colour: in a selector, and in a literal that is
the number sign and the id. A literal that is itself a renamed id is renamed as that id. -/
theorem renamed_id_behind_number_sign (decode : Text → Text) (minLength : Nat)
    (scans : List FileScan) (settings : Settings) (name short : Text)
    (hfind : ((Harvest.ofScans decode minLength scans).renames settings).ids.find? name =
      some short)
    (hchars : name.all Stylesheet.isIdentChar = true)
    (hdigit : Stylesheet.startsWithDigit name = false)
    (hcolor : Stylesheet.isHexColor name = false) :
    let renames := (Harvest.ofScans decode minLength scans).renames settings
    Stylesheet.rename renames.classes renames.ids renames.properties
        ('#' :: (name ++ ['{', '}'])) = '#' :: (short ++ ['{', '}']) ∧
      Literal.renameIds renames.ids ('#' :: name) =
        (renames.ids.find? ('#' :: name)).getD ('#' :: short) := by
  intro renames
  have hids : renames.ids.ShortNames [] := Inventory.shortNames _ _ _
  obtain ⟨word, hword, -, hletters⟩ := hids.spelled hfind
  obtain rfl : short = word := hword
  have hne : name ≠ [] := by
    rintro rfl
    exact absurd (hids.smaller hfind) (Nat.not_lt_zero _)
  have hmarkable : Stylesheet.isMarkable '#' name = true := by
    simp [Stylesheet.isMarkable, hne, hdigit, hcolor]
  rw [List.all_eq_true] at hchars
  exact ⟨Stylesheet.rename_hashSelector hchars hmarkable hfind hletters,
    Literal.renameIds_hash hchars hmarkable hfind hletters⟩

/-- An id with a hyphen at its beginning is named `a` behind a number sign. -/
theorem renamed_id_behind_number_sign_hyphen :
    let scans : List FileScan :=
      [⟨"a.css".toList, .ofStylesheet "#-main_2\x7btop:0\x7d".toList⟩,
       ⟨"b.js".toList, .ofScript "f(\"-main_2\");".toList⟩]
    let renames := (Harvest.ofScans Markup.decodeReferences 6 scans).renames {}
    renames.ids.find? "-main_2".toList = some "a".toList ∧
      Stylesheet.rename renames.classes renames.ids renames.properties
        "#-main_2\x7b\x7d".toList = "#a\x7b\x7d".toList ∧
      Literal.renameIds renames.ids "#-main_2".toList = "#a".toList := by
  intro scans renames
  have hfind : renames.ids.find? "-main_2".toList = some "a".toList := by decide +kernel
  obtain ⟨hselector, hliteral⟩ := renamed_id_behind_number_sign Markup.decodeReferences 6 scans {}
    "-main_2".toList "a".toList hfind (by decide) (by decide) (by decide)
  refine ⟨hfind, hselector, hliteral.trans ?_⟩
  have hwhole : renames.ids.find? "#-main_2".toList = none := by decide +kernel
  exact congrArg (Option.getD · _) hwhole

/-- An address declares an id that reads as a hex colour: the id is renamed, but its selector stays.
And an attribute selector declares an id that begins with a number sign: a literal in which that is
the mark of another id is taken for it. -/
theorem number_sign_positions_kept :
    (let scans : List FileScan :=
        [⟨"a.css".toList, .ofStylesheet "path\x7bfill:url(#facade)\x7d".toList⟩,
         ⟨"b.js".toList, .ofScript "f(\"facade\");".toList⟩]
      let renames := (Harvest.ofScans Markup.decodeReferences 6 scans).renames {}
      let name := "facade".toList
      renames.ids.find? name = some "a".toList ∧
        name.all Stylesheet.isIdentChar = true ∧ Stylesheet.startsWithDigit name = false ∧
        Stylesheet.rename renames.classes renames.ids renames.properties
          ('#' :: (name ++ ['{', '}'])) ≠ "#a\x7b\x7d".toList ∧
        Literal.renameIds renames.ids ('#' :: name) ≠ "#a".toList) ∧
    (let scans : List FileScan :=
        [⟨"a.css".toList,
          .ofStylesheet "[id=\"#long-name\"]\x7btop:0\x7d#long-name\x7btop:1\x7d".toList⟩,
         ⟨"b.js".toList, .ofScript "f(\"#long-name\",\"long-name\");".toList⟩]
      let renames := (Harvest.ofScans Markup.decodeReferences 6 scans).renames {}
      let name := "long-name".toList
      renames.ids.find? name = some "b".toList ∧
        name.all Stylesheet.isIdentChar = true ∧ Stylesheet.startsWithDigit name = false ∧
        Literal.renameIds renames.ids ('#' :: name) = "a".toList) := by
  refine ⟨by decide +kernel, ?_⟩
  intro scans renames name
  have hshares : (Harvest.ofScans Markup.decodeReferences 6 scans).ids =
      Inventory.ofNames
        { declared := ["long-name".toList, "#long-name".toList]
          spellings := [("long-name".toList, "long-name".toList)] }
        [⟨["#long-name".toList], [], ["#long-name".toList]⟩,
          ⟨["long-name".toList], [], ["long-name".toList]⟩] :=
    congrArg₂ Inventory.ofNames (by decide +kernel) (by decide +kernel)
  -- the kernel evaluates no sort, so the names are given in their order
  have hnames : nameSet ["long-name".toList, "#long-name".toList] =
      ["#long-name".toList, "long-name".toList] :=
    sorted_eq (by decide +kernel) (by decide +kernel)
  let records : List Record :=
    [⟨"#long-name".toList, [], 2, false⟩, ⟨"long-name".toList, ["long-name".toList], 2, false⟩]
  have hinventory : (Harvest.ofScans Markup.decodeReferences 6 scans).ids =
      { records, reserved := ["#long-name".toList, "long-name".toList] } := by
    rw [hshares, Inventory.ofNames]
    refine congrArg₂ Inventory.mk ?_ (sorted_eq (by decide +kernel) (by decide +kernel))
    rw [hnames]
    decide +kernel
  have hranked : Naming.ranked (records.map Record.candidate) =
      ["#long-name".toList, "long-name".toList] :=
    List.mergeSort_of_pairwise (by decide +kernel)
  have hids : renames.ids =
      ⟨[("#long-name".toList, "a".toList), ("long-name".toList, "b".toList)]⟩ := by
    simp only [renames, Harvest.renames, hinventory, Inventory.renames, Naming.allocate, hranked]
    decide +kernel
  rw [hids]
  decide +kernel

end WebTrim
