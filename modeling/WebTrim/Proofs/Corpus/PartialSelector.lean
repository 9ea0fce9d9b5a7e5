import WebTrim.Proofs.Corpus.Agreement

/-!
# Selectors that match parts of names

A selector such as `[class*="btn"]` matches every name that holds its value. A declared name that it
matches keeps its spelling, so no match is lost; but a short name may hold the value where the name
did not, and then a match is gained.

* `MatchesKept` — a value stands in the new form of a name exactly if it stands in the name.
* `NameSide.matches_cases` — what becomes of the matches of one side.
* `partial_matches_kept_iff` — **matches are kept exactly where no short name holds the value**.
* `partial_match_gained` — a class and an id that match only when they are renamed.
-/

set_option autoImplicit false

namespace WebTrim

open Text

/-- A value stands in the new form of a name exactly if it stands in the name. -/
def MatchesKept (m : RenameMap) (pattern name : Text) : Prop :=
  pattern <:+: m.rename name ↔ pattern <:+: name

/-- Where matched names keep their spelling, matches change exactly at short names that hold the
value. -/
theorem matchesKept_iff {m : RenameMap} {pattern name : Text}
    (hpinned : pattern <:+: name → m.find? name = none) :
    MatchesKept m pattern name ↔ ∀ short, m.find? name = some short → ¬ pattern <:+: short := by
  unfold MatchesKept
  cases hfind : m.find? name with
  | none => simp [RenameMap.rename_of_find?_none hfind]
  | some short =>
    have hunmatched : ¬ pattern <:+: name := by
      intro hname
      rw [hpinned hname] at hfind
      cases hfind
    simp [RenameMap.rename_of_find? hfind, hunmatched]

/-- A value with a character that is no letter stands in no word of letters. -/
theorem not_infix_of_letters {pattern word : Text} (hword : ∀ c ∈ word, isAsciiLetter c = true)
    (hpattern : ∃ c ∈ pattern, isAsciiLetter c = false) : ¬ pattern <:+: word := by
  obtain ⟨c, hc, hletter⟩ := hpattern
  intro hpart
  rw [hword c (hpart.subset hc)] at hletter
  cases hletter

namespace NameSide

variable {side : NameSide} {decode : Text → Text} {scans : List FileScan} {pattern name : Text}

/-- The value of a selector of the corpus that matches parts of names. -/
def IsPattern (side : NameSide) (scans : List FileScan) (pattern : Text) : Prop :=
  ∃ scan ∈ scans, pattern ∈ (side.findings scan.findings).patterns

/-- A name that a selector matches in part keeps its spelling. -/
theorem find?_eq_none_of_matched {on : Bool} (hpattern : side.IsPattern scans pattern)
    (hname : pattern <:+: name) :
    ((side.inventory decode scans).renames on .latin []).find? name = none := by
  by_contra hfound
  obtain ⟨short, hshort⟩ := Option.ne_none_iff_exists'.mp hfound
  obtain ⟨record, hrecord, hfree, rfl⟩ := Inventory.exists_record
    (List.mem_map_of_mem (RenameMap.mem_entries_of_find? hshort))
  obtain ⟨-, -, -, hpatterns⟩ := Inventory.of_record_ofNames hrecord hfree
  have hfalse := hpatterns pattern
    ((side.mem_concat NameFindings.patterns rfl (fun _ _ => rfl)).mpr hpattern)
  obtain ⟨before, after, hsplit⟩ := hname
  have htrue := (occursIn_iff pattern record.name).mpr ⟨before, after, hsplit.symm⟩
  rw [hfalse] at htrue
  cases htrue

/-- What becomes of the matches of one side: none is lost, one is gained exactly where a short name
holds the value, and so none is if the value has a character that is no letter. -/
theorem matches_cases {on : Bool} (hpattern : side.IsPattern scans pattern) (name : Text) :
    let m := (side.inventory decode scans).renames on .latin []
    (pattern <:+: name → m.rename name = name) ∧
      (MatchesKept m pattern name ↔ ∀ short, m.find? name = some short → ¬ pattern <:+: short) ∧
      ((∃ c ∈ pattern, isAsciiLetter c = false) → MatchesKept m pattern name) := by
  intro m
  have hpinned : pattern <:+: name → m.find? name = none := find?_eq_none_of_matched hpattern
  have hkept := matchesKept_iff hpinned
  refine ⟨fun hname => RenameMap.rename_of_find?_none (hpinned hname), hkept, fun hchar => ?_⟩
  rw [hkept]
  intro short hshort
  obtain ⟨word, rfl, -, hletters⟩ := (Inventory.shortNames on [] _).spelled hshort
  exact not_infix_of_letters hletters hchar

end NameSide

/-- **A selector that matches parts of names keeps its matches exactly where no short name holds its
value.** A class or an id that it matches is not renamed, so that no match is lost; one that it does
not match is matched after all if its short name holds the value. A value that is not made of letters
only keeps all its matches. -/
theorem partial_matches_kept_iff (decode : Text → Text) (minLength : Nat) (scans : List FileScan)
    (settings : Settings) :
    let renames := (Harvest.ofScans decode minLength scans).renames settings
    (∀ pattern, NameSide.classes.IsPattern scans pattern → ∀ name,
      (pattern <:+: name → renames.classes.rename name = name) ∧
        (MatchesKept renames.classes pattern name ↔
          ∀ short, renames.classes.find? name = some short → ¬ pattern <:+: short) ∧
        ((∃ c ∈ pattern, isAsciiLetter c = false) → MatchesKept renames.classes pattern name)) ∧
    ∀ pattern, NameSide.ids.IsPattern scans pattern → ∀ name,
      (pattern <:+: name → renames.ids.rename name = name) ∧
        (MatchesKept renames.ids pattern name ↔
          ∀ short, renames.ids.find? name = some short → ¬ pattern <:+: short) ∧
        ((∃ c ∈ pattern, isAsciiLetter c = false) → MatchesKept renames.ids pattern name) := by
  intro renames
  simp only [renames, Harvest.renames, NameSide.inventory_classes, NameSide.inventory_ids]
  exact ⟨fun _ hpattern name => NameSide.matches_cases hpattern name,
    fun _ hpattern name => NameSide.matches_cases hpattern name⟩

/-- The value `x` stands neither in the class nor in its short name, so the selector goes on to match
neither. -/
theorem partial_matches_kept_iff_unmatched :
    let scans : List FileScan :=
      [⟨"a.css".toList,
        .ofStylesheet "[class*=\"x\"]\x7btop:0\x7d.modern\x7btop:1\x7d".toList⟩,
       ⟨"b.js".toList, .ofScript "el.className=\"modern\";".toList⟩]
    let classes := ((Harvest.ofScans Markup.decodeReferences 6 scans).renames {}).classes
    NameSide.classes.IsPattern scans ['x'] ∧ classes.find? "modern".toList = some ['a'] ∧
      MatchesKept classes ['x'] "modern".toList := by
  intro scans classes
  have hpattern : NameSide.classes.IsPattern scans ['x'] :=
    ⟨_, List.mem_cons_self, by decide +kernel⟩
  have hfind : classes.find? "modern".toList = some ['a'] := by decide +kernel
  have hmatches :=
    (partial_matches_kept_iff Markup.decodeReferences 6 scans {}).1 ['x'] hpattern "modern".toList
  refine ⟨hpattern, hfind, hmatches.2.1.mpr fun short hshort => ?_⟩
  obtain rfl : ['a'] = short := Option.some.inj (hfind.symm.trans hshort)
  decide

/-- A class and an id without the letter `a` that selectors by that letter match once they are named
`a`. -/
theorem partial_match_gained :
    (let scans : List FileScan :=
        [⟨"a.css".toList,
          .ofStylesheet "[class*=\"a\"]\x7btop:0\x7d.modern\x7btop:1\x7d".toList⟩,
         ⟨"b.js".toList, .ofScript "el.className=\"modern\";".toList⟩]
      let classes := ((Harvest.ofScans Markup.decodeReferences 6 scans).renames {}).classes
      NameSide.classes.IsPattern scans ['a'] ∧
        NameSide.classes.declares scans "modern".toList = true ∧
        ['a'] <:+: classes.rename "modern".toList ∧ ¬ ['a'] <:+: "modern".toList) ∧
    (let scans : List FileScan :=
        [⟨"a.css".toList, .ofStylesheet "[id^=\"a\"]\x7btop:0\x7d#corner\x7btop:1\x7d".toList⟩,
         ⟨"b.js".toList, .ofScript "f(\"corner\");".toList⟩]
      let ids := ((Harvest.ofScans Markup.decodeReferences 6 scans).renames {}).ids
      NameSide.ids.IsPattern scans ['a'] ∧
        NameSide.ids.declares scans "corner".toList = true ∧
        ['a'] <:+: ids.rename "corner".toList ∧ ¬ ['a'] <:+: "corner".toList) := by
  refine ⟨?_, ?_⟩
  · intro scans classes
    refine ⟨⟨_, List.mem_cons_self, by decide +kernel⟩, by decide +kernel, ?_, by decide⟩
    have hrename : classes.rename "modern".toList = ['a'] := by decide +kernel
    exact hrename ▸ List.infix_refl _
  · intro scans ids
    refine ⟨⟨_, List.mem_cons_self, by decide +kernel⟩, by decide +kernel, ?_, by decide⟩
    have hrename : ids.rename "corner".toList = ['a'] := by decide +kernel
    exact hrename ▸ List.infix_refl _

end WebTrim
