import Mathlib.Data.List.Forall2
import WebTrim.Proofs.Corpus.Order
import WebTrim.Toolkit

/-!
# Where renamed custom properties come from

A custom property needs no declaration to be renamed. Those of stylesheets and those in the literals
of scripts are counted together, and every one that is long enough is up for renaming. What stands
elsewhere, in the strings of a stylesheet or in the code and the comments of a script, is not.

* `PropertyFound` — a property in the code of a stylesheet, or in a literal of a script.
* `exists_scans` — stylesheets and scripts can always be scanned, and what their scans list.
* `renamed_property_found` — **exactly the properties that are found so are up for renaming**, and
  only those are renamed.
* `property_renamed_without_stylesheet` — one that no stylesheet has.
-/

set_option autoImplicit false

namespace WebTrim

open Text

/-- A stylesheet or a script, by the ending of its path. -/
def IsStylesheetOrScript (file : Text × Text) : Prop :=
  FileKind.ofPath? file.1 = some .stylesheet ∨ FileKind.ofPath? file.1 = some .script

/-- The property stands in the code of a stylesheet, or in a literal of a script. -/
def PropertyFound (files : List (Text × Text)) (name : Text) : Prop :=
  (∃ file ∈ files, FileKind.ofPath? file.1 = some .stylesheet ∧
    name ∈ Stylesheet.customProperties file.2) ∨
  ∃ file ∈ files, FileKind.ofPath? file.1 = some .script ∧
    ∃ literal ∈ Script.literals file.2, name ∈ Stylesheet.propertiesIn literal

/-! ## Scans -/

/-- The scans of files, one for each. -/
def ScansOf (readFacts : Text → Except Crash Markup.Facts) (lead : Text) :
    List (Text × Text) → List FileScan → Prop :=
  List.Forall₂ fun file scan => FileScan.ofFile readFacts lead file.1 file.2 = .ok scan

/-- A stylesheet or a script can always be scanned; this is what its scan lists. -/
theorem exists_scan (readFacts : Text → Except Crash Markup.Facts) (lead : Text)
    {file : Text × Text} (h : IsStylesheetOrScript file) :
    ∃ scan, FileScan.ofFile readFacts lead file.1 file.2 = .ok scan ∧
      ∀ name, name ∈ scan.findings.properties ↔ PropertyFound [file] name := by
  rcases h with h | h
  · refine ⟨_, by simp only [FileScan.ofFile, h]; rfl, fun name => ?_⟩
    simp [PropertyFound, h, Findings.append, Findings.ofStylesheet]
  · refine ⟨_, by simp only [FileScan.ofFile, h]; rfl, fun name => ?_⟩
    simp [PropertyFound, h, Findings.append, Findings.ofScript]

theorem propertyFound_cons {file : Text × Text} {files : List (Text × Text)} {name : Text} :
    PropertyFound (file :: files) name ↔ PropertyFound [file] name ∨ PropertyFound files name := by
  simp only [PropertyFound, List.mem_cons, List.not_mem_nil, or_false, exists_eq_or_imp,
    exists_eq_left]
  exact or_or_or_comm

/-- The scans of stylesheets and scripts list the properties that are found in them. -/
theorem exists_scans (readFacts : Text → Except Crash Markup.Facts) (lead : Text)
    {files : List (Text × Text)} (h : ∀ file ∈ files, IsStylesheetOrScript file) :
    ∃ scans, ScansOf readFacts lead files scans ∧
      ∀ name, (∃ scan ∈ scans, name ∈ scan.findings.properties) ↔ PropertyFound files name := by
  induction files with
  | nil => exact ⟨[], .nil, by simp [PropertyFound]⟩
  | cons file files ih =>
    obtain ⟨scan, hscan, hfile⟩ := exists_scan readFacts lead (h file List.mem_cons_self)
    obtain ⟨scans, hscans, hfiles⟩ := ih fun f hf => h f (List.mem_cons_of_mem _ hf)
    refine ⟨scan :: scans, .cons hscan hscans, fun name => ?_⟩
    rw [propertyFound_cons, ← hfile, ← hfiles]
    simp

/-! ## The harvest -/

/-- The names that are up for renaming wherever they occur: those found that are wanted. -/
theorem Inventory.exists_record_ofOccurrences {wanted : Text → Bool} {found others : List Text}
    {name : Text} :
    (∃ record ∈ (ofOccurrences wanted found others).records,
      record.reserved = false ∧ record.name = name) ↔ wanted name = true ∧ name ∈ found := by
  constructor
  · rintro ⟨record, hrecord, -, rfl⟩
    obtain ⟨n, hn, rfl⟩ := List.mem_map.mp hrecord
    rw [List.mem_filter, mem_nameSet] at hn
    exact hn.symm
  · rintro ⟨hwanted, hfound⟩
    refine ⟨_, List.mem_map.mpr ⟨name, ?_, rfl⟩, rfl, rfl⟩
    rw [List.mem_filter, mem_nameSet]
    exact ⟨hfound, hwanted⟩

/-- **The custom properties up for renaming are those found in the code of a stylesheet or in a literal
of a script**, if they are long enough; only they are renamed. Stylesheets and scripts can always be
scanned. They have no harvest only if some name in a literal cannot be decoded. -/
theorem renamed_property_found (readFacts : Text → Except Crash Markup.Facts) (lead : Text)
    (decode : Text → Text) (refusal? : Text → Option Crash) (minLength : Nat) (settings : Settings)
    (files : List (Text × Text)) (hfiles : ∀ file ∈ files, IsStylesheetOrScript file) :
    ∃ scans, ScansOf readFacts lead files scans ∧
      ((∃ harvest, Harvest.combine decode refusal? minLength scans = .ok harvest) ↔
        undecodable refusal? scans = false) ∧
      ∀ harvest, Harvest.combine decode refusal? minLength scans = .ok harvest →
        (∀ name, (∃ record ∈ harvest.properties.records,
            record.reserved = false ∧ record.name = name) ↔
          minLength ≤ byteLength name ∧ PropertyFound files name) ∧
        ∀ name ∈ (harvest.renames settings).properties.names,
          minLength ≤ byteLength name ∧ PropertyFound files name := by
  obtain ⟨scans, hscans, hfound⟩ := exists_scans readFacts lead hfiles
  refine ⟨scans, hscans, ⟨?_, ?_⟩, fun harvest hharvest => ?_⟩
  · rintro ⟨harvest, hharvest⟩
    exact (Harvest.combine_eq_ok_iff.mp hharvest).1
  · intro hdecoded
    exact ⟨_, Harvest.combine_eq_ok_iff.mpr ⟨hdecoded, rfl⟩⟩
  · have hrecords : ∀ name, (∃ record ∈ harvest.properties.records,
        record.reserved = false ∧ record.name = name) ↔
          minLength ≤ byteLength name ∧ PropertyFound files name := by
      intro name
      rw [← (Harvest.combine_eq_ok_iff.mp hharvest).2, ← hfound,
        ← Findings.mem_concat Findings.properties rfl fun _ _ => rfl]
      refine Inventory.exists_record_ofOccurrences.trans ?_
      rw [decide_eq_true_iff]
    exact ⟨hrecords, fun name hname => (hrecords name).mp (Inventory.exists_record hname)⟩

/-- A property that a stylesheet declares and a script sets is up for renaming. -/
theorem renamed_property_found_accent :
    let files : List (Text × Text) :=
      [("a.css".toList, ":root\x7b--accent:red\x7d".toList),
       ("b.js".toList, "el.style.setProperty(\"--accent\",x);".toList)]
    (∀ file ∈ files, IsStylesheetOrScript file) ∧
    ∃ scans, ScansOf Toolkit.standard.readFacts "astro-cid-".toList files scans ∧
      undecodable Toolkit.standard.refusal? scans = false ∧
      ∃ harvest, Harvest.combine Toolkit.standard.decode Toolkit.standard.refusal? 6 scans =
          .ok harvest ∧
        ∃ record ∈ harvest.properties.records,
          record.reserved = false ∧ record.name = "--accent".toList := by
  intro files
  have hfiles : ∀ file ∈ files, IsStylesheetOrScript file := by
    intro file hfile
    simp only [files, List.mem_cons, List.not_mem_nil, or_false] at hfile
    rcases hfile with rfl | rfl
    · exact .inl (by decide +kernel)
    · exact .inr (by decide +kernel)
  obtain ⟨scans, hscans, hresult, hharvest⟩ :=
    renamed_property_found Toolkit.standard.readFacts "astro-cid-".toList Toolkit.standard.decode
      Toolkit.standard.refusal? 6 {} files hfiles
  have hdecoded : undecodable Toolkit.standard.refusal? scans = false := by
    obtain ⟨_, _, hcss, hrest, rfl⟩ := List.forall₂_cons_left_iff.mp hscans
    obtain ⟨_, _, hjs, hnil, rfl⟩ := List.forall₂_cons_left_iff.mp hrest
    obtain rfl := List.forall₂_nil_left_iff.mp hnil
    cases hcss
    cases hjs
    decide +kernel
  obtain ⟨harvest, hcombine⟩ := hresult.mpr hdecoded
  refine ⟨hfiles, scans, hscans, hdecoded, harvest, hcombine, ?_⟩
  refine ((hharvest harvest hcombine).1 _).mpr ⟨by decide, .inl ⟨_, List.mem_cons_self, ?_⟩⟩
  decide +kernel

/-- A flag of a command that only a script mentions is renamed, though no file is a stylesheet. -/
theorem property_renamed_without_stylesheet :
    let path := "a.js".toList
    let script := "run(\"--verbose-mode\");".toList
    ∃ scan harvest,
      FileScan.ofFile Toolkit.standard.readFacts "astro-cid-".toList path script = .ok scan ∧
      Harvest.combine Toolkit.standard.decode Toolkit.standard.refusal? 6 [scan] = .ok harvest ∧
      (harvest.renames {}).properties.find? "--verbose-mode".toList = some "--a".toList ∧
      FileKind.ofPath? path = some .script := by
  intro path script
  refine ⟨_, _, rfl, Harvest.combine_eq_ok_iff.mpr ⟨?_, rfl⟩, ?_, ?_⟩ <;> decide +kernel

end WebTrim
