import WebTrim.Proofs.Corpus.Agreement
import WebTrim.Proofs.Markup.EscapedTag

/-!
# Markup in literals with double quotes

The same markup may stand in a literal with single quotes, or with its double quotes escaped in a
literal with double quotes. Renaming treats the two alike only as far as custom properties go.

* `RenameMap.ShortNames.shortens` — short names of a corpus make texts smaller.
* `escaped_markup_renamed_alike_iff` — **escaped markup is renamed as the markup is exactly if no
  class and no id of the markup is renamed**.
* `escaped_class_kept` — a class that is renamed in the markup, but not in the escaped markup.
-/

set_option autoImplicit false

namespace WebTrim

open Text

theorem RenameMap.ShortNames.shortens {lead : Text} {m : RenameMap} (h : m.ShortNames lead) :
    m.Shortens lead isAsciiLetter where
  smaller := h.smaller
  spelled := by
    intro name short hfind
    obtain ⟨word, hword, -, hletters⟩ := h.spelled hfind
    exact ⟨word, hword, hletters⟩

/-- **Escaped markup is renamed as the markup is exactly if renaming the markup changes nothing but
custom properties.** The values of the markup stand in double quotes, it holds no number sign, and
its escaped form is no id. -/
theorem escaped_markup_renamed_alike_iff (minLength : Nat) (scans : List FileScan)
    (settings : Settings) (markup : Text) (hquoted : Markup.valuesQuoted markup = true)
    (hmem : '"' ∈ markup) (hsign : '#' ∉ markup) :
    let renames := (Harvest.ofScans Markup.decodeReferences minLength scans).renames settings
    let kept := Stylesheet.renameProperties renames.properties markup
    renames.ids.find? (Markup.escapeQuotes kept) = none →
      Literal.rename Markup.decodeReferences renames (Markup.escapeQuotes markup) =
          Markup.escapeQuotes kept ∧
        (Literal.rename Markup.decodeReferences renames (Markup.escapeQuotes markup) =
            Markup.escapeQuotes (Literal.rename Markup.decodeReferences renames markup) ↔
          Literal.rename Markup.decodeReferences renames markup = kept) := by
  intro renames kept hwhole
  have hclasses : renames.classes.ShortNames [] := Inventory.shortNames _ _ _
  have hids : renames.ids.ShortNames [] := Inventory.shortNames _ _ _
  have hproperties : renames.properties.ShortNames "--".toList := Inventory.shortNames _ _ _
  have hnone : '#' ∉ Markup.escapeQuotes kept := by
    rw [Markup.mem_escapeQuotes (by decide),
      Stylesheet.mem_renameProperties hproperties.shortens (by decide)]
    exact hsign
  have hrename : Literal.rename Markup.decodeReferences renames (Markup.escapeQuotes markup) =
      Markup.escapeQuotes kept := by
    rw [Markup.rename_escapeQuotes hclasses hids hproperties.shortens hquoted hmem, hwhole,
      Option.getD_none, Stylesheet.renameMarked_of_not_mem (.inr rfl) _ hnone]
  refine ⟨hrename, ?_⟩
  rw [hrename]
  constructor
  · intro h
    exact (Markup.escapeQuotes_injective h).symm
  · intro h
    rw [h]

/-- A custom property gets its short name in the escaped markup as in the markup. -/
theorem escaped_markup_renamed_alike_property :
    let scans : List FileScan :=
      [⟨"a.css".toList, .ofStylesheet "p\x7b--main-size:1px;width:var(--main-size)\x7d".toList⟩,
       ⟨"b.js".toList, .ofScript "x=\"<p style=\\\"width:var(--main-size)\\\">\";".toList⟩]
    let renames := (Harvest.ofScans Markup.decodeReferences 6 scans).renames {}
    let markup := "<p style=\"width:var(--main-size)\">".toList
    Markup.valuesQuoted markup = true ∧ '"' ∈ markup ∧ '#' ∉ markup ∧
      Literal.rename Markup.decodeReferences renames markup =
        "<p style=\"width:var(--a)\">".toList ∧
      Literal.rename Markup.decodeReferences renames (Markup.escapeQuotes markup) =
        "<p style=\\\"width:var(--a)\\\">".toList := by
  intro scans renames markup
  have hquoted : Markup.valuesQuoted markup = true := by decide
  have hmem : '"' ∈ markup := by decide
  have hsign : '#' ∉ markup := by decide
  have hproperties : renames.properties = ⟨[("--main-size".toList, "--a".toList)]⟩ := by
    decide +kernel
  have hids : renames.ids = ⟨[]⟩ := by decide +kernel
  have hwhole : renames.ids.find? (Markup.escapeQuotes
      (Stylesheet.renameProperties renames.properties markup)) = none := by
    rw [hids]
    rfl
  have hkept : Stylesheet.renameProperties renames.properties markup =
      "<p style=\"width:var(--a)\">".toList := by
    rw [hproperties]
    decide +kernel
  have hmarkup : Literal.rename Markup.decodeReferences renames markup =
      "<p style=\"width:var(--a)\">".toList := by
    decide +kernel
  obtain ⟨-, halike⟩ := escaped_markup_renamed_alike_iff 6 scans {} markup hquoted hmem hsign hwhole
  refine ⟨hquoted, hmem, hsign, hmarkup, (halike.mpr (hmarkup.trans hkept.symm)).trans ?_⟩
  exact (congrArg Markup.escapeQuotes hmarkup).trans (by decide)

/-- A script holds markup with escaped quotes. The class in it is renamed in the stylesheet and in
the same markup with plain quotes, but not in the escaped markup. -/
theorem escaped_class_kept :
    let script := "e.className=\"long-name\";x=\"<p class=\\\"long-name\\\">\";".toList
    let scans : List FileScan :=
      [⟨"a.css".toList, .ofStylesheet ".long-name\x7btop:0\x7d".toList⟩,
       ⟨"b.js".toList, .ofScript script⟩]
    let renames := (Harvest.ofScans Markup.decodeReferences 6 scans).renames {}
    let markup := "<p class=\"long-name\">".toList
    '\\' ∉ markup ∧ Markup.tags markup = [markup] ∧
      Markup.escapeQuotes markup ∈ Script.literals script ∧
      renames.classes.find? "long-name".toList = some "a".toList ∧
      Literal.rename Markup.decodeReferences renames markup = "<p class=\"a\">".toList ∧
      Literal.rename Markup.decodeReferences renames (Markup.escapeQuotes markup) ≠
        Markup.escapeQuotes (Literal.rename Markup.decodeReferences renames markup) := by
  intro script scans renames markup
  -- the backslash before the quote is counted as a class of its own; the kernel evaluates no sort, so
  -- the names are given in their order
  have hinventory : (Harvest.ofScans Markup.decodeReferences 6 scans).classes =
      { records := [⟨"long-name".toList, ["long-name".toList], 2, false⟩]
        reserved := ["<p".toList, "\\".toList, "long-name".toList] } :=
    congrArg₂ Inventory.mk (by decide +kernel) (sorted_eq (by decide +kernel) (by decide +kernel))
  have hclasses : renames.classes = ⟨[("long-name".toList, "a".toList)]⟩ := by
    simp only [renames, Harvest.renames, hinventory]
    decide +kernel
  have hids : renames.ids = ⟨[]⟩ := by decide +kernel
  have hproperties : renames.properties = ⟨[]⟩ := by decide +kernel
  have hscopes : renames.scopes = ⟨[]⟩ := by decide +kernel
  have hrenames : renames = { classes := ⟨[("long-name".toList, "a".toList)]⟩ } := by
    rw [← hclasses]
    exact congrArg₂ (fun p q => Renames.mk p renames.classes q.1 q.2 renames.scopeLead) hproperties
      (congrArg₂ Prod.mk hids hscopes)
  rw [hrenames]
  decide +kernel

end WebTrim
