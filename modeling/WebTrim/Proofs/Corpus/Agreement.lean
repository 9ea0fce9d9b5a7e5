import WebTrim.Proofs.Corpus.Safety
import WebTrim.Proofs.Literal.Rename

/-!
# Where the renamed forms of a class agree

A class that is renamed stands in stylesheets, in documents and in the literals of scripts. A name
that begins with a digit after the mark is read as a number, so its selector is passed over.

* `Inventory.shortNames` — the maps of a corpus give words of letters.
* `renamed_class_agreement` — **the three kinds of file agree on the short name**.
* `digit_class_selector_kept` — a renamed class whose selector is passed over.
-/

set_option autoImplicit false

namespace WebTrim

open Text

/-- The short names of a category are words of letters, smaller than their names and distinct. -/
theorem Inventory.shortNames (on : Bool) (lead : Text) (names : Inventory) :
    (names.renames on .latin lead).ShortNames lead := by
  obtain ⟨run, hentries, hrun⟩ := names.renames_sound on .latin lead
  exact hrun.shortNames hentries

/-- **The three kinds of file agree on a renamed class.** A renamed class that is a class token
without an ampersand gets its short name as the value of a class attribute. As a selector it does
so exactly if it does not begin with a digit. As a literal it does so if it holds no custom property
and no markup that is renamed in its own right. -/
theorem renamed_class_agreement (minLength : Nat) (scans : List FileScan) (settings : Settings)
    (name short : Text)
    (hfind : ((Harvest.ofScans Markup.decodeReferences minLength scans).renames
      settings).classes.find? name = some short)
    (hchars : name.all Literal.isClassTokenChar = true) (hamp : '&' ∉ name) :
    let renames := (Harvest.ofScans Markup.decodeReferences minLength scans).renames settings
    Markup.renameAttribute Markup.decodeReferences renames "class".toList name = short ∧
      (Stylesheet.rename renames.classes renames.ids renames.properties
          ('.' :: (Stylesheet.escape name ++ ['{'])) = '.' :: (short ++ ['{']) ↔
        Stylesheet.startsWithDigit name = false) ∧
      (Literal.renameEmbedded Markup.decodeReferences renames name = name →
        Literal.rename Markup.decodeReferences renames name = short) := by
  intro renames
  have hclasses : renames.classes.ShortNames [] := Inventory.shortNames _ _ _
  have hids : renames.ids.ShortNames [] := Inventory.shortNames _ _ _
  have hproperties : renames.properties.ShortNames "--".toList := Inventory.shortNames _ _ _
  have hsmaller := hclasses.smaller hfind
  obtain ⟨word, hword, hne, hletters⟩ := hclasses.spelled hfind
  obtain rfl : short = word := hword
  have htoken : Literal.IsClassToken name := by
    refine ⟨?_, by simpa using hchars⟩
    rintro rfl
    exact absurd hsmaller (Nat.not_lt_zero _)
  have hnul : ∀ c ∈ name, c.toNat ≠ 0 := fun c hc =>
    (Literal.isClassTokenChar_spec (htoken.chars c hc)).2.2.2
  have hliteral := Literal.rename_class_iff Markup.decodeReferences htoken hclasses hids
    hproperties hfind
  refine ⟨?_, ?_, ?_⟩
  · exact Literal.renameAttribute_class htoken hamp hfind hletters
  · exact Stylesheet.rename_selector_iff hfind htoken.nonempty hnul hne hletters
  · intro hkept
    exact hliteral.mpr (.inl hkept)

/-- A class that a selector writes with two escapes is named `a` in all three kinds of file. -/
theorem renamed_class_agreement_escaped :
    let scans : List FileScan :=
      [⟨"a.css".toList, .ofStylesheet ".md\\:w-1\\/2\x7bwidth:50%\x7d".toList⟩,
       ⟨"b.js".toList, .ofScript "el.className=\"md:w-1/2\";".toList⟩]
    let renames := (Harvest.ofScans Markup.decodeReferences 6 scans).renames {}
    let name := "md:w-1/2".toList
    renames.classes.find? name = some "a".toList ∧
      Markup.renameAttribute Markup.decodeReferences renames "class".toList name = "a".toList ∧
      Stylesheet.rename renames.classes renames.ids renames.properties
        ('.' :: (Stylesheet.escape name ++ ['{'])) = ".a\x7b".toList ∧
      Literal.rename Markup.decodeReferences renames name = "a".toList := by
  intro scans renames name
  have hfind : renames.classes.find? name = some "a".toList := by decide +kernel
  obtain ⟨hdocument, hstylesheet, hscript⟩ :=
    renamed_class_agreement 6 scans {} name "a".toList hfind (by decide) (by decide)
  exact ⟨hfind, hdocument, hstylesheet.mpr (by decide), hscript (by decide +kernel)⟩

/-- An attribute selector declares a class that begins with a digit, and documents and scripts name
it `a`; the selector that escapes the digit stays. -/
theorem digit_class_selector_kept :
    let scans : List FileScan :=
      [⟨"a.css".toList,
        .ofStylesheet "[class~=\"2columns\"]\x7bcolor:red\x7d".toList⟩,
       ⟨"b.js".toList, .ofScript "el.className=\"2columns\";".toList⟩]
    let renames := (Harvest.ofScans Markup.decodeReferences 6 scans).renames {}
    let name := "2columns".toList
    renames.classes.find? name = some "a".toList ∧
      name.all Literal.isClassTokenChar = true ∧ '&' ∉ name ∧
      Stylesheet.rename renames.classes renames.ids renames.properties
        ('.' :: (Stylesheet.escape name ++ ['{'])) ≠ ".a\x7b".toList := by
  decide +kernel

end WebTrim
