import WebTrim.Proofs.Corpus.Agreement
import WebTrim.Proofs.Literal.ClassList

/-!
# Literals are renamed as they were counted

When names are gathered, a literal is read against all declared classes and ids; when it is renamed,
against the renamed ones only. Both readings agree on every literal of the corpus.

* `renamable_of_find?_class`, `renamable_of_find?_id` — what holds of a name with a short name.
* `class_literal_renamed_as_harvested` — **exactly the renamed classes among those that a literal was
  counted for get their short names**, and a literal that changes so refers to no renamed id.
-/

set_option autoImplicit false

namespace WebTrim

open Text

section Find

variable {decode : Text → Text} {minLength : Nat} {scans : List FileScan} {settings : Settings}
  {name short : Text}

theorem RenameMap.mem_names_of_find? {m : RenameMap} (h : m.find? name = some short) :
    name ∈ m.names :=
  List.mem_map.mpr ⟨(name, short), mem_entries_of_find? h, rfl⟩

theorem renamable_of_find?_class
    (h : ((Harvest.ofScans decode minLength scans).renames settings).classes.find? name =
      some short) :
    Renamable .classes (classReading scans) (idReading scans) decode scans name := by
  have hname := RenameMap.mem_names_of_find? h
  simp only [Harvest.renames, NameSide.inventory_classes] at hname
  obtain ⟨record, hrecord, hfree, hrec⟩ := Inventory.exists_record hname
  exact (renamable_class hrecord hfree hrec).1

theorem renamable_of_find?_id
    (h : ((Harvest.ofScans decode minLength scans).renames settings).ids.find? name =
      some short) :
    Renamable .ids (idReading scans) (classReading scans) decode scans name := by
  have hname := RenameMap.mem_names_of_find? h
  simp only [Harvest.renames, NameSide.inventory_ids] at hname
  obtain ⟨record, hrecord, hfree, hrec⟩ := Inventory.exists_record hname
  exact renamable_id hrecord hfree hrec

end Find

/-- **A literal is renamed as it was counted.** As a class list, a literal of the corpus keeps its
separators, and of its tokens exactly those change that are renamed and were counted as classes; so
its tokens afterwards are its tokens before, each in its new form. If anything changes, the literal
refers to no renamed id, and renaming it as an id reference would have left it as it is. -/
theorem class_literal_renamed_as_harvested (decode : Text → Text) (minLength : Nat)
    (scans : List FileScan) (settings : Settings) (literal : Text)
    (hliteral : IsLiteral scans literal) :
    let renames := (Harvest.ofScans decode minLength scans).renames settings
    let newToken := Literal.renamedToken renames.classes (classReading scans literal)
    let renamed := Literal.renameClassLiteral renames.classes literal
    (renamed = (Literal.literalPieces literal).flatMap fun p =>
        if p.note then newToken p.text else p.text) ∧
      Literal.literalPieces renamed = (Literal.literalPieces literal).map (fun p =>
        ⟨if p.note then newToken p.text else p.text, p.note⟩) ∧
      Literal.literalTokens renamed = (Literal.literalTokens literal).map newToken ∧
      (renamed ≠ literal →
        Literal.idReferences (fun id => (renames.ids.find? id).isSome) literal = [] ∧
          Literal.renameIds renames.ids literal = literal) := by
  intro renames newToken renamed
  have hshort : renames.classes.ShortNames [] := Inventory.shortNames _ _ _
  have hclasses : ∀ t, (renames.classes.find? t).isSome = true →
      NameSide.classes.declares scans t = true := by
    intro t ht
    obtain ⟨short, hfind⟩ := Option.isSome_iff_exists.mp ht
    exact (renamable_of_find?_class hfind).declared
  have hids : ∀ t, (renames.ids.find? t).isSome = true →
      NameSide.ids.declares scans t = true := by
    intro t ht
    obtain ⟨short, hfind⟩ := Option.isSome_iff_exists.mp ht
    exact (renamable_of_find?_id hfind).declared
  have hpieces : Literal.literalPieces renamed = (Literal.literalPieces literal).map _ :=
    Literal.literalPieces_renameClassLiteral hshort hclasses
  refine ⟨?_, hpieces, Literal.literalTokens_renameClassLiteral hshort hclasses, ?_⟩
  · have htext : (Literal.literalPieces renamed).flatMap Piece.text = renamed := scan_text _ _ _
    rw [hpieces, List.flatMap_map] at htext
    exact htext.symm
  · intro hchanged
    obtain ⟨hlist, token, htoken, hrenamed⟩ := Literal.exists_renamed_of_changed hchanged
    have hread : token ∈ classReading scans literal := Literal.mem_classesOf.mpr
      ⟨Literal.isClassList_mono hclasses hlist, htoken, hclasses token hrenamed⟩
    obtain ⟨short, hfind⟩ := Option.isSome_iff_exists.mp hrenamed
    -- a literal that could also be an id reference would have pinned the class
    have hdeclared : idReading scans literal = [] := by
      by_contra hrival
      exact (renamable_of_find?_class hfind).undoubted literal hliteral hrival hread
    have hnone := Literal.idReferences_mono hids hdeclared
    exact ⟨hnone, Literal.renameIds_of_idReferences hnone⟩

/-- A class list with two blanks and an escaped newline between its tokens; the class in it is
renamed at every place. -/
theorem class_literal_renamed_as_harvested_spaced :
    let scans : List FileScan :=
      [⟨"a.css".toList, .ofStylesheet ".card-body\x7bcolor:red\x7d#main-part\x7btop:0\x7d".toList⟩,
       ⟨"b.js".toList, .ofScript "el.className=\"card-body  card-body\\ncard-body\";".toList⟩]
    let renames := (Harvest.ofScans Markup.decodeReferences 6 scans).renames {}
    let literal := "card-body  card-body\\ncard-body".toList
    IsLiteral scans literal ∧
      Literal.renameClassLiteral renames.classes literal = "a  a\\na".toList ∧
      Literal.literalTokens (Literal.renameClassLiteral renames.classes literal) =
        ["a".toList, "a".toList, "a".toList] ∧
      Literal.renameIds renames.ids literal = literal := by
  intro scans renames literal
  have hliteral : IsLiteral scans literal :=
    ⟨scans[1], List.mem_cons_of_mem _ List.mem_cons_self, by decide +kernel⟩
  have hclasses : renames.classes = ⟨[("card-body".toList, "a".toList)]⟩ := by decide +kernel
  have hread : classReading scans literal = List.replicate 3 "card-body".toList := by
    decide +kernel
  obtain ⟨htext, -, htokens, hids⟩ :=
    class_literal_renamed_as_harvested Markup.decodeReferences 6 scans {} literal hliteral
  rw [hread, hclasses] at htext htokens
  rw [hclasses] at hids ⊢
  refine ⟨hliteral, htext.trans (by decide +kernel), htokens.trans (by decide +kernel), ?_⟩
  exact (hids (by decide +kernel)).2

end WebTrim
