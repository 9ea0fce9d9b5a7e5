import WebTrim.Corpus.Allocation
import WebTrim.Proofs.Naming.Allocation
import WebTrim.Proofs.Text.Order

/-!
# Safety of the short names of a corpus

The rename maps of a corpus are computed from the findings of all its files. Here it is shown that
they never merge two names, and that a name is renamed only where every use of it can follow.

* `NameSide.inPlay` — every name that stands somewhere in the corpus as a class, or as an id.
* `Renamable` — what must hold of a class or an id for it to be renamed.
* `Inventory.injOn_rename`, `Inventory.exists_record` — what an allocation makes of an inventory.
* `corpus_renames_safe` — the maps of a corpus are injective on the names in play, and rename only
  names that are renamable.
-/

set_option autoImplicit false

namespace WebTrim

open Text

/-! ## Sets of names -/

theorem mem_nameSet {names : List Text} {x : Text} : x ∈ nameSet names ↔ x ∈ names :=
  mem_sorted_distinct

/-! ## Findings of many files -/

/-- A part of the findings that concatenation adds up is, for a corpus, what its files say. -/
theorem Findings.mem_concat {α : Type} (part : Findings → List α) (hnil : part {} = [])
    (happend : ∀ a b : Findings, part (a.append b) = part a ++ part b) {scans : List FileScan}
    {x : α} :
    x ∈ part (Findings.concat (scans.map (·.findings))) ↔ ∃ scan ∈ scans, x ∈ part scan.findings := by
  unfold Findings.concat
  induction scans with
  | nil => simp [hnil]
  | cons scan scans ih => simp [happend, ih]

/-! ## Names in play -/

/-- One of the two kinds of names that literals can carry: where it stands in findings, among the
names that markup uses, and in the role of a literal. -/
structure NameSide where
  findings : Findings → NameFindings
  carried : List Markup.UsedName → List Text
  share : LiteralRole → Share
  findings_empty : findings {} = {}
  findings_append : ∀ a b : Findings, findings (a.append b) = (findings a).append (findings b)
  reserved_share : ∀ (decode : Text → Text) (isClass isId : Text → Bool) (literal : Text),
    (share (literalRole decode isClass isId literal)).reserved =
      carried (Markup.markupNames decode literal) ++ Literal.classShapedTokens literal

namespace NameSide

/-- The class names. -/
def classes : NameSide where
  findings := Findings.classes
  carried := usedClasses
  share := LiteralRole.classes
  findings_empty := rfl
  findings_append := fun _ _ => rfl
  reserved_share := fun _ _ _ _ => rfl

/-- The ids. -/
def ids : NameSide where
  findings := Findings.ids
  carried := usedIds
  share := LiteralRole.ids
  findings_empty := rfl
  findings_append := fun _ _ => rfl
  reserved_share := fun _ _ _ _ => rfl

/-- Does a stylesheet of the corpus declare the name? -/
def declares (side : NameSide) (scans : List FileScan) (name : Text) : Bool :=
  scans.any fun scan => (side.findings scan.findings).declared.contains name

end NameSide

/-- A literal of some script of the corpus. -/
def IsLiteral (scans : List FileScan) (literal : Text) : Prop :=
  ∃ scan ∈ scans, literal ∈ scan.findings.literals

/-- The declared classes that a literal names as a class list. -/
def classReading (scans : List FileScan) (literal : Text) : List Text :=
  Literal.classesOf (NameSide.classes.declares scans) literal

/-- The declared ids that a literal refers to. -/
def idReading (scans : List FileScan) (literal : Text) : List Text :=
  Literal.idReferences (NameSide.ids.declares scans) literal

/-- What a literal says in a given corpus. -/
def corpusRole (decode : Text → Text) (scans : List FileScan) : Text → LiteralRole :=
  literalRole decode (NameSide.classes.declares scans) (NameSide.ids.declares scans)

/-- The names that stand somewhere in the corpus as names of one side: declared ones, tokens of
attributes, names pinned by a file or by a literal, class-shaped tokens of literals, and names
carried by the markup in them. -/
def NameSide.inPlay (side : NameSide) (decode : Text → Text) (scans : List FileScan) : Set Text :=
  {name |
    (∃ scan ∈ scans, name ∈ (side.findings scan.findings).declared ∨
      name ∈ (side.findings scan.findings).uses ∨ name ∈ (side.findings scan.findings).pinned) ∨
    ∃ literal, IsLiteral scans literal ∧
      (name ∈ (side.share (corpusRole decode scans literal)).pinned ∨
        name ∈ Literal.classShapedTokens literal ∨
        name ∈ side.carried (Markup.markupNames decode literal))}

/-- What holds of a name that is renamed. `reading` gives the names of its side that a literal
refers to, `rival` those of the other side. -/
structure Renamable (side : NameSide) (reading rival : Text → List Text) (decode : Text → Text)
    (scans : List FileScan) (name : Text) : Prop where
  /-- A stylesheet declares it. -/
  declared : side.declares scans name = true
  /-- It is used outside its declaration: in an attribute, by markup in a literal, or by a literal
  that can be read in one way only. -/
  used : (∃ scan ∈ scans, name ∈ (side.findings scan.findings).uses) ∨
    ∃ literal, IsLiteral scans literal ∧
      (name ∈ side.carried (Markup.markupNames decode literal) ∨
        name ∈ reading literal ∧ rival literal = [])
  /-- No file pins it. -/
  unpinned : ∀ scan ∈ scans, name ∉ (side.findings scan.findings).pinned
  /-- No literal that can be read in both ways names it. -/
  undoubted : ∀ literal, IsLiteral scans literal → rival literal ≠ [] → name ∉ reading literal
  /-- No part of it is the value of a selector that matches parts of names. -/
  unmatched : ∀ scan ∈ scans, ∀ pattern ∈ (side.findings scan.findings).patterns,
    ¬ ∃ before after, name = before ++ pattern ++ after

/-! ## What an allocation makes of an inventory -/

namespace Inventory

variable {on : Bool} {alphabet : Alphabet} {lead : Text} {names : Inventory}

/-- The short names of a category come from a sound run, or there are none. -/
theorem renames_sound (on : Bool) (alphabet : Alphabet) (lead : Text) (names : Inventory) :
    ∃ s : Naming.Allocation, (names.renames on alphabet lead).entries = s.entries ∧
      s.Sound alphabet lead (names.reserved ++ names.records.map Record.name)
        (Naming.ranked (names.records.map Record.candidate)) := by
  unfold renames
  split
  · have h := Naming.allocate_sound alphabet lead (names.records.map Record.candidate) names.reserved
    rwa [List.map_map] at h
  · exact ⟨{ taken := names.reserved ++ names.records.map Record.name }, rfl,
      { Naming.Allocation.Sound.start alphabet lead _ with
        names_sublist := List.nil_sublist _ }⟩

/-- The map of an inventory is injective on its reserved names. -/
theorem injOn_rename {s : Set Text} (hs : ∀ name ∈ s, name ∈ names.reserved) :
    Set.InjOn (names.renames on alphabet lead).rename s := by
  obtain ⟨run, hentries, hrun⟩ := renames_sound on alphabet lead names
  apply RenameMap.injOn_rename
  · rw [hentries]
    exact hrun.shorts_nodup
  · intro e he hmem
    rw [hentries] at he
    exact hrun.fresh e he (List.mem_append_left _ (hs _ hmem))

/-- A renamed name is that of a record which is not reserved. -/
theorem exists_record {name : Text} (h : name ∈ (names.renames on alphabet lead).names) :
    ∃ record ∈ names.records, record.reserved = false ∧ record.name = name := by
  obtain ⟨run, hentries, hrun⟩ := renames_sound on alphabet lead names
  unfold RenameMap.names at h
  rw [hentries] at h
  obtain ⟨c, hc, hreserved, hname⟩ := Naming.mem_ranked.mp (hrun.names_sublist.subset h)
  obtain ⟨record, hrecord, rfl⟩ := List.mem_map.mp hc
  exact ⟨record, hrecord, hreserved, hname⟩

/-- The names no short name may take: declared, used, pinned or reserved by a literal. -/
theorem mem_reserved_ofNames {found : NameFindings} {shares : List Share} {name : Text} :
    name ∈ (ofNames found shares).reserved ↔
      name ∈ found.declared ∨ name ∈ found.uses ∨ name ∈ found.pinned ∨
        (∃ share ∈ shares, name ∈ share.pinned) ∨ ∃ share ∈ shares, name ∈ share.reserved := by
  simp only [ofNames, mem_nameSet, List.mem_append, List.mem_flatMap, or_assoc]

/-- What holds of the name of a record that is not reserved. -/
theorem of_record_ofNames {found : NameFindings} {shares : List Share} {record : Record}
    (h : record ∈ (ofNames found shares).records) (hfree : record.reserved = false) :
    record.name ∈ found.declared ∧
      (record.name ∈ found.uses ∨ ∃ share ∈ shares, record.name ∈ share.used) ∧
      (record.name ∉ found.pinned ∧ ∀ share ∈ shares, record.name ∉ share.pinned) ∧
      ∀ pattern ∈ found.patterns, occursIn pattern record.name = false := by
  unfold ofNames at h
  obtain ⟨name, hname, rfl⟩ := List.mem_map.mp h
  rw [mem_nameSet] at hname
  simp only [Bool.or_eq_false_iff, Bool.not_eq_false', List.contains_eq_mem, decide_eq_false_iff_not,
    decide_eq_true_eq, List.mem_append, List.mem_filter, List.mem_flatMap, not_or, not_exists,
    not_and, List.any_eq_false, Bool.not_eq_true] at hfree
  obtain ⟨⟨⟨hpinned, hshares⟩, hpatterns⟩, hused⟩ := hfree
  refine ⟨hname, ?_, ⟨hpinned, hshares⟩, hpatterns⟩
  rcases hused with ⟨huses, _⟩ | hshare
  · exact .inl huses
  · exact .inr hshare

theorem mem_reserved_ofOccurrences {wanted : Text → Bool} {found others : List Text} {name : Text} :
    name ∈ (ofOccurrences wanted found others).reserved ↔ name ∈ found ∨ name ∈ others := by
  rw [ofOccurrences, mem_nameSet, List.mem_append]

end Inventory

/-! ## What a literal says -/

section Role

variable {decode : Text → Text} {isClass isId : Text → Bool} {literal name : Text}

/-- A literal names classes as a list exactly if it is a class list. -/
theorem classesOf_eq_nil_iff :
    Literal.classesOf isClass literal = [] ↔ Literal.isClassList isClass literal = false := by
  unfold Literal.classesOf
  split
  · rename_i hlist
    simp only [hlist, Bool.true_eq_false, iff_false]
    intro hnil
    simp only [Literal.isClassList, Bool.and_eq_true, List.any_eq_true] at hlist
    obtain ⟨_, token, htoken, hknown⟩ := hlist
    exact List.filter_eq_nil_iff.mp hnil token htoken hknown
  · rename_i hlist
    simpa using hlist

/-- A literal uses the declared classes that its markup carries, and those it lists unless it could
refer to an id. -/
theorem mem_used_classes :
    name ∈ (literalRole decode isClass isId literal).classes.used ↔
      (name ∈ usedClasses (Markup.markupNames decode literal) ∧ isClass name = true) ∨
        name ∈ Literal.classesOf isClass literal ∧ Literal.idReferences isId literal = [] := by
  simp only [literalRole, List.mem_append, List.mem_filter]
  apply or_congr_right
  cases Literal.classesOf isClass literal <;> cases Literal.idReferences isId literal <;> simp

/-- A literal uses the declared ids that its markup carries, and those it refers to unless it could
be a class list. -/
theorem mem_used_ids :
    name ∈ (literalRole decode isClass isId literal).ids.used ↔
      (name ∈ usedIds (Markup.markupNames decode literal) ∧ isId name = true) ∨
        name ∈ Literal.idReferences isId literal ∧ Literal.classesOf isClass literal = [] := by
  simp only [literalRole, List.mem_append, List.mem_filter]
  apply or_congr_right
  cases Literal.classesOf isClass literal <;> cases Literal.idReferences isId literal <;> simp

/-- A literal pins the classes it lists if it could refer to an id, and the names after dots if it
lists no class. -/
theorem mem_pinned_classes :
    name ∈ (literalRole decode isClass isId literal).classes.pinned ↔
      (name ∈ Literal.classesOf isClass literal ∧ Literal.idReferences isId literal ≠ []) ∨
        Literal.classesOf isClass literal = [] ∧ name ∈ Literal.dottedNames literal := by
  simp only [literalRole]
  cases Literal.classesOf isClass literal <;> cases Literal.idReferences isId literal <;> simp

/-- A literal pins the ids it refers to if it could be a class list. -/
theorem mem_pinned_ids :
    name ∈ (literalRole decode isClass isId literal).ids.pinned ↔
      name ∈ Literal.idReferences isId literal ∧ Literal.classesOf isClass literal ≠ [] := by
  simp only [literalRole]
  cases Literal.classesOf isClass literal <;> cases Literal.idReferences isId literal <;> simp

end Role

/-! ## Both sides of a corpus -/

namespace NameSide

variable {side : NameSide} {decode : Text → Text} {scans : List FileScan} {name : Text}

/-- What the corpus says about one side is what its files say. -/
theorem mem_concat (side : NameSide) {α : Type} (part : NameFindings → List α)
    (hnil : part {} = [])
    (happend : ∀ a b : NameFindings, part (a.append b) = part a ++ part b) {x : α} :
    x ∈ part (side.findings (Findings.concat (scans.map (·.findings)))) ↔
      ∃ scan ∈ scans, x ∈ part (side.findings scan.findings) :=
  Findings.mem_concat (fun found => part (side.findings found))
    (by rw [side.findings_empty, hnil])
    (fun a b => by rw [side.findings_append, happend])

theorem contains_declared (side : NameSide) (scans : List FileScan) :
    (side.findings (Findings.concat (scans.map (·.findings)))).declared.contains =
      side.declares scans := by
  funext name
  rw [Bool.eq_iff_iff, List.contains_iff_mem,
    side.mem_concat NameFindings.declared rfl (fun _ _ => rfl)]
  simp [declares]

/-- The inventory of one side. -/
def inventory (side : NameSide) (decode : Text → Text) (scans : List FileScan) : Inventory :=
  Inventory.ofNames (side.findings (Findings.concat (scans.map (·.findings))))
    ((Findings.concat (scans.map (·.findings))).literals.map fun literal =>
      side.share (corpusRole decode scans literal))

theorem inventory_classes (decode : Text → Text) (minLength : Nat) (scans : List FileScan) :
    (Harvest.ofScans decode minLength scans).classes = classes.inventory decode scans := by
  unfold inventory corpusRole
  rw [← classes.contains_declared, ← ids.contains_declared]
  simp only [Harvest.ofScans, Harvest.ofFindings, List.map_map]
  rfl

theorem inventory_ids (decode : Text → Text) (minLength : Nat) (scans : List FileScan) :
    (Harvest.ofScans decode minLength scans).ids = ids.inventory decode scans := by
  unfold inventory corpusRole
  rw [← classes.contains_declared, ← ids.contains_declared]
  simp only [Harvest.ofScans, Harvest.ofFindings, List.map_map]
  rfl

theorem mem_literals {literal : Text} :
    literal ∈ (Findings.concat (scans.map (·.findings))).literals ↔ IsLiteral scans literal :=
  Findings.mem_concat Findings.literals rfl (fun _ _ => rfl)

/-- A property of some share of a corpus is one of some literal. -/
theorem exists_share {p : Share → Prop} :
    (∃ share ∈ (Findings.concat (scans.map (·.findings))).literals.map fun literal =>
        side.share (corpusRole decode scans literal), p share) ↔
      ∃ literal, IsLiteral scans literal ∧ p (side.share (corpusRole decode scans literal)) := by
  simp only [List.mem_map, exists_exists_and_eq_and, mem_literals]

/-- No short name may take the place of a name in play. -/
theorem mem_reserved_of_inPlay (h : name ∈ side.inPlay decode scans) :
    name ∈ (side.inventory decode scans).reserved := by
  unfold inventory
  rw [Inventory.mem_reserved_ofNames, exists_share, exists_share,
    side.mem_concat NameFindings.declared rfl (fun _ _ => rfl),
    side.mem_concat NameFindings.uses rfl (fun _ _ => rfl),
    side.mem_concat NameFindings.pinned rfl (fun _ _ => rfl)]
  rcases h with ⟨scan, hscan, h | h | h⟩ | ⟨literal, hliteral, h | h⟩
  · exact .inl ⟨scan, hscan, h⟩
  · exact .inr (.inl ⟨scan, hscan, h⟩)
  · exact .inr (.inr (.inl ⟨scan, hscan, h⟩))
  · exact .inr (.inr (.inr (.inl ⟨literal, hliteral, h⟩)))
  · refine .inr (.inr (.inr (.inr ⟨literal, hliteral, ?_⟩)))
    rw [corpusRole, side.reserved_share, List.mem_append]
    exact h.symm

/-- No literal pins the name of a record that is not reserved. -/
theorem not_mem_pinned_share {record : Record}
    (h : record ∈ (side.inventory decode scans).records) (hfree : record.reserved = false)
    {literal : Text} (hliteral : IsLiteral scans literal) :
    record.name ∉ (side.share (corpusRole decode scans literal)).pinned := by
  obtain ⟨_, _, ⟨_, hshares⟩, _⟩ := Inventory.of_record_ofNames h hfree
  exact hshares _ (List.mem_map.mpr ⟨literal, mem_literals.mpr hliteral, rfl⟩)

/-- A record of one side that is not reserved is that of a renamable name, if the shares of literals
say what `reading` and `rival` say. -/
theorem renamable_of_record {reading rival : Text → List Text}
    (hused : ∀ literal, name ∈ (side.share (corpusRole decode scans literal)).used →
      name ∈ side.carried (Markup.markupNames decode literal) ∨
        name ∈ reading literal ∧ rival literal = [])
    (hpinned : ∀ literal, name ∈ reading literal → rival literal ≠ [] →
      name ∈ (side.share (corpusRole decode scans literal)).pinned)
    {record : Record} (h : record ∈ (side.inventory decode scans).records)
    (hfree : record.reserved = false) (hname : record.name = name) :
    Renamable side reading rival decode scans name := by
  subst hname
  obtain ⟨hdeclared, huse, ⟨hpin, _⟩, hpatterns⟩ := Inventory.of_record_ofNames h hfree
  rw [exists_share, side.mem_concat NameFindings.uses rfl (fun _ _ => rfl)] at huse
  refine ⟨?_, ?_, ?_, ?_, ?_⟩
  · rw [← side.contains_declared]
    exact List.contains_iff_mem.mpr hdeclared
  · rcases huse with huse | ⟨literal, hliteral, huse⟩
    · exact .inl huse
    · exact .inr ⟨literal, hliteral, hused literal huse⟩
  · intro scan hscan hmem
    exact hpin ((side.mem_concat NameFindings.pinned rfl (fun _ _ => rfl)).mpr ⟨scan, hscan, hmem⟩)
  · intro literal hliteral hrival hmem
    exact not_mem_pinned_share h hfree hliteral (hpinned literal hmem hrival)
  · intro scan hscan pattern hpattern hpart
    have hfalse := hpatterns pattern
      ((side.mem_concat NameFindings.patterns rfl (fun _ _ => rfl)).mpr ⟨scan, hscan, hpattern⟩)
    rw [← occursIn_iff, hfalse] at hpart
    cases hpart

end NameSide

/-- A renamed class is renamable, and no literal that is not a class list has it after a dot. -/
theorem renamable_class {decode : Text → Text} {scans : List FileScan} {name : Text}
    {record : Record} (h : record ∈ (NameSide.classes.inventory decode scans).records)
    (hfree : record.reserved = false) (hname : record.name = name) :
    Renamable .classes (classReading scans) (idReading scans) decode scans name ∧
      ∀ literal, IsLiteral scans literal →
        Literal.isClassList (NameSide.classes.declares scans) literal = false →
        name ∉ Literal.dottedNames literal := by
  refine ⟨NameSide.renamable_of_record ?_ ?_ h hfree hname, ?_⟩
  · intro literal hused
    exact (mem_used_classes.mp hused).imp_left And.left
  · intro literal hreading hrival
    exact mem_pinned_classes.mpr (.inl ⟨hreading, hrival⟩)
  · intro literal hliteral hlist hdotted
    subst hname
    exact NameSide.not_mem_pinned_share h hfree hliteral
      (mem_pinned_classes.mpr (.inr ⟨classesOf_eq_nil_iff.mpr hlist, hdotted⟩))

/-- A renamed id is renamable. -/
theorem renamable_id {decode : Text → Text} {scans : List FileScan} {name : Text}
    {record : Record} (h : record ∈ (NameSide.ids.inventory decode scans).records)
    (hfree : record.reserved = false) (hname : record.name = name) :
    Renamable .ids (idReading scans) (classReading scans) decode scans name := by
  refine NameSide.renamable_of_record ?_ ?_ h hfree hname
  · intro literal hused
    exact (mem_used_ids.mp hused).imp_left And.left
  · intro literal hreading hrival
    exact mem_pinned_ids.mpr ⟨hreading, hrival⟩

/-! ## The corpus -/

/-- **The short names of a corpus are safe.** A name without a short name stands for itself. No two
names in play of one category get the same name, whatever the settings, and only renamable names are
renamed. -/
theorem corpus_renames_safe (decode : Text → Text) (minLength : Nat) (scans : List FileScan)
    (settings : Settings) :
    let renames := (Harvest.ofScans decode minLength scans).renames settings
    (Set.InjOn renames.classes.rename (NameSide.classes.inPlay decode scans) ∧
      Set.InjOn renames.ids.rename (NameSide.ids.inPlay decode scans) ∧
      Set.InjOn renames.properties.rename
        {name | ∃ scan ∈ scans,
          name ∈ scan.findings.properties ∨ name ∈ scan.findings.allProperties} ∧
      Set.InjOn renames.scopes.rename {name | ∃ scan ∈ scans, name ∈ scan.findings.scopeIds}) ∧
    (∀ name ∈ renames.classes.names,
      Renamable .classes (classReading scans) (idReading scans) decode scans name ∧
        ∀ literal, IsLiteral scans literal →
          Literal.isClassList (NameSide.classes.declares scans) literal = false →
          name ∉ Literal.dottedNames literal) ∧
    ∀ name ∈ renames.ids.names,
      Renamable .ids (idReading scans) (classReading scans) decode scans name := by
  intro renames
  have hclasses : renames.classes = _ :=
    congrArg (Inventory.renames settings.renameClasses .latin [])
      (NameSide.inventory_classes decode minLength scans)
  have hids : renames.ids = _ :=
    congrArg (Inventory.renames settings.renameIds .latin [])
      (NameSide.inventory_ids decode minLength scans)
  refine ⟨⟨?_, ?_, ?_, ?_⟩, ?_, ?_⟩
  · rw [hclasses]
    exact Inventory.injOn_rename fun _ h => NameSide.mem_reserved_of_inPlay h
  · rw [hids]
    exact Inventory.injOn_rename fun _ h => NameSide.mem_reserved_of_inPlay h
  · refine Inventory.injOn_rename fun name h => ?_
    obtain ⟨scan, hscan, h | h⟩ := h
    · exact Inventory.mem_reserved_ofOccurrences.mpr (.inl
        ((Findings.mem_concat Findings.properties rfl (fun _ _ => rfl)).mpr ⟨scan, hscan, h⟩))
    · exact Inventory.mem_reserved_ofOccurrences.mpr (.inr
        ((Findings.mem_concat Findings.allProperties rfl (fun _ _ => rfl)).mpr ⟨scan, hscan, h⟩))
  · refine Inventory.injOn_rename fun name h => ?_
    exact Inventory.mem_reserved_ofOccurrences.mpr (.inl
      ((Findings.mem_concat Findings.scopeIds rfl (fun _ _ => rfl)).mpr h))
  · intro name hname
    rw [hclasses] at hname
    obtain ⟨record, hrecord, hfree, hrec⟩ := Inventory.exists_record hname
    exact renamable_class hrecord hfree hrec
  · intro name hname
    rw [hids] at hname
    obtain ⟨record, hrecord, hfree, hrec⟩ := Inventory.exists_record hname
    exact renamable_id hrecord hfree hrec

end WebTrim
