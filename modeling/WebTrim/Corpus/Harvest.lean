import WebTrim.Corpus.FileScan
import WebTrim.Literal.IdReference
import WebTrim.Markup.Encoded
import WebTrim.Naming.Allocate

/-!
# The harvest of a corpus

The findings of all files together decide which names can be renamed. A name is renamed only if it
is declared in a stylesheet, is used somewhere else, and occurs nowhere that a new name could not
follow.

* `literalRole` — what one literal says, once all declarations are known.
* `Inventory` — the names of one category with their usage, and the names that no short name may
  take.
* `Harvest.ofScans` — the inventories of a corpus. Names and reserved names are sorted and distinct,
  so the order of the scans does not show.
* `Harvest.combine` — the same for scans in path order, unless a name in a literal cannot be decoded.
-/

set_option autoImplicit false

namespace WebTrim

open Text

/-- A name with the ways it is spelled, how often it occurs, and whether it must stay. -/
structure Record where
  name : Text
  spellings : List Text
  usage : Nat
  reserved : Bool
  deriving DecidableEq, Repr

/-- The record as the allocation takes it. -/
def Record.candidate (r : Record) : Naming.Candidate where
  name := r.name
  usage := r.usage
  reserved := r.reserved

/-- The names of one category and all names that are in use there. -/
structure Inventory where
  records : List Record
  reserved : List Text
  deriving DecidableEq, Repr

/-- The inventories of a corpus. -/
structure Harvest where
  properties : Inventory
  classes : Inventory
  ids : Inventory
  scopeIds : Inventory
  deriving DecidableEq, Repr

/-! ## Literals -/

/-- What a literal says about names of one category. -/
structure Share where
  used : List Text
  pinned : List Text
  reserved : List Text
  deriving DecidableEq, Repr

/-- What a literal says about classes and about ids. -/
structure LiteralRole where
  classes : Share
  ids : Share
  deriving DecidableEq, Repr

/-- The class names among used names. -/
def usedClasses (names : List Markup.UsedName) : List Text :=
  names.filterMap fun
    | .className name => some name
    | .id _ => none

/-- The ids among used names. -/
def usedIds (names : List Markup.UsedName) : List Text :=
  names.filterMap fun
    | .id name => some name
    | .className _ => none

/-- What a literal says, given the declared classes and ids. Markup in it uses names as a document
does. A literal that can be read both as a class list and as an id reference pins the names of both
readings; one that is no class list pins the names after dots. -/
def literalRole (decode : Text → Text) (isClass isId : Text → Bool) (literal : Text) :
    LiteralRole :=
  let carried := Markup.markupNames decode literal
  let classes := Literal.classesOf isClass literal
  let ids := Literal.idReferences isId literal
  let tokens := Literal.classShapedTokens literal
  let inDoubt := !classes.isEmpty && !ids.isEmpty
  { classes :=
      { used := (usedClasses carried).filter isClass ++ if inDoubt then [] else classes
        pinned :=
          if inDoubt then classes
          else if classes.isEmpty then Literal.dottedNames literal
          else []
        reserved := usedClasses carried ++ tokens }
    ids :=
      { used := (usedIds carried).filter isId ++ if inDoubt then [] else ids
        pinned := if inDoubt then ids else []
        reserved := usedIds carried ++ tokens } }

/-! ## Inventories -/

/-- The texts, sorted and each once. -/
def nameSet (names : List Text) : List Text :=
  sorted (distinct names)

/-- The inventory of classes or of ids. A name must stay if it is pinned, if a pattern matches a
part of it, or if it is used nowhere. -/
def Inventory.ofNames (found : NameFindings) (shares : List Share) : Inventory :=
  let used := found.uses.filter found.declared.contains ++ shares.flatMap (·.used)
  let pinned := found.pinned ++ shares.flatMap (·.pinned)
  { records := (nameSet found.declared).map fun name =>
      { name
        spellings := nameSet ((found.spellings.filter (·.1 = name)).map (·.2))
        usage := found.declared.count name + used.count name
        reserved :=
          pinned.contains name || found.patterns.any (occursIn · name) || !used.contains name }
    reserved := nameSet (found.declared ++ found.uses ++ pinned ++ shares.flatMap (·.reserved)) }

/-- The inventory of names that are renamed wherever they occur: all that `wanted` accepts. -/
def Inventory.ofOccurrences (wanted : Text → Bool) (names others : List Text) : Inventory where
  records := ((nameSet names).filter wanted).map fun name =>
    { name, spellings := [name], usage := names.count name, reserved := false }
  reserved := nameSet (names ++ others)

/-! ## The corpus -/

/-- The harvest of all findings. Custom properties shorter than `minLength` bytes are not renamed.
-/
def Harvest.ofFindings (decode : Text → Text) (minLength : Nat) (found : Findings) : Harvest :=
  let roles := found.literals.map
    (literalRole decode found.classes.declared.contains found.ids.declared.contains)
  { properties :=
      Inventory.ofOccurrences (fun name => minLength ≤ byteLength name) found.properties
        found.allProperties
    classes := Inventory.ofNames found.classes (roles.map (·.classes))
    ids := Inventory.ofNames found.ids (roles.map (·.ids))
    scopeIds := Inventory.ofOccurrences (fun _ => true) found.scopeIds [] }

/-- The harvest of a corpus. -/
def Harvest.ofScans (decode : Text → Text) (minLength : Nat) (scans : List FileScan) : Harvest :=
  Harvest.ofFindings decode minLength (Findings.concat (scans.map (·.findings)))

/-- The parts of the literals of a file that are decoded when its names are listed. -/
def FileScan.encodedNames (scan : FileScan) : List Text :=
  scan.findings.literals.flatMap (Markup.encodedNames true true)

/-- The harvest of a corpus whose files are taken in path order. It has no result if a name in the
markup of a literal cannot be decoded. -/
def Harvest.combine (decode : Text → Text) (refusal? : Text → Option Crash) (minLength : Nat)
    (scans : List FileScan) : Except Crash Harvest := do
  let ordered := scans.mergeSort fun a b => Text.le a.path b.path
  Markup.requireDecodable refusal? (ordered.flatMap FileScan.encodedNames)
  return Harvest.ofScans decode minLength ordered

end WebTrim
