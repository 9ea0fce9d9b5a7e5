import WebTrim.Naming.ShortName

/-!
# Rename maps

A rename map gives the short name of each renamed name; `Renames` holds one per category of names.
-/

set_option autoImplicit false

namespace WebTrim

/-- The kinds of names that can be renamed. -/
inductive Category where
  | customProperty
  | className
  | id
  | shaderLocal
  | scopeId
  deriving DecidableEq, Repr

namespace Category

/-- The word by which a category is known. -/
def word : Category → String
  | customProperty => "customProperty"
  | className => "class"
  | id => "id"
  | shaderLocal => "shaderLocal"
  | scopeId => "scopeId"

/-- All categories. -/
def all : List Category :=
  [customProperty, className, id, shaderLocal, scopeId]

/-- The category of a word. -/
def ofWord (w : Text) : Except NamingError Category :=
  match all.find? (fun c => c.word.toList = w) with
  | some c => .ok c
  | none => .error (.unknownCategory w)

end Category

/-- Short names by name, in the order in which they were given out. -/
structure RenameMap where
  entries : List (Text × Text) := []
  deriving DecidableEq, Repr

namespace RenameMap

/-- The short name of a name, if it has one. -/
def find? (m : RenameMap) (name : Text) : Option Text :=
  m.entries.lookup name

/-- The short name of a name, or the name itself. -/
def rename (m : RenameMap) (name : Text) : Text :=
  (m.find? name).getD name

/-- The renamed names. -/
def names (m : RenameMap) : List Text :=
  m.entries.map Prod.fst

/-- No name is renamed. -/
def isEmpty (m : RenameMap) : Bool :=
  m.entries.isEmpty

/-- Number of renamed names. -/
def size (m : RenameMap) : Nat :=
  m.entries.length

end RenameMap

/-- The rename maps of one pass, and the fixed beginning of a component scope id. -/
structure Renames where
  properties : RenameMap := {}
  classes : RenameMap := {}
  ids : RenameMap := {}
  scopes : RenameMap := {}
  scopeLead : Text := "astro-cid-".toList
  deriving DecidableEq, Repr

/-- Nothing is renamed. -/
def Renames.isEmpty (r : Renames) : Bool :=
  r.properties.isEmpty && r.classes.isEmpty && r.ids.isEmpty && r.scopes.isEmpty

end WebTrim
