import WebTrim.Settings.Basic
import WebTrim.Text.Case
import WebTrim.Text.Decimal
import WebTrim.Yaml.Node

/-!
# Loading settings

Settings are read from named values. A truth value may also be given as a word or as zero or one,
and a whole number as a text or as a number without a fraction; every value that does not fit is
reported.

* `Settings.ofEntries` — settings from named values, or everything that is wrong with them.
* `Settings.load` — settings from a file and from values that win over it.
-/

set_option autoImplicit false

namespace WebTrim.Settings

open Text Yaml

/-- What can be wrong with a value. -/
inductive Problem where
  /-- A text or a number that is no truth value. -/
  | unclearBool
  /-- A value that cannot be a truth value. -/
  | notBool
  /-- A text that is no whole number. -/
  | unclearInt
  /-- A number with a fraction. -/
  | fractional
  /-- An infinite number, or none at all. -/
  | notFinite
  /-- A value that cannot be a whole number. -/
  | notInt
  /-- A number below the least one allowed. -/
  | tooSmall
  | notText
  | notList
  /-- A name that no setting has. -/
  | unknownName
  /-- A name that is no text. -/
  | badName
  deriving DecidableEq, Repr

/-- Something wrong, and where. -/
structure Issue where
  path : Text
  problem : Problem
  deriving DecidableEq, Repr

/-! ## Values -/

/-- The truth values among words, in any case. -/
def boolWord? (t : Text) : Option Bool :=
  let word := String.ofList (lowerAscii t)
  if ["1", "on", "t", "true", "y", "yes"].contains word then some true
  else if ["0", "off", "f", "false", "n", "no"].contains word then some false
  else none

/-- Zero or one as a truth value. -/
def boolNumber (n : Int) : Except Problem Bool :=
  if n = 1 then .ok true else if n = 0 then .ok false else .error .unclearBool

/-- A truth value. -/
def readBool : Value → Except Problem Bool
  | .bool b => .ok b
  | .int n => boolNumber n
  | .float x _ =>
    match wholeNumber? x with
    | some n => boolNumber n
    | none => .error .notBool
  | .text t =>
    match boolWord? t with
    | some b => .ok b
    | none => .error .unclearBool
  | _ => .error .notBool

/-- The digits of a whole number, which may be grouped by underscores and end in a fraction of
zeros. -/
def readDigits? (t : Text) : Option Nat :=
  let (digits, fraction) := splitWhile (· ≠ '.') t
  match dropUnderscores? digits with
  | some digits =>
    if !digits.isEmpty && digits.all isAsciiDigit && (fraction.drop 1).all (· = '0') then
      some (digitsNat digits)
    else none
  | none => none

/-- A whole number. -/
def readInt : Value → Except Problem Int
  | .int n => .ok n
  | .bool b => .ok (if b then 1 else 0)
  | .float x _ =>
    match wholeNumber? x with
    | some n => .ok n
    | none => .error (if x.isNaN || x.isInf then .notFinite else .fractional)
  | .text t =>
    let (negative, digits) := readSign (trim t)
    match readDigits? digits with
    | some n => .ok (if negative then -(n : Int) else n)
    | none => .error .unclearInt
  | _ => .error .notInt

/-- A whole number that is at least `least`. -/
def readAtLeast (least : Nat) (v : Value) : Except Problem Nat := do
  let n ← readInt v
  if n < least then .error .tooSmall else .ok n.toNat

/-- A text. -/
def readText : Value → Except Problem Text
  | .text t => .ok t
  | _ => .error .notText

/-- An extension in lower case and with its dot. Blank ones are left out. -/
def extension? (t : Text) : Option Text :=
  match lower (trim t) with
  | [] => none
  | c :: rest => some (if c = '.' then c :: rest else '.' :: c :: rest)

/-! ## Named values -/

/-- Reports a problem under a name. -/
def under {α : Type} (name : Text) (r : Except Problem α) : Except (List Issue) α :=
  match r with
  | .ok a => .ok a
  | .error p => .error [⟨name, p⟩]

/-- The texts of a list; a problem with an item is reported under the name and the item's number. -/
def readTexts (name : Text) : Value → Except (List Issue) (List Text)
  | .list items =>
    let results := items.zipIdx.map fun (item, i) =>
      under (name ++ '.' :: ofNat i) (readText item)
    let issues := results.flatMap fun
      | .ok _ => []
      | .error issues => issues
    let texts := results.filterMap Except.toOption
    if issues.isEmpty then .ok texts else .error issues
  | _ => .error [⟨name, .notList⟩]

/-- Changes the setting of a name to a value. -/
def set (s : Settings) (name : Text) (v : Value) : Except (List Issue) Settings :=
  let flag (change : Bool → Settings) : Except (List Issue) Settings :=
    (under name (readBool v)).map change
  match String.ofList name with
  | "extensions" =>
    (readTexts name v).map fun texts => { s with extensions := texts.filterMap extension? }
  | "mangle_custom_properties" => flag fun b => { s with renameProperties := b }
  | "mangle_classes" => flag fun b => { s with renameClasses := b }
  | "mangle_ids" => flag fun b => { s with renameIds := b }
  | "mangle_scope_ids" => flag fun b => { s with renameScopeIds := b }
  | "scope_id_prefix" => (under name (readText v)).map fun t => { s with scopeLead := t }
  | "custom_property_min_length" =>
    (under name (readAtLeast 0 v)).map fun n => { s with propertyMinLength := n }
  | "fold_calc" => flag fun b => { s with foldCalc := b }
  | "fold_oklch" => flag fun b => { s with foldColors := b }
  | "minify_css" => flag fun b => { s with minifyStylesheets := b }
  | "optimize_shaders" => flag fun b => { s with minifyShaders := b }
  | "max_workers" =>
    match v with
    | .null => .ok { s with workers := none }
    | v => (under name (readAtLeast 1 v)).map fun n => { s with workers := some n }
  | "dry_run" => flag fun b => { s with dryRun := b }
  | _ => .error [⟨name, .unknownName⟩]

/-- Changes a setting, or adds to the issues. -/
def setOrReport (state : Settings × List Issue) (entry : Value × Value) : Settings × List Issue :=
  let (s, issues) := state
  match entry with
  | (.text name, v) =>
    match s.set name v with
    | .ok s => (s, issues)
    | .error more => (s, issues ++ more)
  | (key, _) => (s, issues ++ [⟨key.keyText, .badName⟩])

/-- Settings from named values; what is not named keeps its default. -/
def ofEntries (entries : List (Value × Value)) : Except (List Issue) Settings :=
  match entries.foldl setOrReport ({}, []) with
  | (s, []) => .ok s
  | (_, issues) => .error issues

/-! ## Files -/

/-- Why there are no settings. -/
inductive ConfigError where
  /-- The file cannot be read. -/
  | unreadable (path : Text)
  /-- The file does not hold named values. -/
  | notMapping (path : Text)
  | invalid (issues : List Issue)
  deriving DecidableEq, Repr

/-- The error in words. -/
def ConfigError.message : ConfigError → Text
  | unreadable path => "cannot read settings from ".toList ++ path
  | notMapping path => path ++ ": expected a mapping at the top level".toList
  | invalid _ => "invalid settings".toList

/-- The named values in a settings file at `path`, whose text is `none` if there is no such file. -/
def fileEntries (path : Text) (text : Option Text) : Except ConfigError (List (Value × Value)) :=
  match text.bind read? with
  | none => .error (.unreadable path)
  | some value =>
    match value with
    | .mapping entries => .ok entries
    | value => if value.isBlank then .ok [] else .error (.notMapping path)

/-- Settings from a file, if one is named, and from overrides, which win. A null override does not
count. -/
def load (file : Option (Text × Option Text)) (overrides : List (Text × Value)) :
    Except ConfigError Settings := do
  let entries ←
    match file with
    | some (path, text) => fileEntries path text
    | none => .ok []
  let entries := overrides.foldl (fun entries (name, value) =>
    match value with
    | .null => entries
    | value => Value.put (.text name) value entries) entries
  match ofEntries entries with
  | .ok s => return s
  | .error issues => throw (.invalid issues)

end WebTrim.Settings
