import WebTrim.Text.Basic

/-!
# Values of a settings file
-/

set_option autoImplicit false

namespace WebTrim.Yaml

/-- A value in a YAML document. The entries of a mapping have distinct keys. -/
inductive Value where
  | null
  | bool (b : Bool)
  | int (n : Int)
  | float (x : Float) (written : Text)
  /-- A date, with or without a time of day. -/
  | moment (t : Text)
  | text (t : Text)
  | list (items : List Value)
  | mapping (entries : List (Value × Value))
  deriving Repr, Inhabited

namespace Value

/-- Whether a value says nothing: an empty, false or zero value. -/
def isBlank : Value → Bool
  | null => true
  | bool b => !b
  | int n => n == 0
  | float x _ => x == 0.0
  | moment _ => false
  | text t => t.isEmpty
  | list items => items.isEmpty
  | mapping entries => entries.isEmpty

/-- The key as a text in a report: the text itself, or how the value is written. -/
def keyText : Value → Text
  | null => "None".toList
  | bool b => if b then ['1'] else ['0']
  | int n => Text.ofInt n
  | float _ written => written
  | moment t => t
  | text t => t
  | list _ => []
  | mapping _ => []

/-- Whether a value can be a key: collections cannot. -/
def isKey : Value → Bool
  | list _ => false
  | mapping _ => false
  | _ => true

/-- Whether the value is a text. -/
def isText : Value → Bool
  | text _ => true
  | _ => false

/-- Sets the value of a key; a key that is there already keeps its place. -/
def put (key value : Value) : List (Value × Value) → List (Value × Value)
  | [] => [(key, value)]
  | (k, v) :: rest =>
    if k.isText == key.isText && k.keyText == key.keyText then (k, value) :: rest
    else (k, v) :: put key value rest

end Value

end WebTrim.Yaml
