import WebTrim.Yaml.Scalar
import WebTrim.Yaml.Token

/-!
# Reading a settings file

The tokens of a document are read by recursive descent. Every call passes on one unit of fuel less;
a call either takes a token or enters a collection, so three units per token are enough.

* `read?` — the value of a document, if it is one that can be read.
-/

set_option autoImplicit false

namespace WebTrim.Yaml

/-- Whether the next token is one of these; the end of the tokens counts too. -/
def nextIn (stops : List Token) (tokens : List Token) : Bool :=
  match tokens with
  | [] => true
  | t :: _ => stops.contains t

/-- A mapping with one more entry. Collections cannot be keys. -/
def addEntry? (key value : Value) (entries : List (Value × Value)) :
    Option (List (Value × Value)) :=
  if key.isKey then some (Value.put key value entries) else none

mutual

/-- A value. `block` allows block collections and `loose` a sequence that is not indented. -/
def node (fuel : Nat) (block loose : Bool) (tokens : List Token) : Option (Value × List Token) :=
  match fuel with
  | 0 => none
  | fuel + 1 =>
    match tokens with
    | .scalar text plain :: rest =>
      if plain then (ofPlain? text).map fun v => (v, rest) else some (.text text, rest)
    | .flowSequence :: rest =>
      (flowItems fuel true rest).map fun (items, rest) => (.list items, rest)
    | .flowMapping :: rest =>
      (flowEntries fuel true [] rest).map fun (entries, rest) => (.mapping entries, rest)
    | .entry :: rest =>
      if loose then (looseItems fuel (.entry :: rest)).map fun (items, rest) => (.list items, rest)
      else none
    | .blockSequence :: rest =>
      if block then (blockItems fuel rest).map fun (items, rest) => (.list items, rest) else none
    | .blockMapping :: rest =>
      if block then (blockEntries fuel [] rest).map fun (entries, rest) => (.mapping entries, rest)
      else none
    | _ => none

/-- A value, or null if one of the stops comes instead. -/
def nodeUnless (fuel : Nat) (stops : List Token) (block loose : Bool) (tokens : List Token) :
    Option (Value × List Token) :=
  match fuel with
  | 0 => none
  | fuel + 1 => if nextIn stops tokens then some (.null, tokens) else node fuel block loose tokens

/-- The value after a key, if there is a colon. -/
def afterKey (fuel : Nat) (stops : List Token) (block : Bool) (tokens : List Token) :
    Option (Value × List Token) :=
  match fuel with
  | 0 => none
  | fuel + 1 =>
    match tokens with
    | .value :: rest => nodeUnless fuel stops block block rest
    | _ => some (.null, tokens)

/-- The items of a block sequence. -/
def blockItems (fuel : Nat) (tokens : List Token) : Option (List Value × List Token) :=
  match fuel with
  | 0 => none
  | fuel + 1 =>
    match tokens with
    | .entry :: rest => do
      let (item, rest) ← nodeUnless fuel [.entry, .blockEnd] true false rest
      let (items, rest) ← blockItems fuel rest
      return (item :: items, rest)
    | .blockEnd :: rest => some ([], rest)
    | _ => none

/-- The items of a sequence that stands at the column of its key. -/
def looseItems (fuel : Nat) (tokens : List Token) : Option (List Value × List Token) :=
  match fuel with
  | 0 => none
  | fuel + 1 =>
    match tokens with
    | .entry :: rest => do
      let (item, rest) ← nodeUnless fuel [.entry, .key, .value, .blockEnd] true false rest
      let (items, rest) ← looseItems fuel rest
      return (item :: items, rest)
    | _ => some ([], tokens)

/-- The entries of a block mapping. -/
def blockEntries (fuel : Nat) (entries : List (Value × Value)) (tokens : List Token) :
    Option (List (Value × Value) × List Token) :=
  match fuel with
  | 0 => none
  | fuel + 1 =>
    let stops := [.key, .value, .blockEnd]
    match tokens with
    | .key :: rest => do
      let (key, rest) ← nodeUnless fuel stops true true rest
      let (value, rest) ← afterKey fuel stops true rest
      blockEntries fuel (← addEntry? key value entries) rest
    | .blockEnd :: rest => some (entries, rest)
    | _ => none

/-- The items of a flow sequence. An item may be a single entry of a mapping. -/
def flowItems (fuel : Nat) (first : Bool) (tokens : List Token) :
    Option (List Value × List Token) :=
  match fuel with
  | 0 => none
  | fuel + 1 =>
    match tokens, first with
    | .flowSequenceEnd :: rest, _ => some ([], rest)
    | .comma :: .flowSequenceEnd :: rest, false => some ([], rest)
    | .comma :: rest, false => flowItem fuel rest
    | _, false => none
    | tokens, true => flowItem fuel tokens

/-- One item of a flow sequence and the items after it. -/
def flowItem (fuel : Nat) (tokens : List Token) : Option (List Value × List Token) :=
  match fuel with
  | 0 => none
  | fuel + 1 =>
    match tokens with
    | .key :: rest => do
      let (key, rest) ← nodeUnless fuel [.value, .comma, .flowSequenceEnd] false false rest
      let (value, rest) ← afterKey fuel [.comma, .flowSequenceEnd] false rest
      let entries ← addEntry? key value []
      let (items, rest) ← flowItems fuel false rest
      return (.mapping entries :: items, rest)
    | _ => do
      let (item, rest) ← node fuel false false tokens
      let (items, rest) ← flowItems fuel false rest
      return (item :: items, rest)

/-- The entries of a flow mapping. -/
def flowEntries (fuel : Nat) (first : Bool) (entries : List (Value × Value)) (tokens : List Token) :
    Option (List (Value × Value) × List Token) :=
  match fuel with
  | 0 => none
  | fuel + 1 =>
    match tokens, first with
    | .flowMappingEnd :: rest, _ => some (entries, rest)
    | .comma :: .flowMappingEnd :: rest, false => some (entries, rest)
    | .comma :: rest, false => flowEntry fuel entries rest
    | _, false => none
    | tokens, true => flowEntry fuel entries tokens

/-- One entry of a flow mapping and the entries after it. -/
def flowEntry (fuel : Nat) (entries : List (Value × Value)) (tokens : List Token) :
    Option (List (Value × Value) × List Token) :=
  match fuel with
  | 0 => none
  | fuel + 1 =>
    match tokens with
    | .key :: rest => do
      let (key, rest) ← nodeUnless fuel [.value, .comma, .flowMappingEnd] false false rest
      let (value, rest) ← afterKey fuel [.comma, .flowMappingEnd] false rest
      flowEntries fuel false (← addEntry? key value entries) rest
    | _ => do
      let (key, rest) ← node fuel false false tokens
      flowEntries fuel false (← addEntry? key .null entries) rest

end

/-- The value of a list of tokens: one document, perhaps between marks. -/
def ofTokens? (tokens : List Token) : Option Value := do
  let fuel := 3 * tokens.length + 3
  let (value, rest) ←
    match tokens with
    | [] => some (.null, [])
    | .documentStart :: rest => nodeUnless fuel [.documentStart, .documentEnd] true false rest
    | _ => node fuel true false tokens
  if rest.all (· = .documentEnd) then some value else none

/-- The value of a document. -/
def read? (document : Text) : Option Value := do
  ofTokens? (← tokens? document)

end WebTrim.Yaml
