import WebTrim.Shader.Token
import WebTrim.Shader.Vocabulary

/-!
# Declarations in a shader

Finds the names that a shader declares for itself and the names that must keep their spelling: those
of its interface and those behind a point.

The scanner walks the significant tokens and keeps a little state: whether a storage qualifier, a
`precision` statement or a `struct` is open, how many braces are open, and at which depth an
interface block or a structure began.
-/

set_option autoImplicit false

namespace WebTrim.Shader

/-- Names found in declarations. -/
structure Declared where
  candidates : List Text := []
  pinned : List Text := []
  deriving DecidableEq, Repr

/-- Both lists together. -/
def Declared.append (a b : Declared) : Declared :=
  ⟨a.candidates ++ b.candidates, a.pinned ++ b.pinned⟩

/-- The scanner's state. -/
structure DeclarationState where
  storage : Bool := false
  pendingBlock : Bool := false
  precision : Bool := false
  pendingStruct : Bool := false
  depth : Nat := 0
  interfaceDepth : Option Nat := none
  deriving DecidableEq, Repr

/-- Is the first token the operator with this text? -/
def startsWith (text : Text) (ts : List (Token Kind)) : Bool :=
  ts.head?.any fun t => t.text == text

/-- The tokens after the bracket that closes `depth + 1` open ones. -/
def skipBrackets (depth : Nat) : List (Token Kind) → List (Token Kind)
  | [] => []
  | t :: rest =>
    if t.text = ['['] then skipBrackets (depth + 1) rest
    else if t.text = [']'] then
      match depth with
      | 0 => rest
      | depth + 1 => skipBrackets depth rest
    else skipBrackets depth rest

/-- The tokens from the end of an initializer on: a comma, a semicolon or an unmatched bracket. -/
def skipInitializer (depth : Nat) : List (Token Kind) → List (Token Kind)
  | [] => []
  | t :: rest =>
    if t.text = ['('] ∨ t.text = ['['] ∨ t.text = ['{'] then skipInitializer (depth + 1) rest
    else if t.text = [')'] ∨ t.text = [']'] ∨ t.text = ['}'] then
      match depth with
      | 0 => t :: rest
      | depth + 1 => skipInitializer depth rest
    else if depth = 0 ∧ (t.text = [','] ∨ t.text = [';']) then t :: rest
    else skipInitializer depth rest

theorem length_skipBrackets_le (depth : Nat) (ts : List (Token Kind)) :
    (skipBrackets depth ts).length ≤ ts.length := by
  induction ts generalizing depth with
  | nil => simp [skipBrackets]
  | cons t rest ih =>
    unfold skipBrackets
    split
    · exact Nat.le_succ_of_le (ih _)
    · split
      · split
        · simp
        · exact Nat.le_succ_of_le (ih _)
      · exact Nat.le_succ_of_le (ih _)

theorem length_skipInitializer_le (depth : Nat) (ts : List (Token Kind)) :
    (skipInitializer depth ts).length ≤ ts.length := by
  induction ts generalizing depth with
  | nil => simp [skipInitializer]
  | cons t rest ih =>
    unfold skipInitializer
    split
    · exact Nat.le_succ_of_le (ih _)
    · split
      · split
        · simp
        · exact Nat.le_succ_of_le (ih _)
      · split
        · simp
        · exact Nat.le_succ_of_le (ih _)

/-- The tokens after an array size, if one stands there. -/
def skipArraySize (ts : List (Token Kind)) : List (Token Kind) :=
  if startsWith ['['] ts then skipBrackets 0 (ts.drop 1) else ts

theorem length_skipArraySize_le (ts : List (Token Kind)) :
    (skipArraySize ts).length ≤ ts.length := by
  unfold skipArraySize
  split
  · have := length_skipBrackets_le 0 (ts.drop 1)
    rw [List.length_drop] at this
    omega
  · exact Nat.le_refl _

/-- The tokens after a declared name, past its array size and its initializer. -/
def skipDeclarator (ts : List (Token Kind)) : List (Token Kind) :=
  if startsWith ['='] (skipArraySize ts) then skipInitializer 0 ((skipArraySize ts).drop 1)
  else skipArraySize ts

theorem length_skipDeclarator_le (ts : List (Token Kind)) :
    (skipDeclarator ts).length ≤ ts.length := by
  have size := length_skipArraySize_le ts
  unfold skipDeclarator
  split
  · have := length_skipInitializer_le 0 ((skipArraySize ts).drop 1)
    rw [List.length_drop] at this
    omega
  · exact size

/-- The names of a declaration after its type, separated by commas. -/
def declaredNames : List (Token Kind) → List Text
  | [] => []
  | t :: rest =>
    if t.kind = .identifier then
      match _h : skipDeclarator rest with
      | u :: more => t.text :: if u.text = [','] then declaredNames more else []
      | [] => [t.text]
    else []
termination_by ts => ts.length
decreasing_by
  have := length_skipDeclarator_le rest
  rw [_h] at this
  simp only [List.length_cons] at this ⊢
  omega

/-- The names declared after a type: a function's name, or the names of variables. -/
def namesAfterType (ts : List (Token Kind)) : List Text :=
  match ts with
  | name :: bracket :: _ =>
    if name.kind = .identifier ∧ bracket.text = ['('] then [name.text] else declaredNames ts
  | ts => declaredNames ts

/-- Can this name be renamed at all? -/
def isRenamable (types : List Text) (name : Text) : Bool :=
  !("gl_".toList.isPrefixOf name) && !keywords.contains name && !types.contains name

/-- The names of a declaration, sorted by whether it belongs to the interface. -/
def Declared.ofNames (types : List Text) (interface : Bool) (names : List Text) : Declared :=
  let names := names.filter (isRenamable types)
  if interface then { pinned := names } else { candidates := names }

/-- The state after an operator. -/
def DeclarationState.afterOperator (s : DeclarationState) (text : Text) : DeclarationState :=
  if text = ['{'] then
    let opens := (s.pendingBlock || s.pendingStruct) && s.interfaceDepth.isNone
    { s with
      depth := s.depth + 1
      interfaceDepth := if opens then some (s.depth + 1) else s.interfaceDepth
      pendingBlock := false
      pendingStruct := false }
  else if text = ['}'] then
    { s with
      depth := s.depth - 1
      interfaceDepth := if s.interfaceDepth = some s.depth then none else s.interfaceDepth }
  else if text = [';'] then { s with storage := false, pendingBlock := false, precision := false }
  else if text = [')'] then { s with storage := false, pendingBlock := false }
  else s

/-- The names behind a point are pinned. -/
def pinnedAfter (text : Text) (rest : List (Token Kind)) : Declared :=
  match rest with
  | t :: _ => if text = ['.'] ∧ t.kind = .identifier then { pinned := [t.text] } else {}
  | [] => {}

/-- Walks the significant tokens; `before` is the text of the token before. -/
def declarationsFrom (types : List Text) (s : DeclarationState) (before : Text) :
    List (Token Kind) → Declared
  | [] => {}
  | t :: rest =>
    match t.kind with
    | .operator =>
      (pinnedAfter t.text rest).append (declarationsFrom types (s.afterOperator t.text) t.text rest)
    | .identifier =>
      if t.text = "precision".toList then
        declarationsFrom types { s with precision := true } t.text rest
      else if s.precision ∨ precisionQualifiers.contains t.text then
        declarationsFrom types s t.text rest
      else if t.text = "struct".toList then
        declarationsFrom types { s with pendingStruct := true } t.text rest
      else if storageQualifiers.contains t.text then
        declarationsFrom types { s with storage := true, pendingBlock := true } t.text rest
      else if !types.contains t.text ∨ before = ['.'] then declarationsFrom types s t.text rest
      else
        (Declared.ofNames types (s.storage || s.interfaceDepth.isSome) (namesAfterType rest)).append
          (declarationsFrom types s t.text rest)
    | _ => declarationsFrom types s t.text rest

/-- The declarations of a shader, given the names of its structures. -/
def declarations (structs : List Text) (ts : List (Token Kind)) : Declared :=
  declarationsFrom (builtinTypes ++ structs) {} [] (significant ts)

end WebTrim.Shader
