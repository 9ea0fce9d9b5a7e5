import WebTrim.Naming.Allocate
import WebTrim.Shader.Declaration
import WebTrim.Shader.Detect

/-!
# Renaming the local names of a shader
-/

set_option autoImplicit false

namespace WebTrim.Shader

open Text

/-- The identifiers of a token list, in order. -/
def identifiers (ts : List (Token Kind)) : List Text :=
  (ts.filter fun t => t.kind = .identifier).map Token.text

/-- The names that a shader declares for itself and may change, in code point order. -/
def localNames (source : Text) : List Text :=
  let macros := macroNames source
  let structs := structNames source
  let declared := declarations structs (tokens source)
  let pinned := declared.pinned ++ macros ++ structs
  sorted (distinct (declared.candidates.filter fun name => !pinned.contains name))

/-- The short names given to the local names of a shader. They avoid every identifier in it. -/
def localRenames (source : Text) : RenameMap :=
  let used := identifiers (tokens source)
  let records := (localNames source).map fun name =>
    { name, usage := (used.count name : Nat) : Naming.Candidate }
  let reserved := used ++ keywords ++ builtinTypes ++ macroNames source ++ structNames source
  Naming.allocate Alphabet.latin [] records reserved

/-- The shader with its local names renamed. -/
def renameLocals (source : Text) : Text :=
  let renames := localRenames source
  (tokens source).flatMap fun t => if t.kind = .identifier then renames.rename t.text else t.text

end WebTrim.Shader
