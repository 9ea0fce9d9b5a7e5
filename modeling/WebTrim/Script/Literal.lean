import WebTrim.Script.Token

/-!
# Literals of a script

The content of string literals and template segments, which is all that is ever changed in a script.

* `Quoted` — a string token taken apart into its quote, its body and whether it is closed.
* `literals` — the bodies of all literals.
* `mapLiterals` — the script with a function applied to each body.
* `plainTemplates` — the places of templates without a hole.
-/

set_option autoImplicit false

namespace WebTrim.Script

open Text

/-- A string token taken apart. -/
structure Quoted where
  opening : Text
  body : Text
  closing : Text
  deriving DecidableEq, Repr

/-- Is the number of backslashes at the end of a text odd? -/
def endsEscaped (t : Text) : Bool :=
  (t.reverse.takeWhile (· == '\\')).length % 2 == 1

/-- Takes the text of a string token apart. -/
def Quoted.ofText : Text → Quoted
  | [] => ⟨[], [], []⟩
  | quote :: rest =>
    if rest.getLast? = some quote ∧ !endsEscaped (quote :: rest.dropLast) then
      ⟨[quote], rest.dropLast, [quote]⟩
    else ⟨[quote], rest, []⟩

/-- The text of the token. -/
def Quoted.text (q : Quoted) : Text :=
  q.opening ++ q.body ++ q.closing

/-- The body of a literal token. -/
def literalBody? (t : Token Kind) : Option Text :=
  match t.kind with
  | .string => some (Quoted.ofText t.text).body
  | .segment => some t.text
  | _ => none

/-- The bodies of the string literals and template segments of a script. -/
def literals (script : Text) : List Text :=
  (tokens script).filterMap literalBody?

/-- A token with `f` applied to its body, if it is a literal. -/
def mapToken (f : Text → Text) (t : Token Kind) : Token Kind :=
  match t.kind with
  | .string =>
    let q := Quoted.ofText t.text
    ⟨.string, { q with body := f q.body }.text⟩
  | .segment => ⟨.segment, f t.text⟩
  | _ => t

/-- The script with `f` applied to the body of each literal. -/
def mapLiterals (f : Text → Text) (script : Text) : Text :=
  Token.join ((tokens script).map (mapToken f))

/-- Is this token a backtick? -/
def isBacktick (t : Token Kind) : Bool :=
  t.kind == .operator && t.text == ['`']

/-- The places of the segments that stand between two backticks, counted from `index`. -/
def plainTemplatesFrom (index : Nat) : List (Token Kind) → List Nat
  | before :: token :: after :: rest =>
    let found := plainTemplatesFrom (index + 1) (token :: after :: rest)
    if token.kind = .segment ∧ isBacktick before ∧ isBacktick after then (index + 1) :: found
    else found
  | _ => []

/-- The places of the templates without a hole. -/
def plainTemplates (ts : List (Token Kind)) : List Nat :=
  plainTemplatesFrom 0 ts

end WebTrim.Script
