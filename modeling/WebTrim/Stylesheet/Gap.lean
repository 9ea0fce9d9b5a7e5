import WebTrim.Text.Scan

/-!
# Gaps between the parts of a stylesheet

A gap is a run of white space and comments. Stripping a gap removes it, except for the two comments
that hide rules from an old browser: a comment that ends in a backslash opens the hidden part, and
the next comment closes it again.

* `gapLength` — how much of a text is a gap.
* `strip` — what is left of a gap.
-/

set_option autoImplicit false

namespace WebTrim.Stylesheet

open Text

/-- White space in a stylesheet. -/
def isSpace (c : Char) : Bool :=
  c == ' ' || c == '\t' || c == '\n' || c == '\r' || c == '\x0c'

/-- How many characters after `c` belong to a closed comment that starts with it. -/
def commentExtra? (c : Char) (rest : Text) : Option Nat :=
  match c, rest with
  | '/', '*' :: body => (cut? ['*', '/'] body).map fun (inside, _) => inside.length + 3
  | _, _ => none

/-- The length of the white space, closed comments and further characters accepted by `also` at the
start of a text. -/
def gapLengthWith (also : Char → Bool) : Text → Nat
  | [] => 0
  | c :: rest =>
    if isSpace c || also c then 1 + gapLengthWith also rest
    else
      match commentExtra? c rest with
      | some n => 1 + n + gapLengthWith also (rest.drop n)
      | none => 0
termination_by t => t.length
decreasing_by all_goals (simp only [List.length_drop, List.length_cons]; omega)

/-- The length of the gap at the start of a text. -/
def gapLength (t : Text) : Nat :=
  gapLengthWith (fun _ => false) t

/-- The comments of a gap, which are marked, and the characters between them. -/
def gapPieces (gap : Text) : List (Piece Bool) :=
  scan (fun () c rest =>
    match commentExtra? c rest with
    | some n => ⟨n, true, ()⟩
    | none => ⟨0, false, ()⟩) () gap

/-- The last comment of every run of comments with nothing between them. -/
def lastComments : List (Piece Bool) → List Text
  | [] => []
  | [p] => if p.note then [p.text] else []
  | p :: q :: rest =>
    if p.note && !q.note then p.text :: lastComments (q :: rest) else lastComments (q :: rest)

/-- What is left of a run of comments, given its last one and whether a part is hidden, and whether
a part is hidden afterwards. -/
def stripRun (hidden : Bool) (comment : Text) : Text × Bool :=
  if ['\\', '*', '/'].isSuffixOf comment then
    if hidden then ([], true) else ("/*\\*/".toList, true)
  else if hidden then ("/**/".toList, false)
  else ([], false)

/-- What is left of the runs of comments of a gap. -/
def stripRuns (hidden : Bool) : List Text → Text × Bool
  | [] => ([], hidden)
  | comment :: rest =>
    let (kept, hidden) := stripRun hidden comment
    let (more, hidden) := stripRuns hidden rest
    (kept ++ more, hidden)

/-- What is left of a gap, given whether a part is hidden, and whether a part is hidden afterwards.
-/
def strip (hidden : Bool) (gap : Text) : Text × Bool :=
  stripRuns hidden (lastComments (gapPieces gap))

end WebTrim.Stylesheet
