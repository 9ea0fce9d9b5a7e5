import WebTrim.Naming.Rename
import WebTrim.Stylesheet.Token
import WebTrim.Text.Case

/-!
# Class and id names in selectors

A class is written `.name` and an id `#name`. The mark, a full stop or a number sign, tells which.

* `markedNames` — the names behind a mark in a piece of code.
* `renameMarked` — the code with those names renamed.
-/

set_option autoImplicit false

namespace WebTrim.Stylesheet

open Text

/-- A name behind a mark, as it is written and as it reads. -/
structure MarkedName where
  raw : Text
  name : Text
  deriving DecidableEq, Repr

/-- Does the text begin with `url(`, in any case? -/
def opensUrl (t : Text) : Bool :=
  (dropWord? "url(".toList t).isSome

/-- Can this name stand behind the mark? Numbers such as `.5em` and hex colours are no names. -/
def isMarkable (mark : Char) (name : Text) : Bool :=
  !name.isEmpty && !startsWithDigit name && !(mark == '#' && isHexColor name)

/-- Finds names behind the mark. Escaped characters and unquoted `url(…)` are passed over. -/
def markedMatcher (mark : Char) : Matcher MarkedName := fun before c rest =>
  if c = '\\' then (1, none)
  else if opensUrl (c :: rest) && !(before.any isIdentChar) then
    (lengthThrough [')'] rest, none)
  else if c ≠ mark then (0, none)
  else
    let n := identLength rest
    let raw := rest.take n
    let name := unescape raw
    (n, if isMarkable mark name then some ⟨raw, name⟩ else none)

/-- The names behind the mark, with the offsets at which mark and name begin and end. -/
def markedSpans (mark : Char) (code : Text) : List (Nat × Nat × MarkedName) :=
  let pieces := (markedMatcher mark).pieces code
  let spans := pieces.foldl (fun (start, found) p =>
    let stop := start + p.text.length
    match p.note with
    | some m => (stop, (start, stop, m) :: found)
    | none => (stop, found)) (0, [])
  spans.2.reverse

/-- The names behind the mark in a piece of code. -/
def markedNames (mark : Char) (code : Text) : List MarkedName :=
  (markedMatcher mark).findAll code

/-- The code with the names behind the mark renamed. -/
def renameMarked (mark : Char) (renames : RenameMap) (code : Text) : Text :=
  (markedMatcher mark).replaceAll
    (fun m => (renames.find? m.name).map fun short => mark :: escape short) code

/-- The names behind the mark in the code of a stylesheet. -/
def selectorNames (mark : Char) (css : Text) : List MarkedName :=
  (codeTexts css).flatMap (markedNames mark)

end WebTrim.Stylesheet
