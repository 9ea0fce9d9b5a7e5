import WebTrim.Calc.Fold
import WebTrim.Color.Notation

/-!
# Folding `oklch()` calls

Each call is replaced by what a conversion gives for its inside, where that is smaller. Calls with
brackets inside are left alone. From an unclosed call on, nothing is replaced.

The conversion is a parameter: the rules of replacement do not depend on it. `convert` is the one
used for stylesheets.
-/

set_option autoImplicit false

namespace WebTrim.Color

open Text

/-- Finds calls; the find is the inside of a call. -/
def callMatcher : Matcher Text := fun before c rest =>
  match dropWord? "oklch(".toList (c :: rest) with
  | none => (0, none)
  | some inside =>
    if !Calc.opensWord before then (0, none)
    else
      match cut? [')'] inside with
      | none => (rest.length, none)
      | some (body, _) => ("oklch(".length + body.length, some body)

variable {ε : Type}

/-- What stands for a piece of text after folding. -/
def foldPiece (conv : Text → Except ε (Option Text)) (p : Piece (Option Text)) : Except ε Text :=
  match p.note with
  | none => .ok p.text
  | some body =>
    if body.contains '(' then .ok p.text
    else
      match conv body with
      | .error e => .error e
      | .ok none => .ok p.text
      | .ok (some color) =>
        .ok (if byteLength color < byteLength p.text then color else p.text)

/-- The text with its calls folded. -/
def foldCallsWith (conv : Text → Except ε (Option Text)) (t : Text) : Except ε Text :=
  ((callMatcher.pieces t).mapM (foldPiece conv)).map List.flatten

/-- The stylesheet with the calls in its code folded. -/
def foldStylesheetWith (conv : Text → Except ε (Option Text)) (css : Text) : Except ε Text :=
  Stylesheet.mapCodeM (foldCallsWith conv) css

/-- The text with its colours folded. -/
def foldCalls (t : Text) : Except Crash Text :=
  foldCallsWith convert t

/-- The stylesheet with its colours folded. -/
def foldStylesheet (css : Text) : Except Crash Text :=
  foldStylesheetWith convert css

end WebTrim.Color
