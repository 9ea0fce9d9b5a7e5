import WebTrim.Calc.Expression
import WebTrim.Stylesheet.Token
import WebTrim.Text.Case

/-!
# Folding `calc()` calls

A call whose value has a finite decimal form is replaced by that literal when the literal is
smaller. When a call is not replaced, the calls inside it are tried on their own. From an unclosed
call on, nothing is replaced.
-/

set_option autoImplicit false

namespace WebTrim.Calc

open Text

/-- How many characters precede the bracket that closes `depth + 1` open ones. -/
def closingIndex? (depth : Nat) : Text → Option Nat
  | [] => none
  | c :: rest =>
    if c = '(' then (closingIndex? (depth + 1) rest).map (· + 1)
    else if c = ')' then
      match depth with
      | 0 => some 0
      | depth + 1 => (closingIndex? depth rest).map (· + 1)
    else (closingIndex? depth rest).map (· + 1)

/-- May a function name begin after this character? Not inside a word. -/
def opensWord (before : Option Char) : Bool :=
  !(before.any fun b => isWordChar b || b == '-')

/-- A call: its name and bracket as they are written, and the expression inside. -/
structure Call where
  opening : Text
  body : Text
  deriving DecidableEq, Repr

/-- The text of a call. -/
def Call.text (call : Call) : Text :=
  call.opening ++ call.body ++ [')']

/-- The literal that replaces a call, if it has one that is smaller. -/
def Call.literal? (call : Call) : Except Crash (Option Text) :=
  (Calc.literal? call.body).map fun literal =>
    literal.filter fun l => byteLength l < byteLength call.text

/-- Finds calls. A call that is replaced is taken as a whole, from any other call only its
opening. -/
def callMatcher : Matcher Call := fun before c rest =>
  match dropWord? "calc(".toList (c :: rest) with
  | none => (0, none)
  | some inside =>
    if !opensWord before then (0, none)
    else
      match closingIndex? 0 inside with
      | none => (rest.length, none)
      | some n =>
        let call : Call := ⟨(c :: rest).take "calc(".length, inside.take n⟩
        match call.literal? with
        | .ok none => ("calc".length, some call)
        | _ => ("calc(".length + n, some call)

/-- What stands for a piece of text after folding. -/
def foldPiece (p : Piece (Option Call)) : Except Crash Text :=
  match p.note with
  | none => .ok p.text
  | some call => call.literal?.map fun literal => literal.getD p.text

/-- The text with its calls folded. -/
def foldCalls (t : Text) : Except Crash Text :=
  ((callMatcher.pieces t).mapM foldPiece).map List.flatten

/-- The stylesheet with the calls in its code folded. -/
def foldStylesheet (css : Text) : Except Crash Text :=
  Stylesheet.mapCodeM foldCalls css

end WebTrim.Calc
