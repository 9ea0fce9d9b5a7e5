import WebTrim.Calc.Dimension

/-!
# Tokens of an expression
-/

set_option autoImplicit false

namespace WebTrim.Calc

open Text

/-- The symbols of an expression. -/
inductive Symbol where
  | plus
  | minus
  | times
  | slash
  | opening
  | closing
  | number (text : Text)
  deriving DecidableEq, Repr

namespace Symbol

/-- The symbol as it is written. -/
def text : Symbol → Text
  | plus => ['+']
  | minus => ['-']
  | times => ['*']
  | slash => ['/']
  | opening => ['(']
  | closing => [')']
  | number text => text

/-- The symbol that a single character stands for. -/
def ofChar? (c : Char) : Option Symbol :=
  match c with
  | '+' => some plus
  | '-' => some minus
  | '*' => some times
  | '/' => some slash
  | '(' => some opening
  | ')' => some closing
  | _ => none

/-- The operation of a symbol between terms. -/
def additive? : Symbol → Option Operator
  | plus => some .add
  | minus => some .sub
  | _ => none

/-- The operation of a symbol between factors. -/
def multiplicative? : Symbol → Option Operator
  | times => some .mul
  | slash => some .div
  | _ => none

end Symbol

/-- A symbol and the offset at which it stands. -/
structure Located where
  symbol : Symbol
  offset : Nat
  deriving DecidableEq, Repr

/-- The tokens of an expression that begins at `offset`; blanks separate and are dropped. -/
def tokensFrom (offset : Nat) (t : Text) : Except Error (List Located) :=
  match t with
  | [] => .ok []
  | c :: rest =>
    if isBlank c then tokensFrom (offset + 1) rest
    else
      match Symbol.ofChar? c with
      | some symbol =>
        match tokensFrom (offset + 1) rest with
        | .ok tokens => .ok (⟨symbol, offset⟩ :: tokens)
        | .error e => .error e
      | none =>
        match numeralAt? (c :: rest) with
        | none => .error (.unexpectedChar c offset)
        | some n =>
          match tokensFrom (offset + n.text.length) (rest.drop (n.text.length - 1)) with
          | .ok tokens => .ok (⟨.number n.text, offset⟩ :: tokens)
          | .error e => .error e
termination_by t.length
decreasing_by all_goals (simp only [List.length_drop, List.length_cons]; omega)

/-- The tokens of an expression. -/
def tokens (t : Text) : Except Error (List Located) :=
  tokensFrom 0 t

end WebTrim.Calc
