import WebTrim.Calc.Token
import WebTrim.Text.Case
import WebTrim.Text.Search

/-!
# Expressions

The grammar of an expression, evaluated while it is read, operators of one rank from the left:

* an expression is terms joined by `+` and `-`,
* a term is factors joined by `*` and `/`,
* a factor is a signed factor, an expression in brackets, or a number.

Each reader returns the tokens it leaves, which are fewer than it was given. Brackets and signs nest to
any depth. Where readers call each other the depth has a limit, which is not modelled.

* `parse`, `value` — the value of a token list and of a text.
* `literal?` — the literal that an expression amounts to.
-/

set_option autoImplicit false

namespace WebTrim.Calc

open Text

/-- Tokens left over from `ts` after something was read. -/
abbrev Shorter (ts : List Located) := { rest : List Located // rest.length < ts.length }

/-- Tokens left over from `ts` after perhaps nothing was read. -/
abbrev NotLonger (ts : List Located) := { rest : List Located // rest.length ≤ ts.length }

mutual

/-- Terms joined by `+` and `-`. -/
def expression (ts : List Located) : Except Error (Dimension × Shorter ts) :=
  match term ts with
  | .error e => .error e
  | .ok (left, rest) =>
    match moreTerms left rest.val with
    | .error e => .error e
    | .ok (value, last) => .ok (value, ⟨last.val, Nat.lt_of_le_of_lt last.property rest.property⟩)
termination_by (ts.length, 3)
decreasing_by
  · exact Prod.Lex.right _ (by omega)
  · exact Prod.Lex.left _ _ rest.property

/-- The terms after the first, added to `left`. -/
def moreTerms (left : Dimension) (ts : List Located) : Except Error (Dimension × NotLonger ts) :=
  match ts with
  | [] => .ok (left, ⟨[], Nat.le_refl _⟩)
  | t :: rest =>
    match t.symbol.additive? with
    | none => .ok (left, ⟨t :: rest, Nat.le_refl _⟩)
    | some operator =>
      match term rest with
      | .error e => .error e
      | .ok (right, more) =>
        match operator.apply left right with
        | .error e => .error e
        | .ok sum =>
          match moreTerms sum more.val with
          | .error e => .error e
          | .ok (value, last) =>
            .ok (value, ⟨last.val, by
              have := last.property
              have := more.property
              simp only [List.length_cons]
              omega⟩)
termination_by (ts.length, 2)
decreasing_by
  · exact Prod.Lex.left _ _ (by simp)
  · exact Prod.Lex.left _ _ (by have := more.property; simp only [List.length_cons]; omega)

/-- Factors joined by `*` and `/`. -/
def term (ts : List Located) : Except Error (Dimension × Shorter ts) :=
  match factor ts with
  | .error e => .error e
  | .ok (left, rest) =>
    match moreFactors left rest.val with
    | .error e => .error e
    | .ok (value, last) => .ok (value, ⟨last.val, Nat.lt_of_le_of_lt last.property rest.property⟩)
termination_by (ts.length, 1)
decreasing_by
  · exact Prod.Lex.right _ (by omega)
  · exact Prod.Lex.left _ _ rest.property

/-- The factors after the first, multiplied to `left`. -/
def moreFactors (left : Dimension) (ts : List Located) : Except Error (Dimension × NotLonger ts) :=
  match ts with
  | [] => .ok (left, ⟨[], Nat.le_refl _⟩)
  | t :: rest =>
    match t.symbol.multiplicative? with
    | none => .ok (left, ⟨t :: rest, Nat.le_refl _⟩)
    | some operator =>
      match factor rest with
      | .error e => .error e
      | .ok (right, more) =>
        match operator.apply left right with
        | .error e => .error e
        | .ok product =>
          match moreFactors product more.val with
          | .error e => .error e
          | .ok (value, last) =>
            .ok (value, ⟨last.val, by
              have := last.property
              have := more.property
              simp only [List.length_cons]
              omega⟩)
termination_by (ts.length, 0)
decreasing_by
  · exact Prod.Lex.left _ _ (by simp)
  · exact Prod.Lex.left _ _ (by have := more.property; simp only [List.length_cons]; omega)

/-- A number, a signed factor, or an expression in brackets. -/
def factor (ts : List Located) : Except Error (Dimension × Shorter ts) :=
  match ts with
  | [] => .error .unexpectedEnd
  | t :: rest =>
    match t.symbol with
    | .number text =>
      match readNumber text with
      | .error e => .error e
      | .ok value => .ok (value, ⟨rest, by simp⟩)
    | .plus =>
      match factor rest with
      | .error e => .error e
      | .ok (value, last) => .ok (value, ⟨last.val, Nat.lt_succ_of_lt last.property⟩)
    | .minus =>
      match factor rest with
      | .error e => .error e
      | .ok (value, last) => .ok (value.neg, ⟨last.val, Nat.lt_succ_of_lt last.property⟩)
    | .opening =>
      match expression rest with
      | .error e => .error e
      | .ok (_, ⟨[], _⟩) => .error .unexpectedEnd
      | .ok (value, ⟨u :: last, h⟩) =>
        if u.symbol = .closing then
          .ok (value, ⟨last, by simp only [List.length_cons] at h ⊢; omega⟩)
        else .error (.unclosed u.offset)
    | symbol => .error (.unexpected symbol.text t.offset)
termination_by (ts.length, 0)
decreasing_by
  all_goals exact Prod.Lex.left _ _ (by simp)

end

/-- The value of a token list, all of which must be read. -/
def parse (ts : List Located) : Except Error Dimension :=
  match expression ts with
  | .error e => .error e
  | .ok (value, ⟨[], _⟩) => .ok value
  | .ok (_, ⟨t :: _, _⟩) => .error (.trailing t.offset)

/-- The value of an expression. -/
def value (t : Text) : Except Error Dimension :=
  match tokens t with
  | .error e => .error e
  | .ok ts => parse ts

/-- The functions that are left to the browser. -/
def functionNames : List Text :=
  ["var".toList, "env".toList, "min".toList, "max".toList, "clamp".toList, "calc".toList]

/-- Does one of the functions with its bracket stand at the beginning of a text? -/
def startsFunction (t : Text) : Bool :=
  functionNames.any fun name =>
    (dropWord? name t).any fun rest => (rest.dropWhile isBlank).head? = some '('

/-- The literal that an expression amounts to, if it calls no function and has a value with a finite
decimal form. -/
def literal? (t : Text) : Except Crash (Option Text) :=
  if search (fun _ rest => startsFunction rest) none t then .ok none
  else
    match value t with
    | .ok d => d.text?
    | .error e =>
      match e.stop with
      | .fault _ => .ok none
      | .crash crash => .error crash

end WebTrim.Calc
