import WebTrim.Text.Basic

/-!
# Failures

Two things can stop a step on a text. A `Fault` says that a grammar cannot make sense of the text:
the step is given up and the text stays as it was. A `Crash` stops all work on the file.
-/

set_option autoImplicit false

namespace WebTrim

/-- The most decimal digits of a number that is read or written. -/
def digitLimit : Nat :=
  4300

/-- A grammar cannot make sense of a text, perhaps from a known place on. -/
structure Fault where
  grammar : Text
  detail : Text
  offset : Option Int := none
  deriving DecidableEq, Repr

/-- The fault in words: the grammar, what is wrong, and the place if it is known. -/
def Fault.message (f : Fault) : Text :=
  f.grammar ++ ": ".toList ++ f.detail ++
    match f.offset with
    | some n => " at offset ".toList ++ Text.ofInt n
    | none => []

/-- What ends the work on a file. -/
inductive Crash where
  /-- A power of a finite number lies outside the range of doubles. -/
  | overflow
  /-- The sine or cosine of an infinite angle. -/
  | domain
  /-- A word that should be a number is none. -/
  | notANumber (word : Text)
  /-- A document that the markup reader refuses as a whole. -/
  | rejectedMarkup
  /-- A number with more digits than are read. -/
  | tooManyDigits (count : Nat)
  /-- A number with more digits than are written. -/
  | unwritable
  deriving DecidableEq, Repr

/-- The crash in words. -/
def Crash.message : Crash → Text
  | overflow => "a number is out of range".toList
  | domain => "an angle is infinite".toList
  | notANumber word => "no number: ".toList ++ word
  | rejectedMarkup => "markup that cannot be read".toList
  | tooManyDigits count => "a number of ".toList ++ Text.ofNat count ++ " digits".toList
  | unwritable => "a number has too many digits to be written".toList

/-- Why a step on a text has no result. -/
inductive Stop where
  | fault (f : Fault)
  | crash (c : Crash)
  deriving DecidableEq, Repr

end WebTrim
