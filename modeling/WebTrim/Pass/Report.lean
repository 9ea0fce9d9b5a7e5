import WebTrim.Failure
import WebTrim.FileTree

/-!
# What a pass reports

* `Failure` — a file, the phase in which it failed, and why.
* `Report` — what a pass saved, what failed, and how many names got short ones.
* `Event` — what a pass tells while it runs.
-/

set_option autoImplicit false

namespace WebTrim.Pass

/-- The phases of a pass. -/
inductive Phase where
  | read
  | harvest
  | optimize
  | write
  deriving DecidableEq, Repr

/-- The name of a phase in reports. -/
def Phase.word : Phase → Text
  | read => "read".toList
  | harvest => "harvest".toList
  | optimize => "rewrite".toList
  | write => "write".toList

/-- Why a phase fails for a file. -/
inductive Cause where
  | notText
  | locked
  | readOnly
  | crash (c : Crash)
  deriving DecidableEq, Repr

/-- The cause in words. -/
def Cause.message : Cause → Text
  | notText => "not a UTF-8 text".toList
  | locked => "cannot be opened".toList
  | readOnly => "cannot be written".toList
  | crash c => c.message

/-- A file that failed in a phase. -/
structure Failure where
  path : Path
  phase : Phase
  cause : Cause
  deriving DecidableEq, Repr

/-- How many names of each category got a short name. -/
structure Mapped where
  properties : Nat
  classes : Nat
  ids : Nat
  scopeIds : Nat
  deriving DecidableEq, Repr

/-- The result of a pass: the bytes saved per file, in path order, and in all; the failures, sorted
by path; and how many names were mapped, if there was any file. -/
structure Report where
  savings : List (Path × Nat) := []
  bytesSaved : Nat := 0
  failures : List Failure := []
  mapped : Option Mapped := none
  deriving DecidableEq, Repr

/-- What a pass tells while it runs. -/
inductive Event where
  | nothingFound
  | failed (f : Failure)
  | mapped (m : Mapped)
  | saved (path : Path) (bytes : Nat)
  | total (bytes : Nat)
  deriving DecidableEq, Repr

end WebTrim.Pass
