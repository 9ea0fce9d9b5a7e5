import WebTrim.Pass.Report
import WebTrim.Settings.Load

/-!
# The log of the command

* `Entry` — a line of the log: a headline and perhaps a detail.
* `Entry.ofEvent` — the line for something a pass tells.
-/

set_option autoImplicit false

namespace WebTrim.Command

open Text

/-- How serious a line is. -/
inductive Level where
  | info
  | error
  deriving DecidableEq, Repr

/-- The level as it is written. -/
def Level.word : Level → Text
  | info => "INFO".toList
  | error => "ERROR".toList

/-- Which part writes a line. -/
inductive Source where
  | command
  | pass
  deriving DecidableEq, Repr

/-- A line of the log. -/
structure Entry where
  level : Level
  source : Source
  headline : Text
  detail : Option Text := none
  deriving DecidableEq, Repr

/-- The whole message of a line. -/
def Entry.message (e : Entry) : Text :=
  match e.detail with
  | some detail => e.headline ++ ": ".toList ++ detail
  | none => e.headline

/-- A number of bytes. -/
def bytesText (n : Nat) : Text :=
  ofNat n ++ " bytes".toList

/-- What is said of a file that fails in a phase. -/
def phaseVerdict : Pass.Phase → Text
  | .read => "cannot read".toList
  | .harvest => "harvest crashed".toList
  | .optimize => "rewrite crashed".toList
  | .write => "cannot write".toList

/-- The headline that tells how many names were mapped. -/
def mappedText (m : Pass.Mapped) : Text :=
  "mapped ".toList ++ ofNat m.properties ++ " custom properties, ".toList ++ ofNat m.classes ++
    " classes, ".toList ++ ofNat m.ids ++ " ids and ".toList ++ ofNat m.scopeIds ++
    " scope ids".toList

/-- The line for something that a pass over the directory `root` tells. -/
def Entry.ofEvent (root : Text) : Pass.Event → Entry
  | .nothingFound => ⟨.info, .pass, "no files to optimize under ".toList ++ root, none⟩
  | .failed f =>
    ⟨.error, .pass, f.path.text ++ ": ".toList ++ phaseVerdict f.phase, some f.cause.message⟩
  | .mapped m => ⟨.info, .pass, mappedText m, none⟩
  | .saved path bytes =>
    ⟨.info, .pass, path.text ++ ": saved ".toList ++ bytesText bytes, none⟩
  | .total bytes => ⟨.info, .pass, "total saved: ".toList ++ bytesText bytes, none⟩

/-- The line for a failure in the report. -/
def Entry.ofFailure (f : Pass.Failure) : Entry :=
  ⟨.error, .command, f.path.text ++ ": ".toList ++ f.phase.word ++ " failed".toList,
    some f.cause.message⟩

/-- The line for settings that cannot be used. -/
def Entry.ofConfigError (e : Settings.ConfigError) : Entry :=
  ⟨.error, .command, e.message, none⟩

end WebTrim.Command
