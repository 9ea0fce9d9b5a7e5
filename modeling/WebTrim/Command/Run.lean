import WebTrim.Command.Arguments
import WebTrim.Command.Log
import WebTrim.Pass.Run

/-!
# Running the command

The command loads its settings, runs a pass over a directory, and ends with a code: zero if all went
well, one if a file failed, two if it could not start.

* `settings` — the settings of a command.
* `run` — what a command does with a tree of files.
-/

set_option autoImplicit false

namespace WebTrim.Command

open Text

/-- What a command leaves behind. -/
structure Result where
  exitCode : Nat
  log : List Entry
  writes : List (Path × Text) := []
  deriving DecidableEq, Repr

/-- The names in a path text; empty names and single dots say nothing. -/
def pathNames (t : Text) : List Text :=
  (fields '/' t).filter fun name => name ≠ [] ∧ name ≠ ['.']

/-- A path text in its plain form. -/
def plainPath (t : Text) : Text :=
  let lead :=
    if ['/', '/'].isPrefixOf t && !(['/', '/', '/'].isPrefixOf t) then ['/', '/']
    else if t.head? = some '/' then ['/']
    else []
  match lead ++ join ['/'] (pathNames t) with
  | [] => ['.']
  | plain => plain

/-- The settings of a command, given the text of the settings file that it names. A dry run that is
asked for wins over the file. -/
def settings (arguments : Arguments) (file : Option Text) :
    Except Settings.ConfigError Settings :=
  Settings.load (arguments.config.map (·, file))
    (if arguments.dryRun then [("dry_run".toList, .bool true)] else [])

/-- Runs a command with its settings on the tree that its directory holds, if it is a directory. It
has no result if the pass has no outcome. -/
def run (tools : Toolkit) (arguments : Arguments) (settings : Settings) (tree : Option FileTree) :
    Except Crash Result :=
  let root := plainPath arguments.root
  match tree with
  | none => .ok
    { exitCode := 2
      log := [⟨.error, .command, "not a directory: ".toList ++ root, none⟩] }
  | some tree => do
    let outcome ← Pass.run tools settings .inOrder tree
    let failures := outcome.report.failures
    let dryRun : List Entry :=
      if settings.dryRun then
        [⟨.info, .command, "dry run: nothing was written".toList, none⟩]
      else []
    return {
      exitCode := if failures.isEmpty then 0 else 1
      log := outcome.events.map (Entry.ofEvent root) ++ failures.map Entry.ofFailure ++ dryRun
      writes := outcome.writes }

/-- What is left of a command whose pass has no outcome. -/
def abandon (crash : Crash) : Result where
  exitCode := 1
  log := [⟨.error, .command, crash.message, none⟩]

/-- What is left of a command whose settings cannot be used. -/
def refuse (e : Settings.ConfigError) : Result where
  exitCode := 2
  log := [Entry.ofConfigError e]

end WebTrim.Command
