import WebTrim.Corpus.Allocation
import WebTrim.Optimize
import WebTrim.Pass.Report
import WebTrim.Pass.Schedule

/-!
# A pass over a tree of files

A pass reads the files, scans each, gives out short names once for all of them, and optimizes each
file with these names. A file that fails in a phase costs no other file anything. A file is written
only if it gets smaller.

* `work` — the phases of a pass: reading, scanning and optimizing.
* `Work.outcome` — the report of a pass, what it writes and what it tells.
* `run` — a pass over a tree, which has no outcome if the scans give no short names.
* `Outcome.tree` — the tree after the pass.
* `runBelow` — a pass over the tree that a directory holds.
-/

set_option autoImplicit false

namespace WebTrim.Pass

open Text

/-! ## Phases -/

/-- What a file gives when it is read. -/
def readContent : Content → Except Cause Text
  | .text t => .ok t
  | .bytes _ => .error .notText
  | .locked => .error .locked
  | .readOnly t => .ok t

/-- The tasks of a phase with their results. -/
abbrev Results (α : Type) := List (Path × Except Cause α)

variable {α : Type}

/-- The results of the tasks that were done. -/
def Results.done (results : Results α) : List (Path × α) :=
  results.filterMap fun (path, result) => result.toOption.map (path, ·)

/-- The tasks that failed. -/
def Results.failures (phase : Phase) (results : Results α) : List Failure :=
  results.filterMap fun (path, result) =>
    match result with
    | .ok _ => none
    | .error cause => some ⟨path, phase, cause⟩

/-- Reads the files. -/
def readAll (tasks : List (Path × Content)) : Results Text :=
  tasks.map fun (path, content) => (path, readContent content)

/-- Scans the texts. -/
def scanAll (tools : Toolkit) (settings : Settings) (tasks : List (Path × Text)) :
    Results FileScan :=
  tasks.map fun (path, text) =>
    (path, (FileScan.ofFile tools.readFacts settings.scopeLead path.text text).mapError .crash)

/-- The short names for the scanned files. -/
def renamesFor (tools : Toolkit) (settings : Settings) (scans : List FileScan) :
    Except Crash Renames := do
  let harvest ← Harvest.combine tools.decode tools.refusal? settings.propertyMinLength scans
  return harvest.renames settings

/-- A text before and after. -/
structure Change where
  before : Text
  after : Text
  deriving DecidableEq, Repr

/-- The bytes that a change saves. -/
def Change.saved (change : Change) : Nat :=
  byteLength change.before - byteLength change.after

/-- Optimizes the texts. -/
def optimizeAll (tools : Toolkit) (settings : Settings) (renames : Renames)
    (tasks : List (Path × Text)) : Results Change :=
  tasks.map fun (path, text) =>
    (path, ((Optimize.file tools renames settings path.text text).mapError .crash).map (⟨text, ·⟩))

/-- What the phases of a pass give. -/
structure Work where
  read : Results Text
  scanned : Results FileScan
  renames : Renames
  optimized : Results Change

/-- Reads, scans and optimizes the files. Files that cannot be read are not scanned, and a file that
cannot be scanned is optimized all the same. -/
def work (tools : Toolkit) (settings : Settings) (schedule : Schedule)
    (found : List (Path × Content)) : Except Crash Work := do
  let read := readAll (schedule.reads found)
  let scanned := scanAll tools settings (schedule.scans read.done)
  let renames ← renamesFor tools settings (scanned.done.map (·.2))
  return {
    read, scanned, renames
    optimized := optimizeAll tools settings renames (schedule.optimizations read.done) }

/-! ## The pass -/

/-- What a pass leaves behind. -/
structure Outcome where
  report : Report := {}
  writes : List (Path × Text) := []
  events : List Event := []
  deriving DecidableEq, Repr

/-- The changes that save something, in path order. -/
def worthwhile (changes : List (Path × Change)) : List (Path × Change) :=
  (changes.filter fun (_, change) => 0 < change.saved).mergeSort fun a b => Path.le a.1 b.1

/-- Report order of paths: by their texts, and by their names where the texts agree. -/
def reportsBefore (a b : Path) : Bool :=
  if a.text = b.text then Path.le a b else Text.le a.text b.text

/-- The failures sorted by path; those of one file stay in the order of their phases. -/
def sortFailures (failures : List Failure) : List Failure :=
  failures.mergeSort fun a b => reportsBefore a.path b.path

/-- How many names got short ones. -/
def countMapped (renames : Renames) : Mapped where
  properties := renames.properties.size
  classes := renames.classes.size
  ids := renames.ids.size
  scopeIds := renames.scopes.size

/-- The failure to write a file. -/
def writeFailure (path : Path) : Failure where
  path := path
  phase := .write
  cause := .readOnly

/-- What a pass leaves behind once every file is optimized. A file is written if it gets smaller;
where `refuses` holds of its path the write fails, and a dry run writes nothing. -/
def Work.outcome (settings : Settings) (refuses : Path → Bool) (done : Work) : Outcome :=
  let changes := worthwhile done.optimized.done
  let fails (path : Path) : Bool := !settings.dryRun && refuses path
  let made := changes.filter fun (path, _) => !fails path
  let unmade := changes.filter fun (path, _) => fails path
  let savings := made.map fun (path, change) => (path, change.saved)
  let bytesSaved := savings.foldr (fun saving total => saving.2 + total) 0
  let mapped := countMapped done.renames
  { report :=
      { savings
        bytesSaved
        failures := sortFailures
          (done.read.failures .read ++ done.scanned.failures .harvest ++
            done.optimized.failures .optimize ++ unmade.map fun (path, _) => writeFailure path)
        mapped := some mapped }
    writes := if settings.dryRun then [] else made.map fun (path, change) => (path, change.after)
    events :=
      (done.read.failures .read).map .failed ++ (done.scanned.failures .harvest).map .failed ++
        [.mapped mapped] ++ (done.optimized.failures .optimize).map .failed ++
        (changes.map fun (path, change) =>
          if fails path then .failed (writeFailure path) else .saved path change.saved) ++
        [.total bytesSaved] }

/-- A pass over a tree. It has no outcome if the files have no harvest. -/
def run (tools : Toolkit) (settings : Settings) (schedule : Schedule) (tree : FileTree) :
    Except Crash Outcome :=
  let found := tree.find settings.extensions
  if found.isEmpty then .ok { events := [.nothingFound] }
  else (work tools settings schedule found).map (Work.outcome settings tree.isReadOnly)

/-- The tree after a pass whose writes stand for files below `root`. -/
def Outcome.tree (outcome : Outcome) (root : Path) (tree : FileTree) : FileTree :=
  tree.putAll (outcome.writes.map fun (path, text) => (root ++ path, .text text))

/-- A pass over the tree that a directory holds; none if there is no such directory. -/
def runBelow (tools : Toolkit) (settings : Settings) (schedule : Schedule) (root : Path)
    (tree : FileTree) : Option (Except Crash Outcome) :=
  if tree.isDirectory root then some (run tools settings schedule (tree.below root)) else none

end WebTrim.Pass
