import Mathlib.Algebra.GroupWithZero.Nat
import WebTrim.Proofs.Pass.Schedule

/-!
# What becomes of each file in a pass

The report of a pass and its writes are given file by file: which files get smaller and by how much,
and which fail in which phase.

* `Reads`, `Saves`, `Fails` — what a file does in the phases of a pass.
* `Settles` — the report and the writes of a pass, file by file.
* `run_settles` — **every pass that has an outcome settles its files so**, under any schedule.
* `run_error_iff` — a pass has no outcome exactly if some name in a scanned literal cannot be decoded.
* `Settles.content?_of_write`, `Settles.content?_of_no_write` — the tree after a pass.
-/

set_option autoImplicit false

namespace WebTrim.Pass

open Text

variable {tools : Toolkit} {settings : Settings} {tree : FileTree} {path : Path} {change : Change}
  {failure : Failure}

/-! ## Files in the phases -/

/-- A file is found in the tree and read as a text. -/
def Reads (settings : Settings) (tree : FileTree) (path : Path) (text : Text) : Prop :=
  ∃ content, (path, content) ∈ tree.find settings.extensions ∧ readContent content = .ok text

/-- The short names for the files of a tree. -/
def treeNames (tools : Toolkit) (settings : Settings) (tree : FileTree) : Renames :=
  shortNames tools settings (tree.find settings.extensions)

/-- A file gets smaller. -/
structure Saves (tools : Toolkit) (settings : Settings) (tree : FileTree) (path : Path)
    (change : Change) : Prop where
  reads : Reads settings tree path change.before
  optimized : Optimize.file tools (treeNames tools settings tree) settings path.text change.before =
    .ok change.after
  smaller : byteLength change.after < byteLength change.before

/-- A file fails in a phase. -/
inductive Fails (tools : Toolkit) (settings : Settings) (tree : FileTree) : Failure → Prop
  | read {path : Path} {content : Content} {cause : Cause}
      (found : (path, content) ∈ tree.find settings.extensions)
      (refused : readContent content = .error cause) :
      Fails tools settings tree ⟨path, .read, cause⟩
  | harvest {path : Path} {text : Text} {crash : Crash} (reads : Reads settings tree path text)
      (crashed : FileScan.ofFile tools.readFacts settings.scopeLead path.text text =
        .error crash) :
      Fails tools settings tree ⟨path, .harvest, .crash crash⟩
  | optimize {path : Path} {text : Text} {crash : Crash} (reads : Reads settings tree path text)
      (crashed : Optimize.file tools (treeNames tools settings tree) settings path.text text =
        .error crash) :
      Fails tools settings tree ⟨path, .optimize, .crash crash⟩
  | write {path : Path} {change : Change} (saves : Saves tools settings tree path change)
      (writes : settings.dryRun = false) (refused : tree.isReadOnly path = true) :
      Fails tools settings tree (writeFailure path)

/-! ## The plan, file by file -/

theorem mem_readAll {found : List (Path × Content)} {result : Except Cause Text} :
    (path, result) ∈ readAll found ↔
      ∃ content, (path, content) ∈ found ∧ readContent content = result := by
  unfold readAll
  rw [List.mem_map]
  constructor
  · rintro ⟨⟨key, content⟩, hfound, heq⟩
    rw [Prod.mk.injEq] at heq
    obtain ⟨rfl, hread⟩ := heq
    exact ⟨content, hfound, hread⟩
  · rintro ⟨content, hfound, rfl⟩
    exact ⟨_, hfound, rfl⟩

theorem mem_done_readAll {found : List (Path × Content)} {text : Text} :
    (path, text) ∈ (readAll found).done ↔
      ∃ content, (path, content) ∈ found ∧ readContent content = .ok text := by
  rw [Results.mem_done, mem_readAll]

theorem mem_optimized {found : List (Path × Content)} {result : Except Cause Change} :
    (path, result) ∈ (plan tools settings found).optimized ↔
      ∃ text, (path, text) ∈ (readAll found).done ∧
        ((Optimize.file tools (shortNames tools settings found) settings path.text text).mapError
          Cause.crash).map (⟨text, ·⟩) = result := by
  unfold plan optimizeAll
  rw [List.mem_map]
  constructor
  · rintro ⟨⟨key, text⟩, hdone, heq⟩
    cases heq
    exact ⟨text, hdone, rfl⟩
  · rintro ⟨text, hdone, rfl⟩
    exact ⟨_, hdone, rfl⟩

theorem mem_scanned {found : List (Path × Content)} {result : Except Cause FileScan} :
    (path, result) ∈ (plan tools settings found).scanned ↔
      ∃ text, (path, text) ∈ (readAll found).done ∧
        (FileScan.ofFile tools.readFacts settings.scopeLead path.text text).mapError Cause.crash =
          result := by
  unfold plan scanAll
  rw [List.mem_map]
  constructor
  · rintro ⟨⟨key, text⟩, hdone, heq⟩
    cases heq
    exact ⟨text, hdone, rfl⟩
  · rintro ⟨text, hdone, rfl⟩
    exact ⟨_, hdone, rfl⟩

/-- The work planned for the files of a tree. -/
def treePlan (tools : Toolkit) (settings : Settings) (tree : FileTree) : Work :=
  plan tools settings (tree.find settings.extensions)

theorem mem_worthwhile :
    (path, change) ∈ worthwhile (treePlan tools settings tree).optimized.done ↔
      Saves tools settings tree path change := by
  unfold worthwhile treePlan
  rw [List.mem_mergeSort, List.mem_filter, Results.mem_done, mem_optimized, decide_eq_true_eq,
    Change.saved, Nat.sub_pos_iff_lt]
  constructor
  · rintro ⟨⟨text, hdone, hresult⟩, hsmaller⟩
    cases hfile : Optimize.file tools (shortNames tools settings (tree.find settings.extensions))
        settings path.text text with
    | error crash =>
      rw [hfile] at hresult
      cases hresult
    | ok after =>
      rw [hfile] at hresult
      cases hresult
      exact ⟨mem_done_readAll.mp hdone, hfile, hsmaller⟩
  · rintro ⟨hreads, hfile, hsmaller⟩
    refine ⟨⟨change.before, mem_done_readAll.mpr hreads, ?_⟩, hsmaller⟩
    rw [show Optimize.file tools (shortNames tools settings (tree.find settings.extensions))
      settings path.text change.before = .ok change.after from hfile]
    rfl

theorem mapError_eq_error_iff {α : Type} {result : Except Crash α} {cause : Cause} :
    result.mapError Cause.crash = .error cause ↔
      ∃ crash, result = .error crash ∧ .crash crash = cause := by
  cases result with
  | ok a => simp [Except.mapError]
  | error crash => simp [Except.mapError]

/-- The files whose scan failed. -/
theorem mem_scanned_error {cause : Cause} :
    (path, .error cause) ∈ (treePlan tools settings tree).scanned ↔ ∃ text crash,
      Reads settings tree path text ∧
        FileScan.ofFile tools.readFacts settings.scopeLead path.text text = .error crash ∧
          .crash crash = cause := by
  unfold treePlan
  simp only [mem_scanned, mem_done_readAll, mapError_eq_error_iff, exists_and_left, Reads]

/-- The files that could not be optimized. -/
theorem mem_optimized_error {cause : Cause} :
    (path, .error cause) ∈ (treePlan tools settings tree).optimized ↔ ∃ text crash,
      Reads settings tree path text ∧
        Optimize.file tools (treeNames tools settings tree) settings path.text text =
          .error crash ∧ .crash crash = cause := by
  have hmap : ∀ (result : Except Cause Text) (text : Text),
      result.map (Change.mk text) = .error cause ↔ result = .error cause := by
    intro result text
    cases result <;> simp [Except.map]
  unfold treePlan
  simp only [mem_optimized, mem_done_readAll, hmap, mapError_eq_error_iff, exists_and_left, Reads,
    treeNames]

theorem mem_failures_treePlan :
    failure ∈ (treePlan tools settings tree).failures settings tree.isReadOnly ↔
      Fails tools settings tree failure := by
  unfold Work.failures
  rw [List.mem_flatMap]
  constructor
  · rintro ⟨phase, _, hmem⟩
    obtain ⟨path, phase', cause⟩ := failure
    obtain rfl : phase' = phase := phase_of_mem_failuresIn hmem
    cases phase' with
    | read =>
      obtain ⟨_, hresult⟩ := Results.mem_failures.mp hmem
      obtain ⟨content, hfound, hread⟩ := mem_readAll.mp hresult
      exact .read hfound hread
    | harvest =>
      obtain ⟨_, hresult⟩ := Results.mem_failures.mp hmem
      obtain ⟨text, crash, hreads, hcrashed, rfl⟩ := mem_scanned_error.mp hresult
      exact .harvest hreads hcrashed
    | optimize =>
      obtain ⟨_, hresult⟩ := Results.mem_failures.mp hmem
      obtain ⟨text, crash, hreads, hcrashed, rfl⟩ := mem_optimized_error.mp hresult
      exact .optimize hreads hcrashed
    | write =>
      obtain ⟨⟨_, change⟩, hchange, heq⟩ := List.mem_map.mp hmem
      cases heq
      obtain ⟨hsaves, hrefused⟩ := List.mem_filter.mp hchange
      rw [Bool.and_eq_true, Bool.not_eq_true'] at hrefused
      exact .write (mem_worthwhile.mp hsaves) hrefused.1 hrefused.2
  · intro hfails
    cases hfails with
    | read hfound hrefused =>
      refine ⟨.read, by decide, Results.mem_failures.mpr ⟨rfl, ?_⟩⟩
      exact mem_readAll.mpr ⟨_, hfound, hrefused⟩
    | harvest hreads hcrashed =>
      refine ⟨.harvest, by decide, Results.mem_failures.mpr ⟨rfl, ?_⟩⟩
      exact mem_scanned_error.mpr ⟨_, _, hreads, hcrashed, rfl⟩
    | optimize hreads hcrashed =>
      refine ⟨.optimize, by decide, Results.mem_failures.mpr ⟨rfl, ?_⟩⟩
      exact mem_optimized_error.mpr ⟨_, _, hreads, hcrashed, rfl⟩
    | @write path change hsaves hwrites hrefused =>
      refine ⟨.write, by decide, List.mem_map.mpr ⟨(path, change), ?_, rfl⟩⟩
      refine List.mem_filter.mpr ⟨mem_worthwhile.mpr hsaves, ?_⟩
      simp [hwrites, hrefused]

/-! ## The report and the writes of a pass -/

/-- What a pass reports and writes, file by file. -/
structure Settles (tools : Toolkit) (settings : Settings) (tree : FileTree) (outcome : Outcome) :
    Prop where
  mem_savings : ∀ path saved, (path, saved) ∈ outcome.report.savings ↔
    ∃ change, Saves tools settings tree path change ∧ saved = change.saved ∧
      (settings.dryRun = false → tree.isReadOnly path = false)
  nodup_savings : (outcome.report.savings.map Prod.fst).Nodup
  bytesSaved : outcome.report.bytesSaved = (outcome.report.savings.map Prod.snd).sum
  mem_failures : ∀ failure, failure ∈ outcome.report.failures ↔ Fails tools settings tree failure
  nodup_failures : (outcome.report.failures.map fun f => (f.path, f.phase)).Nodup
  mem_writes : ∀ path after, (path, after) ∈ outcome.writes ↔
    settings.dryRun = false ∧ tree.isReadOnly path = false ∧
      ∃ before, Saves tools settings tree path ⟨before, after⟩
  nodup_writes : (outcome.writes.map Prod.fst).Nodup

theorem foldr_savings (savings : List (Path × Nat)) :
    savings.foldr (fun saving total => saving.2 + total) 0 = (savings.map Prod.snd).sum := by
  induction savings with
  | nil => rfl
  | cons saving savings ih => rw [List.foldr_cons, ih, List.map_cons, List.sum_cons]

/-- The changes that are made. -/
theorem mem_made :
    (path, change) ∈ (worthwhile (treePlan tools settings tree).optimized.done).filter
        (fun (path, _) => !(!settings.dryRun && tree.isReadOnly path)) ↔
      Saves tools settings tree path change ∧
        (settings.dryRun = false → tree.isReadOnly path = false) := by
  rw [List.mem_filter, mem_worthwhile]
  cases settings.dryRun <;> simp

theorem mem_savings_plan {saved : Nat} :
    (path, saved) ∈ ((treePlan tools settings tree).outcome settings
        tree.isReadOnly).report.savings ↔
      ∃ change, Saves tools settings tree path change ∧ saved = change.saved ∧
        (settings.dryRun = false → tree.isReadOnly path = false) := by
  unfold Work.outcome
  simp only [List.mem_map]
  constructor
  · rintro ⟨⟨key, change⟩, hmem, heq⟩
    cases heq
    obtain ⟨hsaves, hwritten⟩ := mem_made.mp hmem
    exact ⟨change, hsaves, rfl, hwritten⟩
  · rintro ⟨change, hsaves, rfl, hwritten⟩
    exact ⟨(path, change), mem_made.mpr ⟨hsaves, hwritten⟩, rfl⟩

theorem mem_writes_plan {after : Text} :
    (path, after) ∈ ((treePlan tools settings tree).outcome settings tree.isReadOnly).writes ↔
      settings.dryRun = false ∧ tree.isReadOnly path = false ∧
        ∃ before, Saves tools settings tree path ⟨before, after⟩ := by
  unfold Work.outcome
  cases hdry : settings.dryRun with
  | true => simp
  | false =>
    simp only [Bool.false_eq_true, if_false, List.mem_map, true_and]
    constructor
    · rintro ⟨⟨key, change⟩, hmem, heq⟩
      cases heq
      rw [← hdry] at hmem
      obtain ⟨hsaves, hwritten⟩ := mem_made.mp hmem
      exact ⟨hwritten hdry, change.before, hsaves⟩
    · rintro ⟨hwritten, before, hsaves⟩
      refine ⟨(path, ⟨before, after⟩), ?_, rfl⟩
      rw [← hdry]
      exact mem_made.mpr ⟨hsaves, fun _ => hwritten⟩

theorem settles_plan (tools : Toolkit) (settings : Settings) (tree : FileTree) :
    Settles tools settings tree
      ((treePlan tools settings tree).outcome settings tree.isReadOnly) := by
  have hdistinct : (treePlan tools settings tree).Distinct :=
    plan_distinct tools settings (tree.nodup_find settings.extensions)
  have hchanges : ((worthwhile (treePlan tools settings tree).optimized.done).map Prod.fst).Nodup :=
    nodup_worthwhile (hdistinct.optimized.sublist (Results.paths_done_sublist _))
  have hmade := hchanges.sublist (List.Sublist.map Prod.fst (List.filter_sublist
    (p := fun (path, _) => !(!settings.dryRun && tree.isReadOnly path))))
  have hfailures := Work.outcome_failures settings tree.isReadOnly (treePlan tools settings tree)
  refine ⟨fun _ _ => mem_savings_plan, ?_, foldr_savings _, ?_, ?_, fun _ _ => mem_writes_plan, ?_⟩
  · unfold Work.outcome
    simpa [Function.comp_def] using hmade
  · intro failure
    rw [hfailures, sortFailures, List.mem_mergeSort, mem_failures_treePlan]
  · rw [hfailures, sortFailures, ((List.mergeSort_perm _ _).map _).nodup_iff]
    exact nodup_failures hdistinct
  · unfold Work.outcome
    cases hdry : settings.dryRun with
    | true => simp
    | false =>
      rw [hdry] at hmade
      simpa [Function.comp_def] using hmade

theorem reads_of_found_nil (h : tree.find settings.extensions = []) {text : Text} :
    ¬Reads settings tree path text := by
  rintro ⟨content, hfound, _⟩
  rw [h] at hfound
  cases hfound

/-- A pass that finds nothing settles the files it does not have. -/
theorem settles_nothing (h : tree.find settings.extensions = []) {outcome : Outcome}
    (hreport : outcome.report = {}) (hwrites : outcome.writes = []) :
    Settles tools settings tree outcome := by
  refine ⟨?_, ?_, ?_, ?_, ?_, ?_, ?_⟩
  · intro path saved
    rw [hreport]
    constructor
    · intro hmem
      cases hmem
    · rintro ⟨change, hsaves, _⟩
      exact absurd hsaves.reads (reads_of_found_nil h)
  · simp [hreport]
  · simp [hreport]
  · intro failure
    rw [hreport]
    constructor
    · intro hmem
      cases hmem
    · intro hfails
      cases hfails with
      | read hfound _ => rw [h] at hfound; cases hfound
      | harvest hreads _ => exact absurd hreads (reads_of_found_nil h)
      | optimize hreads _ => exact absurd hreads (reads_of_found_nil h)
      | write hsaves _ _ => exact absurd hsaves.reads (reads_of_found_nil h)
  · simp [hreport]
  · intro path after
    rw [hwrites]
    constructor
    · intro hmem
      cases hmem
    · rintro ⟨_, _, before, hsaves⟩
      exact absurd hsaves.reads (reads_of_found_nil h)
  · simp [hwrites]

theorem Settles.congr {outcome outcome' : Outcome} (h : Settles tools settings tree outcome)
    (hreport : outcome'.report = outcome.report) (hwrites : outcome'.writes = outcome.writes) :
    Settles tools settings tree outcome' := by
  obtain ⟨hsavings, hnodup, hbytes, hfailures, hnodup', hmem, hdistinct⟩ := h
  constructor
  all_goals first | rw [hreport] | rw [hwrites]
  all_goals assumption

/-- Every pass that has an outcome settles its files, under any schedule. -/
theorem run_settles {schedule : Schedule} {outcome : Outcome}
    (h : run tools settings schedule tree = .ok outcome) : Settles tools settings tree outcome := by
  have hsettled := run_toOption tools settings schedule tree
  rw [h] at hsettled
  unfold settled at hsettled
  simp only [Except.toOption, Option.map_some] at hsettled
  split at hsettled
  · rename_i hnothing
    rw [Option.some.injEq, Prod.mk.injEq] at hsettled
    exact settles_nothing (List.isEmpty_iff.mp hnothing) hsettled.1 hsettled.2
  · split at hsettled
    · cases hsettled
    · rw [Option.some.injEq, Prod.mk.injEq] at hsettled
      exact (settles_plan tools settings tree).congr hsettled.1 hsettled.2

namespace Settles

variable {outcome : Outcome} {root : Path}

theorem nodup_written (h : Settles tools settings tree outcome) (root : Path) :
    ((outcome.writes.map fun (path, text) => (root ++ path, Content.text text)).map
      Prod.fst).Nodup := by
  have hpaths : (outcome.writes.map fun (path, text) => (root ++ path, Content.text text)).map
      Prod.fst = (outcome.writes.map Prod.fst).map (root ++ ·) := by
    simp [Function.comp_def]
  rw [hpaths]
  exact h.nodup_writes.map fun _ _ heq => List.append_cancel_left heq

theorem content?_of_write (h : Settles tools settings tree outcome) {whole : FileTree} {after : Text}
    (hwrite : (path, after) ∈ outcome.writes) :
    (outcome.tree root whole).content? (root ++ path) = some (.text after) := by
  unfold Outcome.tree
  rw [FileTree.content?_putAll _ (h.nodup_written root),
    (lookup_eq_some_iff_mem (h.nodup_written root)).mpr (List.mem_map.mpr ⟨_, hwrite, rfl⟩)]
  rfl

theorem content?_of_no_write (h : Settles tools settings tree outcome) {whole : FileTree}
    {place : Path} (hplace : ∀ path after, (path, after) ∈ outcome.writes → place ≠ root ++ path) :
    (outcome.tree root whole).content? place = whole.content? place := by
  unfold Outcome.tree
  rw [FileTree.content?_putAll _ (h.nodup_written root), lookup_eq_none_of_not_mem]
  · rfl
  · intro hmem
    rw [List.map_map] at hmem
    obtain ⟨⟨path, after⟩, hwrite, hpath⟩ := List.mem_map.mp hmem
    exact hplace path after hwrite hpath.symm

end Settles

end WebTrim.Pass
