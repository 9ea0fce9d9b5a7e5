import Mathlib.Data.List.Perm.Basic
import Mathlib.Data.Prod.Lex
import WebTrim.Pass.Run
import WebTrim.Proofs.Corpus.Order
import WebTrim.Proofs.FileTree

/-!
# A pass does not depend on its schedule

The tasks of a phase are done in any order, so what a phase gives is known only up to a permutation.
Each use of it sorts or counts.

* `plan` — the work of a pass, file by file in path order.
* `work_cases` — the work under any schedule is the plan up to the order of its results, or there is
  none because a name cannot be decoded.
* `sortFailures_perm` — failures of one file stay in the order of the phases, so the order of the
  files within a phase does not show.
* `run_toOption` — **what a pass reports and writes is what its plan says**.
* `pass_independent_of_order` — the harvest and the pass under every order of the files.
-/

set_option autoImplicit false

namespace WebTrim.Pass

open Text

variable {α : Type} {tools : Toolkit} {settings : Settings}

/-! ## Results of a phase -/

namespace Results

variable {results results' : Results α} {path : Path} {a : α} {phase : Phase} {failure : Failure}

theorem mem_done : (path, a) ∈ results.done ↔ (path, .ok a) ∈ results := by
  unfold done
  rw [List.mem_filterMap]
  constructor
  · rintro ⟨⟨key, result⟩, hmem, hdone⟩
    cases result with
    | error cause => cases hdone
    | ok b =>
      cases hdone
      exact hmem
  · intro hmem
    exact ⟨_, hmem, rfl⟩

theorem mem_failures :
    failure ∈ results.failures phase ↔
      failure.phase = phase ∧ (failure.path, .error failure.cause) ∈ results := by
  unfold failures
  rw [List.mem_filterMap]
  constructor
  · rintro ⟨⟨key, result⟩, hmem, hfailed⟩
    cases result with
    | ok b => cases hfailed
    | error cause =>
      cases hfailed
      exact ⟨rfl, hmem⟩
  · rintro ⟨rfl, hmem⟩
    exact ⟨_, hmem, rfl⟩

theorem done_perm (h : results.Perm results') : results.done.Perm results'.done :=
  h.filterMap _

theorem failures_perm (h : results.Perm results') :
    (results.failures phase).Perm (results'.failures phase) :=
  h.filterMap _

theorem paths_done_sublist (results : Results α) :
    (results.done.map Prod.fst).Sublist (results.map Prod.fst) := by
  unfold done
  induction results with
  | nil => exact .slnil
  | cons task results ih =>
    obtain ⟨path, result⟩ := task
    cases result with
    | error cause => exact ih.cons path
    | ok b => exact ih.cons_cons path

theorem paths_failures_sublist (phase : Phase) (results : Results α) :
    ((results.failures phase).map Failure.path).Sublist (results.map Prod.fst) := by
  unfold failures
  induction results with
  | nil => exact .slnil
  | cons task results ih =>
    obtain ⟨path, result⟩ := task
    cases result with
    | ok b => exact ih.cons path
    | error cause => exact ih.cons_cons path

end Results

/-! ## The plan of a pass -/

/-- What the first two phases make of a file: nothing if it cannot be read or cannot be scanned. -/
def scan? (tools : Toolkit) (settings : Settings) (path : Path) (content : Content) :
    Option FileScan := do
  let text ← (readContent content).toOption
  (FileScan.ofFile tools.readFacts settings.scopeLead path.text text).toOption

/-- The scans of the files that can be scanned. -/
def scans (tools : Toolkit) (settings : Settings) (found : List (Path × Content)) :
    List FileScan :=
  found.filterMap fun (path, content) => scan? tools settings path content

/-- The short names that a pass gives out. -/
def shortNames (tools : Toolkit) (settings : Settings) (found : List (Path × Content)) : Renames :=
  (Harvest.ofScans tools.decode settings.propertyMinLength (scans tools settings found)).renames
    settings

/-- The work of a pass, file by file. -/
def plan (tools : Toolkit) (settings : Settings) (found : List (Path × Content)) : Work where
  read := readAll found
  scanned := scanAll tools settings (readAll found).done
  renames := shortNames tools settings found
  optimized := optimizeAll tools settings (shortNames tools settings found) (readAll found).done

/-- The same results in another order. -/
structure Work.Alike (a b : Work) : Prop where
  read : a.read.Perm b.read
  scanned : a.scanned.Perm b.scanned
  renames : a.renames = b.renames
  optimized : a.optimized.Perm b.optimized

theorem done_scanned_eq_scans (tools : Toolkit) (settings : Settings) (found : List (Path × Content)) :
    (scanAll tools settings (readAll found).done).done.map (·.2) = scans tools settings found := by
  unfold scans
  induction found with
  | nil => rfl
  | cons file found ih =>
    obtain ⟨path, content⟩ := file
    rw [List.filterMap_cons, ← ih]
    cases hread : readContent content with
    | error cause => simp [scan?, readAll, Results.done, hread, Except.toOption]
    | ok text =>
      cases hscan : FileScan.ofFile tools.readFacts settings.scopeLead path.text text with
      | error crash =>
        simp [scan?, readAll, scanAll, Results.done, hread, hscan, Except.toOption, Except.mapError]
      | ok scan =>
        simp [scan?, readAll, scanAll, Results.done, hread, hscan, Except.toOption, Except.mapError]

theorem renamesFor_cases (tools : Toolkit) (settings : Settings) (scans : List FileScan) :
    (undecodable tools.refusal? scans = true ∧
      ∃ crash, renamesFor tools settings scans = .error crash) ∨
    (undecodable tools.refusal? scans = false ∧
      renamesFor tools settings scans =
        .ok ((Harvest.ofScans tools.decode settings.propertyMinLength scans).renames settings)) := by
  have hcombine := Harvest.combine_toOption tools.decode tools.refusal? settings.propertyMinLength scans
  unfold renamesFor
  cases hresult : Harvest.combine tools.decode tools.refusal? settings.propertyMinLength scans with
  | error crash =>
    rw [hresult] at hcombine
    cases hundecodable : undecodable tools.refusal? scans with
    | true => exact .inl ⟨rfl, crash, rfl⟩
    | false => simp [hundecodable, Except.toOption] at hcombine
  | ok harvest =>
    rw [hresult] at hcombine
    cases hundecodable : undecodable tools.refusal? scans with
    | true => simp [hundecodable, Except.toOption] at hcombine
    | false =>
      simp only [hundecodable, Except.toOption, Bool.false_eq_true, if_false,
        Option.some.injEq] at hcombine
      exact .inr ⟨rfl, by rw [hcombine]; rfl⟩

/-- The work under any schedule is the plan up to the order of its results; there is none exactly if
some name cannot be decoded. -/
theorem work_cases (tools : Toolkit) (settings : Settings) (schedule : Schedule)
    (found : List (Path × Content)) :
    (undecodable tools.refusal? (scans tools settings found) = true ∧
      ∃ crash, work tools settings schedule found = .error crash) ∨
    (undecodable tools.refusal? (scans tools settings found) = false ∧
      ∃ done, work tools settings schedule found = .ok done ∧
        done.Alike (plan tools settings found)) := by
  have hread : (readAll (schedule.reads found)).Perm (readAll found) :=
    (schedule.reads_perm found).map _
  have htasks : (schedule.scans (readAll (schedule.reads found)).done).Perm (readAll found).done :=
    (schedule.scans_perm _).trans (Results.done_perm hread)
  have hscanned : (scanAll tools settings
      (schedule.scans (readAll (schedule.reads found)).done)).Perm
      (scanAll tools settings (readAll found).done) :=
    htasks.map _
  have hscans := ((Results.done_perm hscanned).map (·.2)).map (·.findings)
  rw [done_scanned_eq_scans] at hscans
  have hnames := Harvest.ofScans_congr tools.decode settings.propertyMinLength hscans
  have hrefused := undecodable_congr tools.refusal? hscans
  unfold work
  rcases renamesFor_cases tools settings ((scanAll tools settings
      (schedule.scans (readAll (schedule.reads found)).done)).done.map (·.2)) with
    ⟨hbad, crash, hcrash⟩ | ⟨hgood, hrenames⟩
  · refine .inl ⟨hrefused ▸ hbad, crash, ?_⟩
    simp only [hcrash]
    rfl
  · refine .inr ⟨hrefused ▸ hgood, _, by simp only [hrenames]; rfl, ?_⟩
    rw [hnames]
    exact ⟨hread, hscanned, rfl,
      ((schedule.optimizations_perm _).trans (Results.done_perm hread)).map _⟩

/-! ## Order of failures -/

/-- The place of a phase in a pass. -/
def Phase.rank : Phase → Nat
  | read => 0
  | harvest => 1
  | optimize => 2
  | write => 3

theorem Phase.rank_inj {a b : Phase} (h : a.rank = b.rank) : a = b := by
  cases a <;> cases b <;> first | rfl | cases h

/-- Paths are reported by their texts, and by their names where the texts agree. -/
def reportKey (path : Path) : Lex (Text × Path) :=
  toLex (path.text, path)

theorem reportKey_inj {a b : Path} (h : reportKey a = reportKey b) : a = b :=
  congrArg (fun key => (ofLex key).2) h

theorem reportsBefore_iff (a b : Path) : reportsBefore a b = true ↔ reportKey a ≤ reportKey b := by
  unfold reportsBefore reportKey
  rw [Prod.Lex.toLex_le_toLex]
  by_cases htext : a.text = b.text
  · simp [htext, Path.le_iff]
  · simp only [htext, if_false, false_and, or_false, Text.le_iff]
    exact ⟨fun h => lt_of_le_of_ne h htext, le_of_lt⟩

variable {failed failed' : List Failure}

/-- In sorted failures, those of one file stand in the order of their phases. -/
theorem pairwise_sortFailures (h : failed.Pairwise fun a b => a.phase.rank ≤ b.phase.rank) :
    (sortFailures failed).Pairwise fun a b =>
      reportKey a.path ≤ reportKey b.path ∧ (a.path = b.path → a.phase.rank ≤ b.phase.rank) := by
  have hle : ∀ a b : Failure,
      reportsBefore a.path b.path = true ↔ reportKey a.path ≤ reportKey b.path :=
    fun a b => reportsBefore_iff a.path b.path
  rw [List.pairwise_iff_forall_sublist]
  intro a b hpair
  refine ⟨List.pairwise_iff_forall_sublist.mp (Sorting.pairwise_mergeSort hle failed) hpair, ?_⟩
  intro hpath
  have hbefore := Sorting.pair_sublist_of_mergeSort hle (congrArg reportKey hpath) hpair
  exact List.pairwise_iff_forall_sublist.mp h hbefore

/-- Failures listed phase by phase are sorted into one order, whatever the order of the files within
a phase was. -/
theorem sortFailures_perm (h : failed.Perm failed')
    (hphases : failed.Pairwise fun a b => a.phase.rank ≤ b.phase.rank)
    (hphases' : failed'.Pairwise fun a b => a.phase.rank ≤ b.phase.rank)
    (hnodup : (failed.map fun f => (f.path, f.phase)).Nodup) :
    sortFailures failed = sortFailures failed' := by
  refine List.Perm.eq_of_pairwise ?_ (pairwise_sortFailures hphases)
    (pairwise_sortFailures hphases') ?_
  · intro a b ha hb hab hba
    have hpath : a.path = b.path := reportKey_inj (le_antisymm hab.1 hba.1)
    have hphase : a.phase = b.phase :=
      Phase.rank_inj (Nat.le_antisymm (hab.2 hpath) (hba.2 hpath.symm))
    apply List.inj_on_of_nodup_map hnodup (List.mem_mergeSort.mp ha)
      (h.mem_iff.mpr (List.mem_mergeSort.mp hb))
    rw [hpath, hphase]
  · exact (List.mergeSort_perm _ _).trans (h.trans (List.mergeSort_perm _ _).symm)

/-! ## What a pass leaves behind -/

/-- The changes that cannot be written. -/
def Work.unmade (settings : Settings) (refuses : Path → Bool) (done : Work) : List (Path × Change) :=
  (worthwhile done.optimized.done).filter fun (path, _) => !settings.dryRun && refuses path

/-- The failures of a phase. -/
def Work.failuresIn (settings : Settings) (refuses : Path → Bool) (done : Work) :
    Phase → List Failure
  | .read => done.read.failures .read
  | .harvest => done.scanned.failures .harvest
  | .optimize => done.optimized.failures .optimize
  | .write => (done.unmade settings refuses).map fun (path, _) => writeFailure path

/-- The failures of all phases. -/
def Work.failures (settings : Settings) (refuses : Path → Bool) (done : Work) : List Failure :=
  [.read, .harvest, .optimize, .write].flatMap (done.failuresIn settings refuses)

theorem Work.outcome_failures (settings : Settings) (refuses : Path → Bool) (done : Work) :
    (done.outcome settings refuses).report.failures =
      sortFailures (done.failures settings refuses) := by
  have hfailures : done.failures settings refuses =
      done.read.failures .read ++ done.scanned.failures .harvest ++
        done.optimized.failures .optimize ++
        (done.unmade settings refuses).map fun (path, _) => writeFailure path := by
    simp [Work.failures, Work.failuresIn]
  rw [hfailures]
  rfl

/-- No file is worked on twice in a phase. -/
structure Work.Distinct (done : Work) : Prop where
  read : (done.read.map Prod.fst).Nodup
  scanned : (done.scanned.map Prod.fst).Nodup
  optimized : (done.optimized.map Prod.fst).Nodup

theorem plan_distinct (tools : Toolkit) (settings : Settings) {found : List (Path × Content)}
    (h : (found.map Prod.fst).Nodup) :
    (plan tools settings found).Distinct := by
  have hread : ((readAll found).map Prod.fst).Nodup := by
    simpa [readAll, Function.comp_def] using h
  have hdone : ((readAll found).done.map Prod.fst).Nodup :=
    hread.sublist (Results.paths_done_sublist _)
  refine ⟨hread, ?_, ?_⟩
  · simpa [plan, scanAll, Function.comp_def] using hdone
  · simpa [plan, optimizeAll, Function.comp_def] using hdone

theorem worthwhile_perm {changes changes' : List (Path × Change)} (h : changes.Perm changes')
    (hnodup : (changes.map Prod.fst).Nodup) : worthwhile changes = worthwhile changes' := by
  apply Sorting.mergeSort_eq_of_perm (fun a b => Path.le_iff a.1 b.1) (h.filter _)
  intro a ha b hb hab
  exact List.inj_on_of_nodup_map hnodup (List.mem_of_mem_filter ha) (List.mem_of_mem_filter hb) hab

theorem nodup_worthwhile {changes : List (Path × Change)} (h : (changes.map Prod.fst).Nodup) :
    ((worthwhile changes).map Prod.fst).Nodup := by
  unfold worthwhile
  rw [((List.mergeSort_perm _ _).map Prod.fst).nodup_iff]
  exact h.sublist (List.filter_sublist.map Prod.fst)

section Failures

variable {done done' : Work} {refuses : Path → Bool} {phase : Phase} {failure : Failure}

theorem phase_of_mem_failuresIn (h : failure ∈ done.failuresIn settings refuses phase) :
    failure.phase = phase := by
  cases phase with
  | read => exact (Results.mem_failures.mp h).1
  | harvest => exact (Results.mem_failures.mp h).1
  | optimize => exact (Results.mem_failures.mp h).1
  | write =>
    obtain ⟨_, _, rfl⟩ := List.mem_map.mp h
    rfl

theorem nodup_failuresIn (h : done.Distinct) :
    ((done.failuresIn settings refuses phase).map Failure.path).Nodup := by
  cases phase with
  | read => exact h.read.sublist (Results.paths_failures_sublist _ _)
  | harvest => exact h.scanned.sublist (Results.paths_failures_sublist _ _)
  | optimize => exact h.optimized.sublist (Results.paths_failures_sublist _ _)
  | write =>
    have hchanges := nodup_worthwhile (h.optimized.sublist (Results.paths_done_sublist _))
    have hpaths : (done.failuresIn settings refuses .write).map Failure.path =
        (done.unmade settings refuses).map Prod.fst := by
      simp [Work.failuresIn, writeFailure, Function.comp_def]
    rw [hpaths]
    exact hchanges.sublist (List.filter_sublist.map Prod.fst)

theorem pairwise_failures (done : Work) :
    (done.failures settings refuses).Pairwise fun a b => a.phase.rank ≤ b.phase.rank := by
  unfold Work.failures
  rw [List.pairwise_flatMap]
  constructor
  · intro phase _
    refine List.pairwise_of_forall_mem_list fun a ha b hb => ?_
    rw [phase_of_mem_failuresIn ha, phase_of_mem_failuresIn hb]
  · have hphases : [Phase.read, .harvest, .optimize, .write].Pairwise
        fun p q => p.rank ≤ q.rank := by decide
    refine hphases.imp fun {p q} hpq a ha b hb => ?_
    rwa [phase_of_mem_failuresIn ha, phase_of_mem_failuresIn hb]

/-- A file fails at most once in a phase. -/
theorem nodup_failures (h : done.Distinct) :
    ((done.failures settings refuses).map fun f => (f.path, f.phase)).Nodup := by
  unfold Work.failures
  rw [List.map_flatMap, List.nodup_flatMap]
  constructor
  · intro phase _
    refine List.Nodup.of_map Prod.fst ?_
    simpa [Function.comp_def] using nodup_failuresIn h
  · have hphases : [Phase.read, .harvest, .optimize, .write].Pairwise fun p q => p ≠ q := by decide
    refine hphases.imp fun {p q} hpq => ?_
    intro pair hp hq
    obtain ⟨a, ha, rfl⟩ := List.mem_map.mp hp
    obtain ⟨b, hb, hab⟩ := List.mem_map.mp hq
    apply hpq
    rw [← phase_of_mem_failuresIn ha, ← phase_of_mem_failuresIn hb]
    exact (congrArg Prod.snd hab).symm

namespace Work.Alike

theorem worthwhile_eq (h : done.Alike done') (hdistinct : done'.Distinct) :
    worthwhile done.optimized.done = worthwhile done'.optimized.done :=
  (worthwhile_perm (Results.done_perm h.optimized.symm)
    (hdistinct.optimized.sublist (Results.paths_done_sublist _))).symm

theorem failuresIn_perm (h : done.Alike done') (hdistinct : done'.Distinct) :
    (done.failuresIn settings refuses phase).Perm (done'.failuresIn settings refuses phase) := by
  cases phase with
  | read => exact Results.failures_perm h.read
  | harvest => exact Results.failures_perm h.scanned
  | optimize => exact Results.failures_perm h.optimized
  | write =>
    unfold Work.failuresIn Work.unmade
    rw [h.worthwhile_eq hdistinct]

theorem sortFailures_eq (settings : Settings) (refuses : Path → Bool) (h : done.Alike done')
    (hdistinct : done'.Distinct) :
    sortFailures (done.failures settings refuses) =
      sortFailures (done'.failures settings refuses) := by
  have hperm : (done'.failures settings refuses).Perm (done.failures settings refuses) :=
    List.Perm.flatMap_left _ fun phase _ => (h.failuresIn_perm hdistinct).symm
  exact (sortFailures_perm hperm (pairwise_failures done') (pairwise_failures done)
    (nodup_failures hdistinct)).symm

/-- Work with the same results has one report and one list of writes. -/
theorem outcome_eq (settings : Settings) (refuses : Path → Bool) (h : done.Alike done')
    (hdistinct : done'.Distinct) :
    (done.outcome settings refuses).report = (done'.outcome settings refuses).report ∧
      (done.outcome settings refuses).writes = (done'.outcome settings refuses).writes := by
  have hfailures := h.sortFailures_eq settings refuses hdistinct
  rw [← Work.outcome_failures, ← Work.outcome_failures] at hfailures
  have hchanges := h.worthwhile_eq hdistinct
  constructor
  · simp only [Work.outcome, Report.mk.injEq] at hfailures ⊢
    rw [hchanges] at hfailures ⊢
    exact ⟨rfl, rfl, hfailures, by rw [h.renames]⟩
  · simp only [Work.outcome]
    rw [hchanges]

end Work.Alike

end Failures

/-! ## The pass -/

/-- What a pass over a tree reports and writes: nothing if no file is found, and there is no outcome
if some name cannot be decoded. -/
def settled (tools : Toolkit) (settings : Settings) (tree : FileTree) :
    Option (Report × List (Path × Text)) :=
  let found := tree.find settings.extensions
  let outcome := (plan tools settings found).outcome settings tree.isReadOnly
  if found.isEmpty then some ({}, [])
  else if undecodable tools.refusal? (scans tools settings found) then none
  else some (outcome.report, outcome.writes)

theorem run_toOption (tools : Toolkit) (settings : Settings) (schedule : Schedule)
    (tree : FileTree) :
    (run tools settings schedule tree).toOption.map (fun outcome => (outcome.report, outcome.writes)) =
      settled tools settings tree := by
  unfold run settled
  simp only
  split
  · rfl
  · rcases work_cases tools settings schedule (tree.find settings.extensions) with
      ⟨hbad, crash, hcrash⟩ | ⟨hgood, done, hdone, halike⟩
    · rw [hcrash, if_pos hbad]
      rfl
    · have hdistinct := plan_distinct tools settings (tree.nodup_find settings.extensions)
      obtain ⟨hreport, hwrites⟩ := halike.outcome_eq settings tree.isReadOnly hdistinct
      rw [hdone, hgood, ← hreport, ← hwrites]
      rfl

/-- **The order of the files does not show.** The harvest of scans, and the short names it gives, are
those of the same findings in another order and under other paths. A pass under any two schedules
leaves the same tree and the same report, or has no outcome under either. -/
theorem pass_independent_of_order :
    (∀ (tools : Toolkit) (settings : Settings) (scans scans' : List FileScan),
      (scans.map (·.findings)).Perm (scans'.map (·.findings)) →
        (Harvest.combine tools.decode tools.refusal? settings.propertyMinLength scans).toOption =
          (Harvest.combine tools.decode tools.refusal? settings.propertyMinLength scans').toOption ∧
        (renamesFor tools settings scans).toOption = (renamesFor tools settings scans').toOption) ∧
    (∀ (tools : Toolkit) (settings : Settings) (schedule schedule' : Schedule) (root : Path)
        (tree : FileTree),
      (runBelow tools settings schedule root tree).map
          (fun result => result.toOption.map fun o => (o.report, o.tree root tree)) =
        (runBelow tools settings schedule' root tree).map
          (fun result => result.toOption.map fun o => (o.report, o.tree root tree))) := by
  constructor
  · intro tools settings scans scans' h
    have hcombine : (Harvest.combine tools.decode tools.refusal? settings.propertyMinLength
        scans).toOption = (Harvest.combine tools.decode tools.refusal? settings.propertyMinLength
        scans').toOption := by
      rw [Harvest.combine_toOption, Harvest.combine_toOption, undecodable_congr tools.refusal? h,
        Harvest.ofScans_congr tools.decode settings.propertyMinLength h]
    have hrenames : ∀ scans : List FileScan, (renamesFor tools settings scans).toOption =
        (Harvest.combine tools.decode tools.refusal? settings.propertyMinLength scans).toOption.map
          (·.renames settings) := by
      intro scans
      unfold renamesFor
      cases Harvest.combine tools.decode tools.refusal? settings.propertyMinLength scans <;> rfl
    exact ⟨hcombine, by rw [hrenames, hrenames, hcombine]⟩
  · intro tools settings schedule schedule' root tree
    -- the tree after a pass is made of its writes
    have hsettled : ∀ schedule, (run tools settings schedule (tree.below root)).toOption.map
        (fun o => (o.report, o.tree root tree)) =
        (settled tools settings (tree.below root)).map fun pass =>
          (pass.1, tree.putAll (pass.2.map fun write => (root ++ write.1, .text write.2))) := by
      intro schedule
      rw [← run_toOption tools settings schedule, Option.map_map]
      rfl
    unfold runBelow
    split
    · rw [Option.map_some, Option.map_some, hsettled, hsettled]
    · rfl

/-- The tasks of every phase are done from the last to the first. -/
def Schedule.backward : Schedule where
  reads := List.reverse
  scans := List.reverse
  optimizations := List.reverse
  reads_perm := List.reverse_perm
  scans_perm := List.reverse_perm
  optimizations_perm := List.reverse_perm

/-- A stylesheet, a page that uses its class, and a script that cannot be opened. -/
def smallSite : FileTree :=
  .ofFiles
    [(["a.css".toList], .text ".long-name{color:red}".toList),
      (["b.html".toList], .text "<p class=\"long-name\">x</p>".toList),
      (["c.js".toList], .locked)]

theorem pass_independent_of_order_backward :
    let declared : Findings := { classes := { declared := ["long-name".toList] } }
    let used : Findings := { classes := { uses := ["long-name".toList] } }
    (Harvest.combine id (fun _ => none) 6
        [⟨"a.css".toList, declared⟩, ⟨"b.html".toList, used⟩]).toOption =
      (Harvest.combine id (fun _ => none) 6
        [⟨"a.html".toList, used⟩, ⟨"z.css".toList, declared⟩]).toOption ∧
    (runBelow .standard {} .inOrder [] smallSite).map
        (fun result => result.toOption.map fun o => (o.report, o.tree [] smallSite)) =
      (runBelow .standard {} .backward [] smallSite).map
        (fun result => result.toOption.map fun o => (o.report, o.tree [] smallSite)) := by
  intro declared used
  constructor
  · refine (pass_independent_of_order.1
      { Toolkit.standard with decode := id, refusal? := fun _ => none } {} _ _ ?_).1
    exact List.Perm.swap used declared []
  · exact pass_independent_of_order.2 .standard {} .inOrder .backward [] smallSite

end WebTrim.Pass
