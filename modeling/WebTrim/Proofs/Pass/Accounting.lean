import WebTrim.Proofs.Optimize
import WebTrim.Proofs.Pass.Outcome

/-!
# A pass never makes a file larger, and its report is exact

* `Settles.shrunk` — a file in the report has shrunk by exactly what the report says.
* `Settles.exists_saving` — whatever is written is in the report.
* `run_dryRun` — a dry run reports what a run would save.
* `pass_accounts_for_bytes` — **no file grows, the report is what happened to the tree, and a dry run
  gives the same report and leaves the tree**.
-/

set_option autoImplicit false

namespace WebTrim.Pass

open Text

variable {tools : Toolkit} {settings : Settings} {outcome : Outcome}

theorem eq_text_of_readContent {content : Content} {text : Text}
    (hread : readContent content = .ok text) (hwritable : ∀ t, content ≠ .readOnly t) :
    content = .text text := by
  cases content with
  | text t => cases hread; rfl
  | bytes b => cases hread
  | locked => cases hread
  | readOnly t => exact absurd rfl (hwritable t)

/-! ## Reports -/

section Report

variable {tree : FileTree} {root path : Path}

/-- A file in the report of a run has shrunk by exactly what the report says. -/
theorem Settles.shrunk {saved : Nat} (h : Settles tools settings (tree.below root) outcome)
    (hwrites : settings.dryRun = false) (hsaved : (path, saved) ∈ outcome.report.savings) :
    0 < saved ∧ ∃ before after,
      tree.content? (root ++ path) = some (.text before) ∧
      (outcome.tree root tree).content? (root ++ path) = some (.text after) ∧
      byteLength after + saved = byteLength before := by
  obtain ⟨change, hsaves, rfl, hwritten⟩ := (h.mem_savings path saved).mp hsaved
  have hwritable := hwritten hwrites
  obtain ⟨content, hfound, hread⟩ := hsaves.reads
  obtain ⟨hcontent, _⟩ := FileTree.mem_find.mp hfound
  have htext : content = .text change.before := by
    refine eq_text_of_readContent hread fun t ht => ?_
    simp [FileTree.isReadOnly, hcontent, ht] at hwritable
  have hwrite : (path, change.after) ∈ outcome.writes :=
    (h.mem_writes path change.after).mpr ⟨hwrites, hwritable, change.before, hsaves⟩
  have hsmaller := hsaves.smaller
  refine ⟨Nat.sub_pos_of_lt hsmaller, change.before, change.after, ?_, h.content?_of_write hwrite, ?_⟩
  · rw [← FileTree.content?_below, hcontent, htext]
  · unfold Change.saved
    omega

/-- Whatever is written is in the report. -/
theorem Settles.exists_saving {after : Text} (h : Settles tools settings tree outcome)
    (hwrite : (path, after) ∈ outcome.writes) : path ∈ outcome.report.savings.map Prod.fst := by
  obtain ⟨_, hwritable, before, hsaves⟩ := (h.mem_writes path after).mp hwrite
  have hsaving : (path, Change.saved ⟨before, after⟩) ∈ outcome.report.savings :=
    (h.mem_savings path _).mpr ⟨⟨before, after⟩, hsaves, rfl, fun _ => hwritable⟩
  exact List.mem_map_of_mem (f := Prod.fst) hsaving

end Report

/-! ## Dry runs -/

section DryRun

variable {refuses : Path → Bool} {done : Work}

theorem filter_made (h : done.unmade settings refuses = []) :
    (worthwhile done.optimized.done).filter
      (fun (path, _) => !(!settings.dryRun && refuses path)) = worthwhile done.optimized.done := by
  rw [List.filter_eq_self]
  intro change hchange
  rw [Work.unmade, List.filter_eq_nil_iff] at h
  rw [Bool.not_eq_true']
  exact Bool.not_eq_true _ ▸ h change hchange

/-- Where every change can be written, a dry run reports the same and writes nothing. -/
theorem Work.outcome_dryRun (h : done.unmade settings refuses = []) :
    (done.outcome { settings with dryRun := true } refuses).report =
        (done.outcome settings refuses).report ∧
      (done.outcome { settings with dryRun := true } refuses).writes = [] := by
  have hmade := filter_made h
  unfold Work.unmade at h
  unfold Work.outcome
  simp only [hmade, h]
  simp

theorem unmade_eq_nil (h : ∀ failure ∈ (done.outcome settings refuses).report.failures,
    failure.phase ≠ .write) : done.unmade settings refuses = [] := by
  rw [List.eq_nil_iff_forall_not_mem]
  rintro ⟨path, change⟩ hchange
  refine h (writeFailure path) ?_ rfl
  rw [Work.outcome_failures, sortFailures, List.mem_mergeSort, Work.failures, List.mem_flatMap]
  exact ⟨.write, by decide, List.mem_map.mpr ⟨_, hchange, rfl⟩⟩

/-- A dry run has the report of a run that can write all it wants to. -/
theorem run_dryRun {schedule : Schedule} {tree : FileTree}
    (h : run tools settings schedule tree = .ok outcome)
    (hwritten : ∀ failure ∈ outcome.report.failures, failure.phase ≠ .write) :
    ∃ dry, run tools { settings with dryRun := true } schedule tree = .ok dry ∧
      dry.report = outcome.report ∧ dry.writes = [] := by
  have hwork : work tools { settings with dryRun := true } schedule
      (tree.find settings.extensions) =
      work tools settings schedule (tree.find settings.extensions) := rfl
  unfold run at h ⊢
  simp only at h ⊢
  rw [hwork]
  split at h
  · rename_i hnothing
    cases h
    rw [if_pos hnothing]
    exact ⟨_, rfl, rfl, rfl⟩
  · rename_i hsome
    rw [if_neg hsome]
    cases hdone : work tools settings schedule (tree.find settings.extensions) with
    | error crash =>
      rw [hdone] at h
      cases h
    | ok done =>
      rw [hdone] at h
      cases h
      exact ⟨_, rfl, Work.outcome_dryRun (unmade_eq_nil hwritten)⟩

end DryRun

/-! ## The pass -/

/-- **No file grows, and the report is exact.** An optimized text is the text itself or strictly
smaller. After a pass, each file in the report has shrunk by the number of bytes that stands there,
every other file in the tree is as it was, and the total is their sum. Where every write succeeds, a
dry run gives the same report and leaves the tree as it was. -/
theorem pass_accounts_for_bytes (tools : Toolkit) :
    (∀ (renames : Renames) (settings : Settings) (path text result : Text),
      Optimize.file tools renames settings path text = .ok result →
        result = text ∨ byteLength result < byteLength text) ∧
    (∀ (settings : Settings) (schedule : Schedule) (root : Path) (tree : FileTree)
        (outcome : Outcome),
      runBelow tools settings schedule root tree = some (.ok outcome) →
        (settings.dryRun = false → ∀ path saved, (path, saved) ∈ outcome.report.savings →
          0 < saved ∧ ∃ before after,
            tree.content? (root ++ path) = some (.text before) ∧
            (outcome.tree root tree).content? (root ++ path) = some (.text after) ∧
            byteLength after + saved = byteLength before) ∧
        (∀ place, (∀ path ∈ outcome.report.savings.map Prod.fst, place ≠ root ++ path) →
          (outcome.tree root tree).content? place = tree.content? place) ∧
        (outcome.report.savings.map Prod.fst).Nodup ∧
        outcome.report.bytesSaved = (outcome.report.savings.map Prod.snd).sum ∧
        ((∀ failure ∈ outcome.report.failures, failure.phase ≠ .write) →
          ∃ dry, runBelow tools { settings with dryRun := true } schedule root tree =
              some (.ok dry) ∧
            dry.report = outcome.report ∧ dry.tree root tree = tree)) := by
  refine ⟨fun _ _ _ _ _ h => Optimize.file_shrinks h, ?_⟩
  intro settings schedule root tree outcome h
  unfold runBelow at h ⊢
  split at h
  · rename_i hroot
    rw [Option.some.injEq] at h
    have hsettles := run_settles h
    refine ⟨fun hwrites path saved hsaved => hsettles.shrunk hwrites hsaved, ?_,
      hsettles.nodup_savings, hsettles.bytesSaved, ?_⟩
    · intro place hplace
      apply hsettles.content?_of_no_write
      intro path after hwrite
      exact hplace path (hsettles.exists_saving hwrite)
    · intro hwritten
      obtain ⟨dry, hdry, hreport, hnothing⟩ := run_dryRun h hwritten
      refine ⟨dry, by rw [if_pos hroot, hdry], hreport, ?_⟩
      rw [Outcome.tree, hnothing]
      rfl
  · cases h

/-- A directory with a stylesheet that gets smaller and a note that is not looked at, and a stylesheet
beside the directory. -/
def plainSite : FileTree :=
  .ofFiles
    [(["dist".toList, "a.css".toList], .text "p { color : red }".toList),
      (["dist".toList, "b.txt".toList], .text "p { }".toList),
      (["c.css".toList], .text "p { }".toList)]

/-- Tools that minify a stylesheet by leaving out its spaces. -/
def spaceless : Toolkit :=
  { Toolkit.standard with minify := fun css => .ok (css.filter (· ≠ ' ')) }

theorem pass_accounts_for_bytes_stylesheet :
    ∃ outcome, runBelow spaceless {} .inOrder ["dist".toList] plainSite = some (.ok outcome) ∧
      outcome.report.savings = [(["a.css".toList], 5)] ∧
      (∃ before after,
        plainSite.content? ["dist".toList, "a.css".toList] = some (.text before) ∧
        (outcome.tree ["dist".toList] plainSite).content? ["dist".toList, "a.css".toList] =
          some (.text after) ∧ byteLength after + 5 = byteLength before) ∧
      (outcome.tree ["dist".toList] plainSite).content? ["c.css".toList] =
        plainSite.content? ["c.css".toList] ∧
      ∃ dry, runBelow spaceless { dryRun := true } .inOrder ["dist".toList] plainSite =
          some (.ok dry) ∧
        dry.report = outcome.report ∧ dry.tree ["dist".toList] plainSite = plainSite := by
  have hreport : ((runBelow spaceless {} .inOrder ["dist".toList] plainSite).bind
      Except.toOption).map (·.report) =
      some ⟨[(["a.css".toList], 5)], 5, [], some ⟨0, 0, 0, 0⟩⟩ := by
    decide +kernel
  obtain ⟨outcome, hrun, hreport⟩ := Option.map_eq_some_iff.mp hreport
  obtain ⟨result, hresult, hok⟩ := Option.bind_eq_some_iff.mp hrun
  rw [toOption_eq_some_iff.mp hok] at hresult
  obtain ⟨hshrunk, hother, _, _, hdry⟩ :=
    (pass_accounts_for_bytes spaceless).2 {} .inOrder ["dist".toList] plainSite outcome hresult
  have hsaved : (["a.css".toList], 5) ∈ outcome.report.savings := by
    rw [hreport]
    exact List.mem_cons_self
  refine ⟨outcome, hresult, by rw [hreport], (hshrunk rfl _ _ hsaved).2, hother _ ?_, hdry ?_⟩
  · rw [hreport]
    decide
  · rw [hreport]
    decide

end WebTrim.Pass
