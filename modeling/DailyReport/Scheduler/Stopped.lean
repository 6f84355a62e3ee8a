import DailyReport.Scheduler.Projections

/-!
# Files that the deadline stops

The deadline may stop the classification or the parse of a file in any pass.

* `stopped_files_iff` : **exactly when a stopped file ends as not parsed**: a file whose
  classification was stopped in a refill round is decided without its result and ends as a failure
  of the classifier; a file whose source changed says so instead.
-/

namespace DailyReport

open Lib

variable {σ : Type}

/-! ### The end of a stopped file -/

def runtimeDeadlineExhausted : Text := lit "runtime_deadline_exhausted"

/-- The evidence says that its file was not parsed because of the deadline, without an error. -/
def ContextFileEvidence.SaysStopped (e : ContextFileEvidence) : Prop :=
  e.parseStatus = .notParsed ∧ e.reason = some runtimeDeadlineExhausted ∧ e.error = none

/-- The row says that its file was not parsed, without an error. -/
def FileResultRecord.SaysStopped (row : FileResultRecord) : Prop :=
  row.parseStatus = .notParsed ∧ row.error = none

/-- Both projections have the file, and say that it was stopped. -/
structure EndsStopped (evidence : List ContextFileEvidence) (rows : List FileResultRecord)
    (identity : Text) : Prop where
  evidence : ∃ e ∈ evidence, e.fileIdentity = identity ∧ e.SaysStopped
  row : ∃ row ∈ rows, row.fileIdentity = identity ∧ row.SaysStopped

/-- The files that the guard calls changed, asked about each of them. -/
def changedFiles (run : RunContext σ) :
    List DiscoveredFileOut → Scheduled σ (List DiscoveredFileOut)
  | [] => pure []
  | file :: rest => do
    let tainted ← Exec.ask (run.ports.isTainted file.path)
    let changed ← changedFiles run rest
    pure (if tainted then file :: changed else changed)

section

variable [UnicodeCase]

/-- What the guard says about the files of a run after its last round. -/
def changedAtEnd (run : RunContext σ) : Scheduled σ (List DiscoveredFileOut) := do
  let first ← firstPass run
  let _ ← refillPass run first.state
  changedFiles run run.input.discovery

/-- The files whose classification the deadline stops in the first pass of a run. -/
def stoppedFirst (run : RunContext σ) (s : σ) : Finset Text :=
  ((firstPass run s).toOption.map fun result => result.1.state.runtime).getD ∅

/-- The files that the guard calls changed at the end of a run. -/
def calledChanged (run : RunContext σ) (s : σ) : List DiscoveredFileOut :=
  ((changedAtEnd run s).toOption.map Prod.fst).getD []

end

/-! ### The guard's answers -/

variable {run : RunContext σ}

/-- The taint pass marks the files that the guard calls changed. -/
theorem foldlM_taintFile (files : List DiscoveredFileOut) (outputs : ParseOutputs) :
    files.foldlM (taintFile run) outputs = (do
      let changed ← changedFiles run files
      pure (changed.foldl (markTainted run.digests) outputs)) := by
  induction files generalizing outputs with
  | nil => simp [changedFiles]
  | cons file rest ih =>
    rw [List.foldlM_cons, changedFiles]
    simp only [taintFile, bind_assoc, pure_bind]
    refine bind_congr fun tainted => ?_
    rw [ih]
    refine bind_congr fun changed => ?_
    cases tainted <;> rfl

theorem changedFiles_subset (files : List DiscoveredFileOut) :
    Ensures (changedFiles run files) fun changed => changed ⊆ files := by
  induction files with
  | nil => exact Ensures.pure (List.Subset.refl _)
  | cons file rest ih =>
    unfold changedFiles
    refine Ensures.bind_trivial fun tainted => ih.bind fun changed h => Ensures.pure ?_
    split_ifs
    · exact List.cons_subset_cons _ h
    · exact List.subset_cons_of_subset _ h

/-- The view of a file after some files were marked. -/
theorem view_foldl_markTainted {digests : Digests} {files : List DiscoveredFileOut}
    {file : DiscoveredFileOut}
    (h : ∀ other ∈ files, other.fileIdentity = file.fileIdentity → other = file)
    (outputs : ParseOutputs) :
    (files.foldl (markTainted digests) outputs).view file.fileIdentity =
      if file ∈ files then (outputs.view file.fileIdentity).marked digests file
      else outputs.view file.fileIdentity := by
  induction files generalizing outputs with
  | nil => rfl
  | cons other rest ih =>
    rw [List.foldl_cons, ih fun f hf => h f (List.mem_cons_of_mem _ hf)]
    by_cases hother : other = file
    · subst hother
      rw [view_markTainted, ParseView.marked_marked]
      simp
    · have hne : file.fileIdentity ≠ other.fileIdentity := fun heq =>
        hother (h other (by simp) heq.symm)
      rw [view_markTainted_ne _ _ _ hne]
      simp [List.mem_cons, Ne.symm hother]

/-! ### Stops of the refill -/

section Stops

variable [UnicodeCase] {state final : RefillState} {first : Finset Text}

/-- A plan whose classification was stopped is still admitted exactly when the first pass stopped
it. -/
structure StopsTold (first : Finset Text) (state : RefillState) : Prop where
  subset : first ⊆ state.runtime
  admitted : ∀ plan ∈ state.classified, plan.fileIdentity ∈ state.runtime →
    ((effectiveAction state.admission plan).isAdmit = true ↔ plan.fileIdentity ∈ first)

omit [UnicodeCase] in
theorem StopsTold.reprice (h : StopsTold first state) (price : AdmissionDecision → ℕ) :
    StopsTold first { state with admission := state.admission.map (reprice price) } where
  subset := h.subset
  admitted plan hplan hruntime := by
    have haction : effectiveAction (state.admission.map (DailyReport.reprice price)) plan =
        effectiveAction state.admission plan := by
      rw [effectiveAction, effectiveAction, List.find?_map, Option.map_map]
      rfl
    change (effectiveAction (state.admission.map (DailyReport.reprice price)) plan).isAdmit = true ↔ _
    rw [haction]
    exact h.admitted plan hplan hruntime

/-- Stage B of the first pass does not decide a stopped plan. -/
theorem FirstSteps.stopsTold (hinput : run.input.Distinct) {out : ClassificationOutputs}
    {model : ContextBudgetModel} {parses : ParsePhase} (h : FirstSteps run out model parses) :
    StopsTold out.runtimeNotParsed
      (firstState run.input out model (firstDecisions run.input out model) parses) where
  subset := Finset.Subset.refl _
  admitted plan hplan hruntime := by
    refine iff_of_true ?_ hruntime
    have hundecided : plan.fileIdentity ∉ (firstDecisions run.input out model).map
        AdmissionDecision.fileIdentity := by
      rw [firstDecisions, ContentAdmissionPlan.build, map_fileIdentity_buildWithRemaining]
      intro hmem
      obtain ⟨other, hother, heq⟩ := List.mem_map.1 hmem
      have hkept := (List.mem_filter.1 hother).2
      simp only [Bool.and_eq_true, decide_eq_true_iff] at hkept
      exact hkept.1 (heq ▸ hruntime)
    have hrecorded := (h.coherent hinput).recorded plan hplan
    obtain ⟨file, -, hfrom⟩ := stageA_plannedFrom hinput hplan
    change (effectiveAction (firstDecisions run.input out model) plan).isAdmit = true
    rw [effectiveAction_of_notMem hundecided,
      hfrom.classify (hrecorded.isClassify_of_stopped (decide_eq_true hruntime))]
    rfl

variable {plan : RefillPlan} {used : Consumed} {out : ClassificationOutputs}
  {model : ContextBudgetModel} {parses : ParsePhase}

/-- A wave decides the plans that it stops, and fails them. -/
theorem WaveSteps.stopsTold (hinput : run.input.Distinct) (hplanned : Planned run state plan)
    (hsteps : WaveSteps run plan used state out model parses) (h : Coherent run state)
    (htold : StopsTold first state) :
    StopsTold first (afterWave run.input plan used state out model parses) where
  subset := htold.subset.trans Finset.subset_union_left
  admitted p hp hruntime := by
    have hstopped : ((afterWave run.input plan used state out model parses).classificationView
        p.fileIdentity).stopped = true := decide_eq_true hruntime
    rcases (mem_classified_afterWave hplanned (nodup_of_perm hinput h.perm)).1 hp with
      hplan | ⟨hold, hnot⟩
    · refine iff_of_false ?_ fun hfirst =>
        (hplanned.unstarted h hplan).2 (htold.subset hfirst)
      obtain ⟨decision, hdecision, hidentity, hverdict⟩ :
          ∃ decision ∈ waveDecisions run.input plan used (waveState state out model),
            decision.fileIdentity = p.fileIdentity ∧
              Verdict p ((afterWave run.input plan used state out model parses).classificationView
                p.fileIdentity).status decision.action :=
        exists_verdict_afterWave hplanned h hplan
      have hrecorded := recorded_afterWave hinput hplanned hsteps h hp
      have hclassify := hrecorded.isClassify_of_stopped hstopped
      obtain ⟨file, -, hfrom⟩ := hplanned.plannedFrom h hplan
      have hadmitted : p.action.isAdmit = true := by rw [hfrom.classify hclassify]; rfl
      have hfailed := hverdict.not_admit hadmitted hclassify (hrecorded.status_of_stopped hstopped)
      rw [effectiveAction_of_mem (nodup_admission_afterWave h.decisions_nodup)
        ((mem_admission_afterWave hplanned h.decisions_nodup).2 (.inl hdecision)) hidentity, hfailed]
      exact Bool.false_ne_true
    · rw [hsteps.classificationView_other hnot] at hstopped
      rw [effectiveAction_afterWave_other hplanned h hnot]
      exact htold.admitted p hold (of_decide_eq_true hstopped)

/-- **The refill fails the plans that it stops**, and no others. -/
theorem refillPass_stopsTold (hinput : run.input.Distinct) (hconcurrency : 0 < run.concurrency)
    (h : Coherent run state) (htold : StopsTold first state) :
    Ensures (refillPass run state) fun result => StopsTold first result.1 := by
  unfold refillPass
  refine Ensures.ite (fun _ => ?_) fun _ => Ensures.pure htold
  have hrefills : Ensures (runRefills run state) fun result =>
      Coherent run result.1 ∧ StopsTold first result.1 := runRefills_invariant
    (I := fun state => Coherent run state ∧ StopsTold first state)
    (fun price h _ => ⟨h.1.reprice price, h.2.reprice price⟩) (fun used h _ => ?_) ⟨h, htold⟩
  · exact hrefills.bind fun result h => Ensures.pure h.2
  · rename_i state
    have hplanned := planRefill_planned hinput h.1 used
    refine (refillWave_spec hconcurrency hplanned.nodup).mono ?_
    rintro after ⟨out, model, parses, hsteps, rfl⟩
    exact ⟨hsteps.coherent hinput hplanned h.1, hsteps.stopsTold hinput hplanned h.1 h.2⟩

/-! ### The end of a run -/

/-- A state with some of its files marked. -/
def RefillState.mark (state : RefillState) (digests : Digests) (changed : List DiscoveredFileOut) :
    RefillState :=
  { state with outputs := changed.foldl (markTainted digests) state.outputs }

/-- **A finished run is a coherent run whose changed files are marked.** -/
theorem runPasses_marks (hinput : run.input.Distinct) (hconcurrency : 0 < run.concurrency) {s s' : σ}
    {outcome : PassesOutcome} (h : runPasses run s = .ok (outcome, s')) :
    ∃ state, Coherent run state ∧ StopsTold (stoppedFirst run s) state ∧
      calledChanged run s ⊆ run.input.discovery ∧
      SameFiles (state.mark run.digests (calledChanged run s)) outcome.state := by
  unfold runPasses at h
  obtain ⟨first, s₁, hfirst, h⟩ := Exec.bind_eq_ok.1 h
  obtain ⟨refilled, s₂, hrefill, h⟩ := Exec.bind_eq_ok.1 h
  obtain ⟨tainted, s₃, htaint, h⟩ := Exec.bind_eq_ok.1 h
  obtain ⟨final, s₄, htouch, h⟩ := Exec.bind_eq_ok.1 h
  obtain ⟨rfl, -⟩ := Exec.pure_eq_ok.1 h
  have hcoherent := firstPass_coherent hinput hconcurrency hfirst
  have htold : StopsTold first.state.runtime first.state := by
    obtain ⟨out, model, parses, hsteps, rfl⟩ := firstPass_spec hinput hconcurrency hfirst
    exact hsteps.stopsTold hinput
  unfold taintPass at htaint
  rw [foldlM_taintFile] at htaint
  obtain ⟨outputs, s₅, hmarked, htaint⟩ := Exec.bind_eq_ok.1 htaint
  obtain ⟨changed, s₆, hchanged, hmarked⟩ := Exec.bind_eq_ok.1 hmarked
  obtain ⟨rfl, rfl⟩ := Exec.pure_eq_ok.1 hmarked
  obtain ⟨rfl, rfl⟩ := Exec.pure_eq_ok.1 htaint
  have hstopped : stoppedFirst run s = first.state.runtime := by
    rw [stoppedFirst, toOption_eq_some.2 hfirst]
    rfl
  have hcalled : calledChanged run s = changed := by
    have hrun : changedAtEnd run s = .ok (changed, s₆) := by
      unfold changedAtEnd
      exact Exec.bind_eq_ok.2 ⟨first, s₁, hfirst,
        Exec.bind_eq_ok.2 ⟨refilled, s₂, hrefill, hchanged⟩⟩
    rw [calledChanged, toOption_eq_some.2 hrun]
    rfl
  rw [hstopped, hcalled]
  exact ⟨refilled.1, refillPass_coherent hinput hconcurrency hcoherent hrefill,
    refillPass_stopsTold hinput hconcurrency hcoherent htold hrefill,
    changedFiles_subset _ hchanged, touchPass_sameFiles htouch⟩

/-- A stopped file has no result before the marks. -/
theorem Coherent.unresulted_of_stopped (h : Coherent run state) {plan : ClassifiedPlan}
    (hplan : plan ∈ state.classified)
    (hstopped : stoppedAtRuntime state.runtime state.outputs plan.fileIdentity = true) :
    (state.outputs.view plan.fileIdentity).result = none := by
  have hor : plan.fileIdentity ∈ state.runtime ∨
      (state.outputs.view plan.fileIdentity).stopped = true := by
    simpa [stoppedAtRuntime, ParseOutputs.view] using hstopped
  cases h.standing plan hplan with
  | waiting reason _ _ hview => rw [hview]; rfl
  | rejected reason _ _ hview => rw [hview]; rfl
  | failed status _ hview => rw [hview]; rfl
  | stopped _ _ hview => rw [hview]; rfl
  | admitted decision route _ _ _ _ hruntime _ _ hfate =>
    have hview := hor.resolve_left hruntime
    generalize state.outputs.view plan.fileIdentity = view at hfate hview ⊢
    cases hfate <;> first | rfl | cases hview

/-! ### The projections of a stopped file -/

omit [UnicodeCase]

section OneFile

variable {digests : Digests} {input : ScheduledRunInput} {file : DiscoveredFileOut}
  {relativePath : Text} {action : PlanAction} {classifications : Classifications}
  {audits : ClassificationAudits} {runtime : Finset Text} {outputs : ParseOutputs}

@[simp] theorem fileEvidence_fileIdentity :
    (fileEvidence file relativePath action classifications runtime outputs).fileIdentity =
      file.fileIdentity := by
  unfold fileEvidence
  cases changedResult outputs file.fileIdentity with
  | some result => rfl
  | none =>
    cases action with
    | notParsed | reject | classifierFailed => rfl
    | admitRoute route =>
      simp only
      unfold admittedEvidence
      cases outputs.results.lookup file.fileIdentity <;> split_ifs <;> rfl

/-- The evidence of a stopped file says so if its plan is still admitted and its source is not
known to have changed. -/
theorem fileEvidence_stopped_iff
    (hstopped : stoppedAtRuntime runtime outputs file.fileIdentity = true)
    (haction : action.isAdmit = true ∨ ∃ status, action = .classifierFailed status) :
    (fileEvidence file relativePath action classifications runtime outputs).SaysStopped ↔
      action.isAdmit = true ∧ changedResult outputs file.fileIdentity = none := by
  unfold ContextFileEvidence.SaysStopped fileEvidence
  cases hchanged : changedResult outputs file.fileIdentity with
  | some result => simp [emptyEvidence]
  | none =>
    rcases haction with hadmitted | ⟨status, rfl⟩
    · cases action with
      | admitRoute route =>
        simp [admittedEvidence, hstopped, emptyEvidence, runtimeDeadlineExhausted, PlanAction.isAdmit]
      | notParsed | reject | classifierFailed => cases hadmitted
    · simp [emptyEvidence, PlanAction.isAdmit]

theorem fileResult_stopped_iff
    (hstopped : stoppedAtRuntime runtime outputs file.fileIdentity = true)
    (haction : action.isAdmit = true ∨ ∃ status, action = .classifierFailed status) :
    (fileResult digests input file relativePath action classifications audits runtime
        outputs).SaysStopped ↔
      action.isAdmit = true ∧ changedResult outputs file.fileIdentity = none := by
  unfold FileResultRecord.SaysStopped
  simp only [fileResult]
  unfold fileDisposition
  cases hchanged : changedResult outputs file.fileIdentity with
  | some result => simp [executed]
  | none =>
    rcases haction with hadmitted | ⟨status, rfl⟩
    · cases action with
      | admitRoute route =>
        simp [admittedDisposition, hstopped, unexecuted, PlanAction.isAdmit]
      | notParsed | reject | classifierFailed => cases hadmitted
    · simp [unexecuted, PlanAction.isAdmit]

end OneFile

/-- A plan finds its file. -/
theorem planFile_fst {input : ScheduledRunInput} {plan : ClassifiedPlan}
    {found : DiscoveredFileOut × Text} (h : planFile input plan = .ok found)
    {file : DiscoveredFileOut} (hfile : input.snapshot.lookup plan.fileIdentity = some file) :
    found.1 = file := by
  have := planFile_eq_ok h
  rw [hfile] at this
  exact (Option.some.inj this).symm

/-- The evidence of a plan is the one entry with its identity. -/
theorem evidence_of_plan {input : ScheduledRunInput} {evidence : List ContextFileEvidence}
    (hevidence : final.evidence input = .ok evidence)
    (hnodup : (final.classified.map ClassifiedPlan.fileIdentity).Nodup) {plan : ClassifiedPlan}
    (hplan : plan ∈ final.classified) {file : DiscoveredFileOut}
    (hfile : input.snapshot.lookup plan.fileIdentity = some file) :
    ∃ relativePath, ∀ P : ContextFileEvidence → Prop,
      (∃ e ∈ evidence, e.fileIdentity = plan.fileIdentity ∧ P e) ↔
        P (fileEvidence file relativePath (effectiveAction final.admission plan)
          final.classifications final.runtime final.outputs) := by
  obtain ⟨e, hok, hiff⟩ := exists_key_mapM ClassifiedPlan.fileIdentity
    ContextFileEvidence.fileIdentity hevidence (fun q e h => by
    obtain ⟨found, hfound, hpure⟩ := bind_eq_ok.1 h
    cases hpure
    rw [fileEvidence_fileIdentity]
    exact ScheduledRunInput.fileIdentity_of_lookup (planFile_eq_ok hfound)) hnodup hplan
  obtain ⟨found, hfound, hpure⟩ := bind_eq_ok.1 hok
  cases hpure
  rw [planFile_fst hfound hfile] at hiff
  exact ⟨found.2, hiff⟩

/-- The row of a plan is the one row with its identity. -/
theorem row_of_plan {digests : Digests} {input : ScheduledRunInput} {rows : List FileResultRecord}
    (hrows : final.fileResults digests input = .ok rows)
    (hnodup : (final.classified.map ClassifiedPlan.fileIdentity).Nodup) {plan : ClassifiedPlan}
    (hplan : plan ∈ final.classified) {file : DiscoveredFileOut}
    (hfile : input.snapshot.lookup plan.fileIdentity = some file) :
    ∃ relativePath, ∀ P : FileResultRecord → Prop,
      (∃ row ∈ rows, row.fileIdentity = plan.fileIdentity ∧ P row) ↔
        P (fileResult digests input file relativePath (effectiveAction final.admission plan)
          final.classifications final.audits final.runtime final.outputs) := by
  obtain ⟨row, hok, hiff⟩ := exists_key_mapM ClassifiedPlan.fileIdentity
    FileResultRecord.fileIdentity hrows (fun q row h => by
    obtain ⟨found, hfound, hpure⟩ := bind_eq_ok.1 h
    cases hpure
    exact ScheduledRunInput.fileIdentity_of_lookup (planFile_eq_ok hfound)) hnodup hplan
  obtain ⟨found, hfound, hpure⟩ := bind_eq_ok.1 hok
  cases hpure
  rw [planFile_fst hfound hfile] at hiff
  exact ⟨found.2, hiff⟩

variable [UnicodeCase]

/-- A stopped plan is admitted, or its stopped classification failed. -/
theorem Coherent.action_of_stopped (h : Coherent run state) {plan : ClassifiedPlan}
    (hplan : plan ∈ state.classified)
    (hstopped : stoppedAtRuntime state.runtime state.outputs plan.fileIdentity = true) :
    (effectiveAction state.admission plan).isAdmit = true ∨
      plan.fileIdentity ∈ state.runtime ∧
        ∃ status, effectiveAction state.admission plan = .classifierFailed status := by
  have hor : plan.fileIdentity ∈ state.runtime ∨
      (state.outputs.view plan.fileIdentity).stopped = true := by
    simpa [stoppedAtRuntime, ParseOutputs.view] using hstopped
  have huntouched : state.outputs.view plan.fileIdentity = .untouched →
      plan.fileIdentity ∈ state.runtime := by
    intro hview
    rw [hview] at hor
    exact hor.resolve_right Bool.false_ne_true
  cases h.standing plan hplan with
  | waiting reason _ hruntime hview => exact absurd (huntouched hview) hruntime
  | rejected reason _ hruntime hview => exact absurd (huntouched hview) hruntime
  | failed status haction hview => exact .inr ⟨huntouched hview, status, haction⟩
  | stopped haction => exact .inl (by rw [haction]; rfl)
  | admitted decision route _ _ _ haction => exact .inl (by rw [haction]; rfl)

/-- A stopped plan is still admitted unless a refill round stopped its classification. -/
theorem StopsTold.isAdmit_iff (htold : StopsTold first state) (h : Coherent run state)
    {plan : ClassifiedPlan} (hplan : plan ∈ state.classified)
    (hstopped : stoppedAtRuntime state.runtime state.outputs plan.fileIdentity = true) :
    (effectiveAction state.admission plan).isAdmit = true ↔
      (plan.fileIdentity ∈ state.runtime → plan.fileIdentity ∈ first) := by
  by_cases hruntime : plan.fileIdentity ∈ state.runtime
  · rw [htold.admitted plan hplan hruntime]
    exact ⟨fun hfirst _ => hfirst, fun himp => himp hruntime⟩
  · refine iff_of_true ?_ fun hmem => absurd hmem hruntime
    exact (h.action_of_stopped hplan hstopped).resolve_right fun hfailed => hruntime hfailed.1

omit [UnicodeCase] in
/-- A stopped file counts as changed exactly when it was marked. -/
theorem changedResult_mark {digests : Digests} {changed : List DiscoveredFileOut}
    {file : DiscoveredFileOut}
    (hchanged : ∀ other ∈ changed, other.fileIdentity = file.fileIdentity → other = file)
    (hresult : (state.outputs.view file.fileIdentity).result = none)
    (hsame : SameFiles (state.mark digests changed) final) :
    changedResult final.outputs file.fileIdentity = none ↔ file ∉ changed := by
  change ((final.outputs.view file.fileIdentity).result.filter isSourceVersionChangedResult) = none ↔ _
  rw [hsame.view, RefillState.mark, view_foldl_markTainted hchanged]
  by_cases hmem : file ∈ changed
  · rw [if_pos hmem, ParseView.marked, hresult]
    refine iff_of_false ?_ (not_not_intro hmem)
    have htells : isSourceVersionChangedResult (sourceVersionChangedParse digests file) = true := rfl
    simp [htells]
  · rw [if_neg hmem, hresult]
    exact iff_of_true rfl hmem

omit [UnicodeCase] in
/-- Marking leaves the stops. -/
theorem stoppedAtRuntime_mark {digests : Digests} {changed : List DiscoveredFileOut}
    {file : DiscoveredFileOut}
    (hchanged : ∀ other ∈ changed, other.fileIdentity = file.fileIdentity → other = file)
    (hsame : SameFiles (state.mark digests changed) final) :
    stoppedAtRuntime final.runtime final.outputs file.fileIdentity =
      stoppedAtRuntime state.runtime state.outputs file.fileIdentity := by
  have hview : (final.outputs.view file.fileIdentity).stopped =
      (state.outputs.view file.fileIdentity).stopped := by
    rw [hsame.view, RefillState.mark, view_foldl_markTainted hchanged]
    split_ifs <;> rfl
  change (decide _ || (final.outputs.view file.fileIdentity).stopped) =
    (decide _ || (state.outputs.view file.fileIdentity).stopped)
  rw [hview, hsame.runtime]
  rfl

/-- **Exactly when a stopped file ends as not parsed.**  In every finished run of distinct files, a
file whose classification or parse the deadline stopped ends as not parsed for that reason, in the
evidence and in its row, exactly when no refill round stopped its classification and the guard does
not call its source changed at the end. -/
theorem stopped_files_iff {ports : Ports σ} {digests : Digests} {input : ScheduledRunInput}
    (hcontext : runContext ports digests input = .ok run) (hinput : input.Distinct) {s s' : σ}
    {outcome : PassesOutcome} (hpasses : runPasses run s = .ok (outcome, s'))
    {evidence : List ContextFileEvidence} (hevidence : outcome.state.evidence input = .ok evidence)
    {rows : List FileResultRecord} (hrows : outcome.state.fileResults digests input = .ok rows)
    {file : DiscoveredFileOut} (hfile : file ∈ input.discovery)
    (hstopped : stoppedAtRuntime outcome.state.runtime outcome.state.outputs file.fileIdentity =
      true) :
    EndsStopped evidence rows file.fileIdentity ↔
      (file.fileIdentity ∈ outcome.state.runtime → file.fileIdentity ∈ stoppedFirst run s) ∧
        file ∉ calledChanged run s := by
  obtain ⟨-, rfl, rfl, hconcurrency⟩ := runContext_eq_ok hcontext
  obtain ⟨state, hcoherent, htold, hsubset, hsame⟩ := runPasses_marks hinput hconcurrency hpasses
  -- the plan of the file
  have hperm := (hcoherent.perm.map Prod.fst)
  rw [List.map_map, List.map_map] at hperm
  obtain ⟨plan, hplan, hidentity⟩ := List.mem_map.1 (hperm.mem_iff.2 (List.mem_map_of_mem hfile))
  change plan.fileIdentity = file.fileIdentity at hidentity
  have hlookup : run.input.snapshot.lookup plan.fileIdentity = some file := by
    rw [hidentity]
    exact lookup_indexBy hinput hfile
  have hnodup := nodup_of_perm hinput hcoherent.perm
  have hchanged : ∀ other ∈ calledChanged run s, other.fileIdentity = file.fileIdentity →
      other = file :=
    fun other hother heq => List.inj_on_of_nodup_map hinput (hsubset hother) hfile heq
  -- its stop, its action and its result before the marks
  have hbefore := hstopped
  rw [stoppedAtRuntime_mark hchanged hsame, ← hidentity] at hbefore
  have hresult := hcoherent.unresulted_of_stopped hplan hbefore
  rw [hidentity] at hresult
  have haction := (hcoherent.action_of_stopped hplan hbefore).imp_right And.right
  have hadmitted := htold.isAdmit_iff hcoherent hplan hbefore
  have hmarked := changedResult_mark hchanged hresult hsame
  have hadmission : outcome.state.admission = state.admission := hsame.admission
  have hruntime : outcome.state.runtime = state.runtime := hsame.runtime
  have hclassified : outcome.state.classified = state.classified := hsame.classified
  rw [← hadmission] at haction hadmitted
  rw [← hclassified] at hplan hnodup
  -- both projections are about the plan
  obtain ⟨path, hevidence⟩ := evidence_of_plan hevidence hnodup hplan hlookup
  obtain ⟨path', hrow⟩ := row_of_plan hrows hnodup hplan hlookup
  have hentry := (hevidence _).trans (fileEvidence_stopped_iff hstopped haction)
  have hrow := (hrow _).trans (fileResult_stopped_iff hstopped haction)
  rw [hidentity] at hentry hrow
  rw [hruntime, ← hidentity, ← hadmitted, ← hmarked, hidentity]
  exact ⟨fun h => hentry.1 h.evidence, fun h => ⟨hentry.2 h, hrow.2 h⟩⟩

end Stops

/-! ### A run over two PDFs -/

/-- A PDF of the work directory. -/
def pdfFile (name : Text) : DiscoveredFileOut where
  fileIdentity := name
  path := lit "C:\\w\\" ++ name ++ lit ".pdf"
  extension := lit ".pdf"
  modifiedAt := []
  sizeBytes := 1
  sourceVersion := lit "1"
  sourceGuardKind := some (lit "content_sha256_v1")
  sourceGuardSha256 := some zeroDigest

/-- Ports with a clock that ticks at each look, and a cache that knows that the first PDF has no
text. -/
def tickingPorts : Ports ℕ where
  nowMs now := (now, now + 1)
  nextRequestId := pure []
  verify _ _ := pure true
  isTainted _ := pure false
  classifyPdf _ _ :=
    pure ⟨.error ⟨.parserFailed, [], false, .parse, none, none⟩, .notApplicable, 0, 0⟩
  parse request := pure (noteResult request.file)
  lookupParse _ _ _ := pure (.ok ⟨zeroDigest, .miss .newFile⟩)
  lookupClassification file _ _ _ := pure (.ok
    (if file.fileIdentity = lit "a" then .fresh ⟨none, lit "no_text_in_parse_window", 1, 1⟩
      else .miss .newFile))
  writeParse _ _ := pure (.ok ())
  writeClassification _ _ := pure (.ok ())
  touchAccess _ _ _ := pure (.ok ())

/-- A run whose page budget covers one of its two PDFs. -/
def twoPdfs (deadline : ℕ) : ScheduledRunInput where
  platform := .windows
  workDir := lit "C:\\w"
  discovery := [pdfFile (lit "a"), pdfFile (lit "b")]
  discoveryIssues := []
  profile := { dailyDefaultSettings with maxTotalPdfClassificationPages := 5 }
  workers := ⟨none, none, none, none, none, none, some zeroDigest⟩
  engineVersion := []
  engineBuild := []
  contextProfileHash := zeroDigest
  rejectedProfileHash := zeroDigest
  workDeadlineMs := deadline
  absoluteDeadlineMs := 20
  existedBefore := ∅

def twoPdfsRun (deadline : ℕ) : RunContext ℕ where
  ports := tickingPorts
  digests := constantDigests
  input := twoPdfs deadline
  classifierHash := zeroDigest
  classifierBuild := zeroDigest
  concurrency := 4

theorem twoPdfsProfile_validate : (twoPdfs 0).profile.validate = .ok () := by decide +kernel

theorem runContext_twoPdfs (deadline : ℕ) :
    @runContext _ asciiCase tickingPorts constantDigests (twoPdfs deadline) =
      .ok (twoPdfsRun deadline) := by
  have hhash : classifierProfileHash constantDigests (twoPdfs deadline).profile = .ok zeroDigest := by
    unfold classifierProfileHash
    rw [show (twoPdfs deadline).profile.validate = .ok () from twoPdfsProfile_validate]
    rfl
  unfold runContext
  rw [hhash]
  rfl

/-- The run stopped the file, and both projections succeed. -/
def stops (deadline : ℕ) (identity : Text) (outcome : PassesOutcome) : Bool :=
  stoppedAtRuntime outcome.state.runtime outcome.state.outputs identity &&
    (outcome.state.evidence (twoPdfs deadline)).toOption.isSome &&
    (outcome.state.fileResults constantDigests (twoPdfs deadline)).toOption.isSome

theorem stops_first : ((@runPasses _ asciiCase (twoPdfsRun 0) 0).toOption.any fun result =>
    stops 0 (lit "a") result.1 && decide (lit "a" ∈ @stoppedFirst _ asciiCase (twoPdfsRun 0) 0) &&
      decide (@calledChanged _ asciiCase (twoPdfsRun 0) 0 = [])) = true := by
  decide +kernel

/-- A file that is stopped at once ends as stopped. -/
theorem stopped_files_iff_first : ∃ outcome s' evidence rows,
    @runPasses _ asciiCase (twoPdfsRun 0) 0 = .ok (outcome, s') ∧
      outcome.state.evidence (twoPdfs 0) = .ok evidence ∧
      outcome.state.fileResults constantDigests (twoPdfs 0) = .ok rows ∧
      EndsStopped evidence rows (lit "a") := by
  have hrun := stops_first
  cases hpasses : @runPasses _ asciiCase (twoPdfsRun 0) 0 with
  | error e => rw [hpasses] at hrun; cases hrun
  | ok result =>
    rw [hpasses] at hrun
    obtain ⟨⟨hstops, hfirst⟩, hchanged⟩ := by
      simpa only [Except.toOption, Option.any_some, Bool.and_eq_true, decide_eq_true_eq] using hrun
    obtain ⟨⟨hstopped, hevidence⟩, hrows⟩ := by simpa only [stops, Bool.and_eq_true] using hstops
    obtain ⟨evidence, hevidence⟩ := Option.isSome_iff_exists.1 hevidence
    obtain ⟨rows, hrows⟩ := Option.isSome_iff_exists.1 hrows
    refine ⟨result.1, result.2, evidence, rows, rfl, toOption_eq_some.1 hevidence,
      toOption_eq_some.1 hrows, ?_⟩
    refine (@stopped_files_iff _ _ asciiCase _ _ _ (runContext_twoPdfs 0)
      (show ((twoPdfs 0).discovery.map DiscoveredFileOut.fileIdentity).Nodup by decide +kernel) _ _ _
      hpasses _ (toOption_eq_some.1 hevidence) _ (toOption_eq_some.1 hrows) (pdfFile (lit "a"))
      (List.mem_cons_self) hstopped).2 ⟨fun _ => hfirst, ?_⟩
    rw [hchanged]
    exact List.not_mem_nil

theorem stops_refill : ((@runPasses _ asciiCase (twoPdfsRun 2) 0).toOption.any fun result =>
    stops 2 (lit "b") result.1 &&
      (result.1.state.evidence (twoPdfs 2)).toOption.any fun evidence => evidence.all fun e =>
        decide (e.fileIdentity = lit "b" → e.parseStatus = .error)) = true := by
  decide +kernel

/-- **A file whose classification a refill round stops ends as an error.** -/
theorem refill_stop_fails : ∃ outcome s' evidence rows,
    @runContext _ asciiCase tickingPorts constantDigests (twoPdfs 2) = .ok (twoPdfsRun 2) ∧
      (twoPdfs 2).Distinct ∧ @runPasses _ asciiCase (twoPdfsRun 2) 0 = .ok (outcome, s') ∧
      outcome.state.evidence (twoPdfs 2) = .ok evidence ∧
      outcome.state.fileResults constantDigests (twoPdfs 2) = .ok rows ∧
      pdfFile (lit "b") ∈ (twoPdfs 2).discovery ∧
      stoppedAtRuntime outcome.state.runtime outcome.state.outputs (lit "b") = true ∧
      ¬ EndsStopped evidence rows (lit "b") := by
  have hrun := stops_refill
  cases hpasses : @runPasses _ asciiCase (twoPdfsRun 2) 0 with
  | error e => rw [hpasses] at hrun; cases hrun
  | ok result =>
    rw [hpasses] at hrun
    obtain ⟨hstops, herror⟩ := by
      simpa only [Except.toOption, Option.any_some, Bool.and_eq_true] using hrun
    obtain ⟨⟨hstopped, hevidence⟩, hrows⟩ := by simpa only [stops, Bool.and_eq_true] using hstops
    obtain ⟨evidence, hevidence⟩ := Option.isSome_iff_exists.1 hevidence
    obtain ⟨rows, hrows⟩ := Option.isSome_iff_exists.1 hrows
    refine ⟨result.1, result.2, evidence, rows, runContext_twoPdfs 2,
      show ((twoPdfs 2).discovery.map DiscoveredFileOut.fileIdentity).Nodup by decide +kernel, rfl,
      toOption_eq_some.1 hevidence, toOption_eq_some.1 hrows, by simp [twoPdfs], hstopped, ?_⟩
    rintro ⟨⟨e, he, hidentity, hstatus, -⟩, -⟩
    rw [toOption_eq_some.1 hevidence] at herror
    have := of_decide_eq_true (List.all_eq_true.1 herror e he) hidentity
    rw [hstatus] at this
    cases this

end DailyReport
