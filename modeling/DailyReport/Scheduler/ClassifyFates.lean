import DailyReport.Lib.Worklist
import DailyReport.Scheduler.Classify

/-!
# What the classification phase does to a file

Each plan of a classification phase ends in exactly one of a few fates (`ClassificationFate`),
whatever the ports answer: what the phase says about its file is the result, the audit and the
runtime mark of that fate.

* `runClassifications_fates` : **every plan ends in a fate**, and the phase says nothing about any
  other file.
-/

namespace DailyReport

open Lib

/-- What a phase says about one file. -/
structure ClassificationView where
  result : Option PdfClassificationResult
  audit : Option PdfClassificationAuditV1
  stopped : Bool

namespace ClassificationOutputs

variable (out : ClassificationOutputs)

def view (identity : Text) : ClassificationView where
  result := out.results.lookup identity
  audit := out.audits.lookup identity
  stopped := decide (identity ∈ out.runtimeNotParsed)

variable {out} {identity other : Text} {result : PdfClassificationResult}
  {audit : PdfClassificationAuditV1}

theorem view_stop (h : out.view identity = ⟨none, none, false⟩) :
    (out.stop identity).view identity = ⟨none, none, true⟩ := by
  simp only [view, ClassificationView.mk.injEq] at h
  simp [view, stop, h]

theorem view_stop_ne (h : other ≠ identity) :
    (out.stop identity).view other = out.view other := by
  simp [view, stop, h]

theorem view_record (h : out.view identity = ⟨none, none, false⟩)
    (hidentity : result.fileIdentity = identity) :
    (out.record result).view identity = ⟨some result, none, false⟩ := by
  subst hidentity
  simp only [view, ClassificationView.mk.injEq] at h
  refine ClassificationView.mk.injEq .. |>.mpr ⟨AList.lookup_insert _, h.2.1, h.2.2⟩

theorem view_record_ne (h : other ≠ result.fileIdentity) :
    (out.record result).view other = out.view other :=
  congrArg (fun r => ClassificationView.mk r _ _) (AList.lookup_insert_ne h)

theorem view_recordAudited (h : out.view identity = ⟨none, none, false⟩)
    (hidentity : result.fileIdentity = identity) :
    (out.recordAudited result audit).view identity = ⟨some result, some audit, false⟩ := by
  subst hidentity
  simp only [view, ClassificationView.mk.injEq] at h
  refine ClassificationView.mk.injEq .. |>.mpr
    ⟨AList.lookup_insert _, AList.lookup_insert _, h.2.2⟩

theorem view_recordAudited_ne (h : other ≠ result.fileIdentity) :
    (out.recordAudited result audit).view other = out.view other :=
  congrArg₂ (fun r a => ClassificationView.mk r a _) (AList.lookup_insert_ne h)
    (AList.lookup_insert_ne h)

theorem view_stopAll {identities : List Text} (h : out.view identity = ⟨none, none, false⟩)
    (hmem : identity ∈ identities) :
    (out.stopAll identities).view identity = ⟨none, none, true⟩ := by
  simp only [view, ClassificationView.mk.injEq] at h
  simp [view, stopAll, h, hmem]

theorem view_stopAll_notMem {identities : List Text} (h : identity ∉ identities) :
    (out.stopAll identities).view identity = out.view identity := by
  simp [view, stopAll, h]

end ClassificationOutputs

/-! ### Fates -/

variable {σ : Type}

/-- The plan charges pages for a discovered file with a usable guard. -/
structure Classifiable (run : RunContext σ) (plan : ClassifiedPlan) (file : DiscoveredFileOut)
    (guard : SourceGuardV2) (hash : Text) (chargedPages : ℕ) : Prop where
  classify : plan.pdfClassification = .classify chargedPages
  found : run.input.snapshot.lookup plan.fileIdentity = some file
  guarded : expectedGuard file = some guard
  hash : chargedClassifierHash run.digests run.input.profile run.classifierHash chargedPages =
    .ok hash

theorem ScheduledRunInput.fileIdentity_of_lookup {input : ScheduledRunInput} {identity : Text}
    {file : DiscoveredFileOut} (h : input.snapshot.lookup identity = some file) :
    file.fileIdentity = identity := (mem_of_lookup_indexBy h).2

theorem Classifiable.identity {run : RunContext σ} {plan : ClassifiedPlan}
    {file : DiscoveredFileOut} {guard : SourceGuardV2} {hash : Text} {chargedPages : ℕ}
    (h : Classifiable run plan file guard hash chargedPages) :
    file.fileIdentity = plan.fileIdentity := ScheduledRunInput.fileIdentity_of_lookup h.found

/-- The task of a plan. -/
structure TaskOf (run : RunContext σ) (plan : ClassifiedPlan) (task : ClassificationTask) :
    Prop where
  classifiable : Classifiable run plan task.file task.guard task.classifierHash
    task.nominalChargedPages
  build : task.classifierBuild = run.classifierBuild
  reason : ∃ reason : ClassificationCacheMissReason, task.cacheMissReason = reason.asStr
  payload : task.request.payload =
    ⟨task.file.path, task.file.sourceVersion, task.nominalChargedPages,
      run.input.profile.classifierPolicyVersion⟩

/-- The call of a task was answered like this. -/
def CallOf (run : RunContext σ) (task : ClassificationTask) (execution : PdfClassifierExecution) :
    Prop :=
  ∃ timeout s, (run.ports.classifyPdf task.request timeout s).1 = execution

/-- What may become of a plan in a classification phase. -/
inductive ClassificationFate (run : RunContext σ) (plan : ClassifiedPlan) :
    ClassificationView → Prop
  | notPdf (h : plan.pdfClassification = .notPdf) : ClassificationFate run plan ⟨none, none, false⟩
  | excluded (h : plan.pdfClassification = .notClassifiedByBudget) :
      ClassificationFate run plan ⟨some (excludedResult plan.fileIdentity),
        some (excludedAudit run.classifierBuild run.classifierHash), false⟩
  | skipped {chargedPages : ℕ} (h : plan.pdfClassification = .classify chargedPages)
      (hguard : (run.input.snapshot.lookup plan.fileIdentity).bind expectedGuard = none) :
      ClassificationFate run plan ⟨none, none, false⟩
  | stopped {chargedPages : ℕ} (h : plan.pdfClassification = .classify chargedPages) :
      ClassificationFate run plan ⟨none, none, true⟩
  | changed {file : DiscoveredFileOut} {guard : SourceGuardV2} {hash : Text} {chargedPages : ℕ}
      (h : Classifiable run plan file guard hash chargedPages) :
      ClassificationFate run plan
        ⟨some (sourceVersionChangedClassification plan.fileIdentity), none, false⟩
  | cached {file : DiscoveredFileOut} {guard : SourceGuardV2} {hash : Text} {chargedPages : ℕ}
      (h : Classifiable run plan file guard hash chargedPages) (entry : ClassificationCacheEntry)
      (hentry : ∃ existed s, (run.ports.lookupClassification file hash run.classifierBuild
        existed s).1 = .ok (.fresh entry)) :
      ClassificationFate run plan ⟨some (entry.result plan.fileIdentity),
        some (entry.audit chargedPages run.input.profile.classifierPolicyVersion
          run.classifierBuild hash), false⟩
  | unattempted {task : ClassificationTask} (h : TaskOf run plan task)
      {execution : PdfClassifierExecution} (hcall : CallOf run task execution)
      (hattempts : execution.attemptCount = 0) :
      ClassificationFate run plan
        ⟨some (classificationOf plan.fileIdentity execution.outcome), none, false⟩
  | executed {task : ClassificationTask} (h : TaskOf run plan task)
      {execution : PdfClassifierExecution} (hcall : CallOf run task execution)
      (hattempts : execution.attemptCount ≠ 0) :
      ClassificationFate run plan ⟨some (classificationOf plan.fileIdentity execution.outcome),
        some (task.audit execution (classificationOf plan.fileIdentity execution.outcome)), false⟩

/-- The plans, the tasks and the outputs of a classification phase. -/
def classificationKeys (run : RunContext σ) :
    WorkKeys ClassifiedPlan ClassificationTask ClassificationOutputs ClassificationView Text where
  plan := ClassifiedPlan.fileIdentity
  task task := task.file.fileIdentity
  view := ClassificationOutputs.view
  untouched := ⟨none, none, false⟩
  Queued plan task view := TaskOf run plan task ∧ view = ⟨none, none, false⟩
  Fate := ClassificationFate run

/-- The classification phase is on its way. -/
abbrev ClassificationProgress (run : RunContext σ) (plans : List ClassifiedPlan)
    (pending : List ClassificationTask) (out : ClassificationOutputs) : Prop :=
  (classificationKeys run).Worklist plans pending out

variable {run : RunContext σ} {plans : List ClassifiedPlan} {pending : List ClassificationTask}
  {out : ClassificationOutputs}

@[simp] theorem classificationOf_fileIdentity (identity : Text)
    (outcome : Except Diagnostic ClassifyResult) :
    (classificationOf identity outcome).fileIdentity = identity := by
  cases outcome <;> rfl

/-! ### Freezing -/

section Freezing

variable {plan : ClassifiedPlan} {file : DiscoveredFileOut} {guard : SourceGuardV2} {hash : Text}
  {chargedPages : ℕ} {phase : ClassificationPhase}

/-- The plans before this one are on their way, and nothing is known about this one. -/
structure NextPlan (run : RunContext σ) (plans : List ClassifiedPlan) (plan : ClassifiedPlan)
    (phase : ClassificationPhase) : Prop where
  progress : ClassificationProgress run plans phase.tasks phase.outputs
  isNew : plan.fileIdentity ∉ plans.map ClassifiedPlan.fileIdentity

theorem NextPlan.view (h : NextPlan run plans plan phase) :
    phase.outputs.view plan.fileIdentity = ⟨none, none, false⟩ := h.progress.untouched h.isNew

/-- The plan is settled. -/
theorem NextPlan.settle (h : NextPlan run plans plan phase) {out : ClassificationOutputs}
    {view : ClassificationView}
    (hframe : ∀ k, k ≠ plan.fileIdentity → out.view k = phase.outputs.view k)
    (hview : out.view plan.fileIdentity = view) (hfate : ClassificationFate run plan view) :
    ClassificationProgress run (plans ++ [plan]) phase.tasks out :=
  h.progress.settlePlan h.isNew hframe
    (show ClassificationFate run plan (out.view plan.fileIdentity) from hview ▸ hfate)

theorem NextPlan.keep (h : NextPlan run plans plan phase)
    (hfate : ClassificationFate run plan ⟨none, none, false⟩) :
    ClassificationProgress run (plans ++ [plan]) phase.tasks phase.outputs :=
  h.settle (fun _ _ => rfl) h.view hfate

theorem NextPlan.stop (h : NextPlan run plans plan phase)
    (hplan : plan.pdfClassification = .classify chargedPages) :
    ClassificationProgress run (plans ++ [plan]) phase.tasks
      (phase.outputs.stop plan.fileIdentity) :=
  h.settle (fun _ hk => ClassificationOutputs.view_stop_ne hk)
    (ClassificationOutputs.view_stop h.view) (.stopped hplan)

theorem queueClassification_spec (h : NextPlan run plans plan phase)
    (hplan : Classifiable run plan file guard hash chargedPages)
    (reason : ClassificationCacheMissReason) :
    Ensures (queueClassification run file guard chargedPages hash reason phase) fun phase' =>
      ClassificationProgress run (plans ++ [plan]) phase'.tasks phase'.outputs := by
  unfold queueClassification
  refine Ensures.bind_trivial fun now => Ensures.ite (fun _ => Ensures.pure ?_) fun _ => ?_
  · rw [hplan.identity]
    exact h.stop hplan.classify
  · refine Ensures.bind_trivial fun requestId => Ensures.pure ?_
    refine h.progress.queuePlan h.isNew (WorkKeys.Frame.refl _ _ _) hplan.identity ⟨?_, h.view⟩
    exact ⟨hplan, rfl, ⟨reason, rfl⟩, rfl⟩

theorem lookupClassification_spec (h : NextPlan run plans plan phase)
    (hplan : Classifiable run plan file guard hash chargedPages) :
    Ensures (lookupClassification run file guard chargedPages hash phase) fun phase' =>
      ClassificationProgress run (plans ++ [plan]) phase'.tasks phase'.outputs := by
  unfold lookupClassification
  refine Ensures.ask.bind fun lookup hlookup => ?_
  cases lookup with
  | error e => exact Ensures.throw
  | ok lookup =>
    cases lookup with
    | miss reason => exact queueClassification_spec h hplan reason
    | fresh entry =>
      obtain ⟨s, hs⟩ := hlookup
      rw [hplan.identity]
      refine Ensures.pure (h.settle
        (fun k hk => ClassificationOutputs.view_recordAudited_ne hk)
        (ClassificationOutputs.view_recordAudited h.view rfl) ?_)
      exact .cached hplan entry ⟨_, s, hs⟩

theorem record_changed (h : NextPlan run plans plan phase)
    (hplan : Classifiable run plan file guard hash chargedPages) :
    ClassificationProgress run (plans ++ [plan]) phase.tasks
      (phase.outputs.record (sourceVersionChangedClassification plan.fileIdentity)) :=
  h.settle (fun _ hk => ClassificationOutputs.view_record_ne hk)
    (ClassificationOutputs.view_record h.view rfl) (.changed hplan)

/-- **Freezing a plan settles or queues it.** -/
theorem freezeClassification_spec (h : NextPlan run plans plan phase) :
    Ensures (freezeClassification run phase plan) fun phase' =>
      ClassificationProgress run (plans ++ [plan]) phase'.tasks phase'.outputs := by
  unfold freezeClassification
  cases hpdf : plan.pdfClassification with
  | notPdf => exact Ensures.pure (h.keep (.notPdf hpdf))
  | notClassifiedByBudget =>
    exact Ensures.pure (h.settle (fun k hk => ClassificationOutputs.view_recordAudited_ne hk)
      (ClassificationOutputs.view_recordAudited h.view rfl) (.excluded hpdf))
  | classify chargedPages =>
    refine (Ensures.ofExcept fun _ hhash => hhash).bind fun hash hhash => ?_
    cases hfile : run.input.snapshot.lookup plan.fileIdentity with
    | none => exact Ensures.pure (h.keep (.skipped hpdf (by rw [hfile]; rfl)))
    | some file =>
      unfold verifyClassification
      have hidentity := ScheduledRunInput.fileIdentity_of_lookup hfile
      refine Ensures.bind_trivial fun now => Ensures.ite (fun _ => Ensures.pure ?_) fun _ => ?_
      · rw [hidentity]
        exact h.stop hpdf
      · cases hguard : expectedGuard file with
        | none => exact Ensures.pure (h.keep (.skipped hpdf (by rw [hfile]; exact hguard)))
        | some guard =>
          have hplan : Classifiable run plan file guard hash chargedPages :=
            ⟨hpdf, hfile, hguard, hhash⟩
          refine Ensures.bind_trivial fun verified =>
            Ensures.ite (fun _ => ?_) fun _ => Ensures.pure ?_
          · exact lookupClassification_spec h hplan
          · rw [hidentity]
            exact record_changed h hplan

end Freezing

/-! ### Waves -/

theorem writeClassification_view (task : ClassificationTask) (result : PdfClassificationResult) :
    Ensures (writeClassification run task result out) fun out' =>
      ∀ identity, out'.view identity = out.view identity := by
  unfold writeClassification
  refine Ensures.bind_trivial fun now => Ensures.ite (fun _ => ?_) fun _ =>
    Ensures.pure fun _ => rfl
  cases classificationCacheRecord task.file task.classifierHash task.classifierBuild result with
  | none => exact Ensures.pure fun _ => rfl
  | some record =>
    refine Ensures.bind_trivial fun now => Ensures.bind_trivial fun written => ?_
    rcases written with (_ | _ | _) | _ <;> exact Ensures.pure fun _ => rfl

/-- A pending task is settled. -/
theorem ClassificationProgress.settle {task : ClassificationTask} {out' : ClassificationOutputs}
    (h : ClassificationProgress run plans (task :: pending) out)
    (hframe : ∀ k, k ≠ task.file.fileIdentity → out'.view k = out.view k)
    (hfate : ∀ plan, TaskOf run plan task →
      out.view task.file.fileIdentity = ⟨none, none, false⟩ →
      ClassificationFate run plan (out'.view task.file.fileIdentity)) :
    ClassificationProgress run plans pending out' :=
  h.settleTask hframe fun plan _ hqueued => hfate plan hqueued.1 hqueued.2

/-- **Merging a call settles its task.** -/
theorem mergeClassification_spec {task : ClassificationTask} {execution : PdfClassifierExecution}
    (h : ClassificationProgress run plans (task :: pending) out) (hcall : CallOf run task execution) :
    Ensures (mergeClassification run out (task, execution)) fun out' =>
      ClassificationProgress run plans pending out' := by
  have hrecord : ∀ result : PdfClassificationResult, result.fileIdentity = task.file.fileIdentity →
      (∀ plan, TaskOf run plan task → ClassificationFate run plan ⟨some result, none, false⟩) →
      ClassificationProgress run plans pending (out.record result) := by
    intro result hid hfate
    refine ClassificationProgress.settle h
      (fun k hk => ClassificationOutputs.view_record_ne (hid ▸ hk)) fun plan hplan hview => ?_
    rw [ClassificationOutputs.view_record hview hid]
    exact hfate plan hplan
  have hchanged : ClassificationProgress run plans pending
      (out.record (sourceVersionChangedClassification task.file.fileIdentity)) := by
    refine hrecord _ rfl fun plan hplan => ?_
    rw [hplan.classifiable.identity]
    exact .changed hplan.classifiable
  unfold mergeClassification
  refine Ensures.ite (fun _ => Ensures.pure hchanged) fun _ => Ensures.ite (fun hzero => ?_)
    fun hattempts => ?_
  · refine Ensures.pure (hrecord _ (classificationOf_fileIdentity _ _) fun plan hplan => ?_)
    rw [hplan.classifiable.identity]
    exact .unattempted hplan hcall hzero
  · refine Ensures.bind_trivial fun verified => Ensures.ite (fun _ => ?_) fun _ =>
      Ensures.pure hchanged
    refine (writeClassification_view task _).mono fun out' hview => WorkKeys.Worklist.congr ?_ hview
    set result := classificationOf task.file.fileIdentity execution.outcome with hresult
    have hid : result.fileIdentity = task.file.fileIdentity := classificationOf_fileIdentity _ _
    refine ClassificationProgress.settle h
      (fun k hk => ClassificationOutputs.view_recordAudited_ne (hid ▸ hk)) fun plan hplan hview => ?_
    rw [ClassificationOutputs.view_recordAudited hview hid, hresult, hplan.classifiable.identity]
    exact .executed hplan hcall hattempts

theorem mergeAll_spec {wave : List ClassificationTask} {executions : List PdfClassifierExecution}
    (hcalls : List.Forall₂ (CallOf run) wave executions)
    (h : ClassificationProgress run plans (wave ++ pending) out) :
    Ensures ((wave.zip executions).foldlM (mergeClassification run) out) fun out' =>
      ClassificationProgress run plans pending out' := by
  induction hcalls generalizing out with
  | nil => exact Ensures.pure h
  | cons hcall _ ih =>
    rw [List.zip_cons_cons, List.foldlM_cons]
    exact (mergeClassification_spec h hcall).bind fun out' h' => ih h'

theorem executeClassificationWave_spec {wave : List ClassificationTask}
    (h : ClassificationProgress run plans (wave ++ pending) out) :
    Ensures (executeClassificationWave run wave out) fun out' =>
      ClassificationProgress run plans pending out' := by
  unfold executeClassificationWave
  refine Ensures.bind_trivial fun now => ?_
  refine (Ensures.mapM fun task _ => Ensures.ask.mono fun execution hs => ?_).bind
    fun executions hcalls => mergeAll_spec hcalls h
  obtain ⟨s, hs⟩ := hs
  exact ⟨_, s, hs⟩

/-- The deadline settles everything that is pending. -/
theorem stopAll_progress (h : ClassificationProgress run plans pending out) :
    ClassificationProgress run plans [] (out.stopAll (pending.map fun task =>
      task.file.fileIdentity)) := by
  refine h.settleAll (fun k hk => ClassificationOutputs.view_stopAll_notMem hk) ?_
  rintro plan - task htask ⟨hplan, hview⟩
  have hmem := List.mem_map_of_mem (f := fun task : ClassificationTask => task.file.fileIdentity)
    htask
  have hstopped : (out.stopAll (pending.map fun task => task.file.fileIdentity)).view
      task.file.fileIdentity = _ := ClassificationOutputs.view_stopAll hview hmem
  show ClassificationFate run plan ((out.stopAll _).view task.file.fileIdentity)
  rw [hstopped]
  exact .stopped hplan.classifiable.classify

theorem classificationWaves_spec {waves : List (List ClassificationTask)}
    (h : ClassificationProgress run plans waves.flatten out) :
    Ensures (classificationWaves run waves out) fun out' =>
      ClassificationProgress run plans [] out' := by
  induction waves generalizing out with
  | nil => exact Ensures.pure h
  | cons wave rest ih =>
    unfold classificationWaves
    refine Ensures.bind_trivial fun now => Ensures.ite (fun _ => Ensures.pure ?_) fun _ => ?_
    · exact stopAll_progress h
    · exact (executeClassificationWave_spec h).bind fun out' h' => ih h'

/-- **Every plan of a classification phase ends in a fate**, and nothing is said about any other
file. -/
theorem runClassifications_fates (hconcurrency : 0 < run.concurrency)
    (hnodup : (plans.map ClassifiedPlan.fileIdentity).Nodup) :
    Ensures (runClassifications run plans) fun out => ClassificationProgress run plans [] out := by
  unfold runClassifications
  have hphase : Ensures (plans.foldlM (freezeClassification run) ⟨ClassificationOutputs.empty, []⟩)
      fun phase => ClassificationProgress run plans phase.tasks phase.outputs := by
    refine Ensures.foldlM_prefix
      (fun done (phase : ClassificationPhase) =>
        ClassificationProgress run done phase.tasks phase.outputs)
      (WorkKeys.Worklist.init fun _ => rfl) fun done plan phase hdone h => ?_
    refine freezeClassification_spec ⟨h, fun hmem => ?_⟩
    -- the identities of the prefix are distinct
    have := (hdone.sublist.map ClassifiedPlan.fileIdentity).nodup hnodup
    rw [List.map_append, List.map_singleton, List.nodup_append] at this
    exact this.2.2 _ hmem _ (by simp) rfl
  refine hphase.bind fun phase h => classificationWaves_spec ?_
  rwa [flatten_chunks hconcurrency]

/-- The fate of a plan, read off the outputs. -/
theorem ClassificationProgress.fate (h : ClassificationProgress run plans [] out)
    {plan : ClassifiedPlan} (hplan : plan ∈ plans) :
    ClassificationFate run plan (out.view plan.fileIdentity) := WorkKeys.Worklist.fate h hplan

end DailyReport
