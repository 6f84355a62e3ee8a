import DailyReport.Scheduler.Verdict

/-!
# The passes keep a run coherent

What a pass leaves behind is described once (`firstPass_spec`, `refillWave_spec`), and from that the
invariant `Coherent` follows for the first pass, for reclaiming, for a refill wave and so for a
whole refill.

* `firstPass_coherent` : **the first pass leaves a coherent state**;
* `refillPass_coherent` : **the refill keeps it coherent**.
-/

namespace DailyReport

open Lib

variable {σ : Type} [UnicodeCase] {run : RunContext σ}

/-! ### What the passes do -/

/-- What the first pass classified, its model and what it parsed. -/
structure FirstSteps (run : RunContext σ) (out : ClassificationOutputs)
    (model : ContextBudgetModel) (parses : ParsePhase) : Prop where
  classified : ClassificationProgress run (stageA run.input) [] out
  budget : budgetModel run.input
    (fixedSections run.input (stageA run.input) out.results out.runtimeNotParsed) = .ok model
  parsed : ParseProgress run out.results out.runtimeNotParsed (firstDecisions run.input out model) []
    parses.outputs

/-- The state of a round once its classifications are known. -/
def waveState (state : RefillState) (out : ClassificationOutputs) (model : ContextBudgetModel) :
    RefillState :=
  { state.addClassifications out with model := model }

/-- What a wave classified, the model after that and what it parsed. -/
structure WaveSteps (run : RunContext σ) (plan : RefillPlan) (used : Consumed)
    (state : RefillState) (out : ClassificationOutputs) (model : ContextBudgetModel)
    (parses : ParsePhase) : Prop where
  classified : ClassificationProgress run (plan.frozen.filter ClassifiedPlan.isClassify) [] out
  budget : budgetModel run.input
    (fixedSections run.input (wavePlans (state.addClassifications out) plan.frozen)
      (state.addClassifications out).classifications (state.addClassifications out).runtime) =
        .ok model
  parsed : ParseProgress run (waveState state out model).classifications
    (waveState state out model).runtime
    (waveDecisions run.input plan used (waveState state out model)) [] parses.outputs

theorem map_fileIdentity_of_perm {plans : List ClassifiedPlan} {files : List PlanCandidate}
    (h : (plans.map ClassifiedPlan.origin).Perm (files.map PlanCandidate.origin)) :
    (plans.map ClassifiedPlan.fileIdentity).Perm (files.map PlanCandidate.fileIdentity) := by
  have := h.map Prod.fst
  rw [List.map_map, List.map_map] at this
  exact this

theorem stageA_perm (input : ScheduledRunInput) :
    ((stageA input).map ClassifiedPlan.origin).Perm
      (input.discovery.map fun file => (planCandidate file).origin) := by
  have := ClassificationPlan.perm_candidates input.profile false
    (input.discovery.map planCandidate) input.profile.maxTotalPdfClassificationPages
    input.profile.maxCandidateFiles
  rwa [List.map_map] at this

/-- The plans of distinct files are distinct. -/
theorem nodup_of_perm {input : ScheduledRunInput} (hinput : input.Distinct)
    {plans : List ClassifiedPlan}
    (h : (plans.map ClassifiedPlan.origin).Perm
      (input.discovery.map fun file => (planCandidate file).origin)) :
    (plans.map ClassifiedPlan.fileIdentity).Nodup := by
  have := h.map Prod.fst
  rw [List.map_map, List.map_map] at this
  exact this.nodup_iff.2 hinput

variable (hinput : run.input.Distinct) (hconcurrency : 0 < run.concurrency)

include hinput hconcurrency in
/-- **What the first pass does.** -/
theorem firstPass_spec : Ensures (firstPass run) fun first => ∃ out model parses,
    FirstSteps run out model parses ∧
      first = ⟨firstState run.input out model (firstDecisions run.input out model) parses,
        out.cacheWriteWarnings⟩ := by
  have hnodup := nodup_of_perm hinput (stageA_perm run.input)
  unfold firstPass
  refine (runClassifications_fates hconcurrency hnodup).bind fun out hout => ?_
  refine (Ensures.ofExcept fun model hmodel => hmodel).bind fun model hmodel => ?_
  refine (runParses_fates hconcurrency ?_).bind fun parses hparses => Ensures.pure ?_
  · rw [firstDecisions, ContentAdmissionPlan.build, map_fileIdentity_buildWithRemaining]
    exact hnodup.sublist (List.filter_sublist.map _)
  · exact ⟨out, model, parses, ⟨hout, hmodel, hparses⟩, rfl⟩

include hconcurrency in
/-- **What a refill wave does.** -/
theorem refillWave_spec {plan : RefillPlan} {used : Consumed} {state : RefillState}
    (hnodup : ((plan.frozen ++ plan.reusable).map ClassifiedPlan.fileIdentity).Nodup) :
    Ensures (refillWave run plan used state) fun after => ∃ out model parses,
      WaveSteps run plan used state out model parses ∧
        after = (waveState state out model).addWave plan.plans
          (waveDecisions run.input plan used (waveState state out model)) parses := by
  have hfrozen : ((plan.frozen.filter ClassifiedPlan.isClassify).map
      ClassifiedPlan.fileIdentity).Nodup := by
    rw [List.map_append] at hnodup
    exact (List.nodup_append.1 hnodup).1.sublist (List.filter_sublist.map _)
  unfold refillWave
  refine (runClassifications_fates hconcurrency hfrozen).bind fun out hout => ?_
  refine (Ensures.ofExcept fun model hmodel => hmodel).bind fun model hmodel => ?_
  refine (runParses_fates hconcurrency ?_).bind fun parses hparses => Ensures.pure ?_
  · rw [waveDecisions, map_fileIdentity_buildWithRemaining, RefillPlan.plans]
    exact ((sortByKey_perm _ _).map _).nodup_iff.2 hnodup
  · exact ⟨out, model, parses, ⟨hout, hmodel, hparses⟩, rfl⟩

/-! ### The first pass -/

section FirstPass

variable {out : ClassificationOutputs} {model : ContextBudgetModel} {parses : ParsePhase}
  {plan : ClassifiedPlan}

theorem stageA_plannedFrom {input : ScheduledRunInput} (hinput : input.Distinct)
    {plan : ClassifiedPlan} (hplan : plan ∈ stageA input) :
    ∃ file, input.snapshot.lookup plan.fileIdentity = some file ∧
      PlannedFrom input.profile (planCandidate file) plan := by
  obtain ⟨candidate, hcandidate, hfrom⟩ := ClassificationPlan.plannedFrom hplan
  obtain ⟨file, hfile, rfl⟩ := List.mem_map.1 hcandidate
  refine ⟨file, ?_, hfrom⟩
  have hidentity : plan.fileIdentity = file.fileIdentity := congrArg Prod.fst hfrom.origin
  rw [hidentity]
  exact lookup_indexBy hinput hfile

include hinput in
theorem FirstSteps.coherent (h : FirstSteps run out model parses) :
    Coherent run (firstState run.input out model (firstDecisions run.input out model) parses) := by
  set state := firstState run.input out model (firstDecisions run.input out model) parses
    with hstate
  have hnodup := nodup_of_perm hinput (stageA_perm run.input)
  have hids : (firstDecisions run.input out model).map AdmissionDecision.fileIdentity =
      (stageBPlans (stageA run.input) out.runtimeNotParsed).map ClassifiedPlan.fileIdentity :=
    map_fileIdentity_buildWithRemaining _ _ _ _ _ _
  have hdecisions : (state.admission.map AdmissionDecision.fileIdentity).Nodup := by
    rw [hstate, firstState, hids]
    exact hnodup.sublist (List.filter_sublist.map _)
  have hrecorded : ∀ plan ∈ stageA run.input,
      Recorded run plan (state.classificationView plan.fileIdentity) := by
    intro plan hplan
    obtain ⟨file, hfile, hfrom⟩ := stageA_plannedFrom hinput hplan
    exact .of_fate (h.classified.fate hplan) fun hexcluded =>
      ⟨file, hfile, (hfrom.excluded hexcluded).2⟩
  -- a plan that stage B does not decide keeps its action, and is not parsed
  have hundecided : ∀ plan ∈ stageA run.input,
      plan ∉ stageBPlans (stageA run.input) out.runtimeNotParsed →
      effectiveAction state.admission plan = plan.action ∧
        state.outputs.view plan.fileIdentity = .untouched := by
    intro plan hplan hnot
    have hid : plan.fileIdentity ∉ (firstDecisions run.input out model).map
        AdmissionDecision.fileIdentity := by
      rw [hids]
      intro hmem
      obtain ⟨other, hother, heq⟩ := List.mem_map.1 hmem
      have := List.inj_on_of_nodup_map hnodup (List.mem_of_mem_filter hother) hplan heq
      exact hnot (this ▸ hother)
    exact ⟨effectiveAction_of_notMem hid, h.parsed.untouched hid⟩
  refine
    { perm := stageA_perm run.input
      plans := fun plan hplan => stageA_plannedFrom hinput hplan
      decisions_nodup := hdecisions
      decisions := ?_
      recorded := hrecorded
      standing := ?_
      foreign := ?_ }
  · intro decision hdecision
    have := List.mem_map_of_mem (f := AdmissionDecision.origin) hdecision
    rw [hstate, firstState, firstDecisions, ContentAdmissionPlan.build,
      ContentAdmissionPlan.buildWithRemaining, admitAll_origin] at this
    obtain ⟨plan, hplan, horigin⟩ := List.mem_map.1 this
    exact ⟨plan, List.mem_of_mem_filter hplan, horigin⟩
  · intro plan (hplan : plan ∈ stageA run.input)
    obtain ⟨file, -, hfrom⟩ := stageA_plannedFrom hinput hplan
    by_cases hstageB : plan ∈ stageBPlans (stageA run.input) out.runtimeNotParsed
    · have hid : plan.fileIdentity ∈ (firstDecisions run.input out model).map
          AdmissionDecision.fileIdentity := hids ▸ List.mem_map_of_mem hstageB
      obtain ⟨decision, hdecision, hidentity⟩ := List.mem_map.1 hid
      obtain ⟨other, hother, horigin, hverdict⟩ := admitAll_verdict _ (fun plan hplan => by
        obtain ⟨_, -, hfrom⟩ := stageA_plannedFrom hinput (List.mem_of_mem_filter hplan)
        exact hfrom.routed) decision hdecision
      have : other = plan := List.inj_on_of_nodup_map hnodup (List.mem_of_mem_filter hother) hplan
        ((congrArg Prod.fst horigin).trans hidentity)
      subst this
      refine Standing.of_verdict hfrom hdecisions hdecision hidentity (hrecorded _ hplan) hverdict ?_
      have hfate := h.parsed.fate hdecision
      rw [hidentity] at hfate
      exact hfate
    · obtain ⟨haction, hview⟩ := hundecided plan hplan hstageB
      by_cases hruntime : plan.fileIdentity ∈ out.runtimeNotParsed
      · have hclassify := (hrecorded plan hplan).isClassify_of_stopped (decide_eq_true hruntime)
        exact .stopped (haction.trans (hfrom.classify hclassify)) hruntime hview hclassify
      · have hexcluded : plan.pdfClassification = .notClassifiedByBudget := by
          by_contra hexcluded
          exact hstageB (by simp [stageBPlans, hplan, hruntime, hexcluded])
        refine .waiting _ (haction.trans (hfrom.excluded hexcluded).1) hruntime hview fun hplan => ?_
        simp [ClassifiedPlan.isClassify, hexcluded] at hplan
  · intro identity hidentity
    refine ⟨h.classified.untouched hidentity, h.parsed.untouched fun hmem => hidentity ?_⟩
    change identity ∈ (firstDecisions run.input out model).map AdmissionDecision.fileIdentity at hmem
    rw [hids] at hmem
    exact List.map_subset _ (List.filter_subset_self _) hmem

include hinput hconcurrency in
/-- **The first pass leaves a coherent state.** -/
theorem firstPass_coherent : Ensures (firstPass run) fun first => Coherent run first.state :=
  (firstPass_spec hinput hconcurrency).mono fun first ⟨_, _, _, hsteps, hfirst⟩ => by
    rw [hfirst]
    exact hsteps.coherent hinput

end FirstPass

/-! ### Reclaiming -/

section Reclaim

variable {state : RefillState}

/-- What a reservation change leaves of a decision. -/
def reprice (price : AdmissionDecision → ℕ) (decision : AdmissionDecision) : AdmissionDecision :=
  { decision with reservedChars := price decision }

theorem reclaim_eq_ok {input : ScheduledRunInput} {ledger : RefillLedger}
    {result : RefillState × RefillLedger} (h : reclaim input state ledger = .ok result) :
    ∃ price : AdmissionDecision → ℕ, (∀ decision, price decision ≤ decision.reservedChars) ∧
      result.1 = { state with admission := state.admission.map (reprice price) } := by
  unfold reclaim reclaimChars at h
  obtain ⟨⟨refund, admission⟩, hreclaim, hresult⟩ := bind_eq_ok.1 h
  obtain ⟨rendered, -, hrest⟩ := bind_eq_ok.1 hreclaim
  obtain ⟨_, -, hpure⟩ := bind_eq_ok.1 hrest
  obtain ⟨-, rfl⟩ := by simpa [pure, Except.pure] using hpure
  refine ⟨retainedChars state.classifications state.runtime state.outputs
    rendered.renderedByIdentity, fun decision => ?_, ?_⟩
  · unfold retainedChars
    split_ifs
    · split <;> omega
    · exact le_rfl
  · simp only [pure, Except.pure, Except.ok.injEq] at hresult
    rw [← hresult]
    rfl

/-- **Other reservations keep a run coherent.** -/
theorem Coherent.reprice (h : Coherent run state) (price : AdmissionDecision → ℕ) :
    Coherent run { state with admission := state.admission.map (reprice price) } where
  perm := h.perm
  plans := h.plans
  decisions_nodup := by
    rw [List.map_map]
    exact h.decisions_nodup
  decisions decision hdecision := by
    obtain ⟨old, hold, rfl⟩ := List.mem_map.1 hdecision
    exact h.decisions old hold
  recorded := h.recorded
  standing plan hplan := by
    refine (h.standing plan hplan).congr rfl rfl ?_ fun decision hdecision _ =>
      ⟨_, List.mem_map_of_mem hdecision, rfl, rfl⟩
    rw [effectiveAction, effectiveAction, List.find?_map, Option.map_map]
    rfl
  foreign := h.foreign

end Reclaim

end DailyReport
