import DailyReport.Lib.Hoare
import DailyReport.Scheduler.Coherence

/-!
# A refill keeps a run coherent

A round plans files that a quota kept out (`Planned`): those nothing was started for, and those with
a classification to build on.  Their wave replaces what was known about them and leaves the other
files alone, so the state after it is coherent again.

* `refillPass_coherent` : **the refill keeps a run coherent**, whatever the ports answer.
-/

namespace DailyReport

open Lib

variable {σ : Type} {run : RunContext σ} {state : RefillState}

/-! ### Pending plans -/

theorem isPending_action (hnodup : (state.admission.map AdmissionDecision.fileIdentity).Nodup)
    {plan : ClassifiedPlan} (h : isPending state plan = true) :
    budgetPending (effectiveAction state.admission plan) = true := by
  have hlookup : (indexBy AdmissionDecision.fileIdentity state.admission).lookup plan.fileIdentity =
      state.admission.find? fun decision => decide (decision.fileIdentity = plan.fileIdentity) := by
    by_cases hmem : plan.fileIdentity ∈ state.admission.map AdmissionDecision.fileIdentity
    · obtain ⟨decision, hdecision, hidentity⟩ := List.mem_map.1 hmem
      rw [← hidentity, lookup_indexBy hnodup hdecision, find?_key hnodup hdecision]
    · rw [lookup_indexBy_eq_none.2 hmem, find?_key_eq_none hmem]
  rw [effectiveAction, ← hlookup]
  exact (Bool.and_eq_true_iff.1 h).2

theorem isUnstarted_of_isReusable {plan : ClassifiedPlan} (h : isReusable state plan = true) :
    isUnstarted state plan = false := by
  rw [isReusable, Bool.and_eq_true] at h
  rw [isUnstarted, h.1, Bool.true_and]
  cases hs : classificationStatus state.classifications plan.fileIdentity with
  | none => rw [hs] at h; cases h.2
  | some status =>
    rw [hs] at h
    cases status <;> first | rfl | cases h.2

/-- The candidates of a round are unstarted plans of the run. -/
theorem mem_unstartedCandidates {candidate : PlanCandidate}
    (h : candidate ∈ unstartedCandidates run.input state) :
    ∃ old ∈ state.classified, isUnstarted state old = true ∧ ∃ file,
      run.input.snapshot.lookup old.fileIdentity = some file ∧ candidate = planCandidate file := by
  obtain ⟨old, hold, hcandidate⟩ := List.mem_filterMap.1 h
  obtain ⟨file, hfile, rfl⟩ := Option.map_eq_some_iff.1 hcandidate
  exact ⟨old, List.mem_of_mem_filter hold, (List.mem_filter.1 hold).2, file, hfile, rfl⟩

/-- The identities of the candidates are a part of those of the plans. -/
theorem unstartedCandidates_sublist (input : ScheduledRunInput) (state : RefillState) :
    ((unstartedCandidates input state).map PlanCandidate.fileIdentity).Sublist
      ((state.classified.filter (isUnstarted state)).map ClassifiedPlan.fileIdentity) := by
  unfold unstartedCandidates
  induction state.classified.filter (isUnstarted state) with
  | nil => exact .slnil
  | cons plan plans ih =>
    rw [List.filterMap_cons, List.map_cons]
    cases hfile : input.snapshot.lookup plan.fileIdentity with
    | none => exact ih.cons _
    | some file =>
      have hidentity := ScheduledRunInput.fileIdentity_of_lookup hfile
      simp only [Option.map_some, List.map_cons]
      rw [show (planCandidate file).fileIdentity = plan.fileIdentity from hidentity]
      exact ih.cons_cons _

variable [UnicodeCase]

/-- A pending plan waits: nothing was parsed for it, and the deadline did not stop it. -/
theorem Coherent.pending (h : Coherent run state) {plan : ClassifiedPlan}
    (hplan : plan ∈ state.classified) (hpending : isPending state plan = true) :
    state.outputs.view plan.fileIdentity = .untouched ∧ plan.fileIdentity ∉ state.runtime ∧
      (plan.isClassify = true →
        (state.classificationView plan.fileIdentity).hasText = true) := by
  have haction := isPending_action h.decisions_nodup hpending
  cases h.standing plan hplan with
  | waiting reason _ hruntime hview htext => exact ⟨hview, hruntime, htext⟩
  | rejected reason hact => rw [hact] at haction; cases haction
  | failed status hact => rw [hact] at haction; cases haction
  | stopped hact => rw [hact] at haction; cases haction
  | admitted decision route _ _ _ hact => rw [hact] at haction; cases haction

/-- Nothing was ever started for an unstarted plan. -/
theorem Coherent.unstarted (h : Coherent run state) {plan : ClassifiedPlan}
    (hplan : plan ∈ state.classified) (hunstarted : isUnstarted state plan = true) :
    IsPrior run plan.fileIdentity (state.classificationView plan.fileIdentity) := by
  obtain ⟨hpending, hstatus⟩ := Bool.and_eq_true_iff.1 hunstarted
  obtain ⟨-, -, htext⟩ := h.pending hplan hpending
  have hclassify : plan.isClassify = false := by
    -- a pending plan that was asked for has a text result
    by_contra hclassify
    rw [Bool.not_eq_false] at hclassify
    have htext := htext hclassify
    change (classificationStatus state.classifications plan.fileIdentity).any _ = true at htext
    cases hs : classificationStatus state.classifications plan.fileIdentity with
    | none => rw [hs] at htext; cases htext
    | some status =>
      rw [hs] at htext hstatus
      simp only [Option.any_some, Option.all_some, decide_eq_true_iff] at htext hstatus
      rw [hstatus] at htext
      cases htext
  exact (h.recorded plan hplan).prior hclassify

/-! ### Planned rounds -/

/-- The plans of a round belong to pending plans of the run. -/
structure Planned (run : RunContext σ) (state : RefillState) (plan : RefillPlan) : Prop where
  frozen : ∀ p ∈ plan.frozen, (∃ old ∈ state.classified, old.fileIdentity = p.fileIdentity ∧
      isUnstarted state old = true) ∧
    ∃ file, run.input.snapshot.lookup p.fileIdentity = some file ∧
      PlannedFrom run.input.profile (planCandidate file) p
  reusable : ∀ p ∈ plan.reusable, p ∈ state.classified ∧ isReusable state p = true
  nodup : ((plan.frozen ++ plan.reusable).map ClassifiedPlan.fileIdentity).Nodup

theorem planRefill_planned (hinput : run.input.Distinct) (h : Coherent run state)
    (used : Consumed) : Planned run state (planRefill run.input state used) := by
  have hclassified := nodup_of_perm hinput h.perm
  have hfrozen : (((planRefill run.input state used).frozen).map ClassifiedPlan.fileIdentity).Perm
      ((unstartedCandidates run.input state).map PlanCandidate.fileIdentity) :=
    map_fileIdentity_of_perm (ClassificationPlan.perm_candidates _ _ _ _ _)
  have hsublist := unstartedCandidates_sublist run.input state
  refine ⟨fun p hp => ?_, fun p hp => ?_, ?_⟩
  · obtain ⟨candidate, hcandidate, hfrom⟩ := ClassificationPlan.plannedFrom hp
    obtain ⟨old, hold, hunstarted, file, hfile, rfl⟩ := mem_unstartedCandidates hcandidate
    have hidentity : p.fileIdentity = old.fileIdentity :=
      (congrArg Prod.fst hfrom.origin).trans (ScheduledRunInput.fileIdentity_of_lookup hfile)
    exact ⟨⟨old, hold, hidentity.symm, hunstarted⟩, file, by rw [hidentity, hfile], hfrom⟩
  · have := List.mem_of_mem_filter hp
    exact ⟨List.mem_of_mem_filter this, (List.mem_filter.1 this).2⟩
  · rw [List.map_append, List.nodup_append]
    refine ⟨?_, ?_, ?_⟩
    · exact hfrozen.nodup_iff.2
        ((hclassified.sublist (List.filter_sublist.map _)).sublist hsublist)
    · exact hclassified.sublist
        ((List.filter_sublist.trans List.filter_sublist).map ClassifiedPlan.fileIdentity)
    · -- a plan is not both unstarted and reusable
      rintro k hk j hj rfl
      obtain ⟨old, hold, rfl⟩ := List.mem_map.1 (hsublist.subset (hfrozen.subset hk))
      obtain ⟨p, hp, hid⟩ := List.mem_map.1 hj
      have hreusable := List.mem_of_mem_filter hp
      have : p = old := List.inj_on_of_nodup_map hclassified (List.mem_of_mem_filter hreusable)
        (List.mem_of_mem_filter hold) hid
      subst this
      have := (List.mem_filter.1 hold).2
      rw [isUnstarted_of_isReusable (List.mem_filter.1 hreusable).2] at this
      cases this

/-! ### The state after a wave -/

section Wave

variable {plan : RefillPlan} {used : Consumed} {out : ClassificationOutputs}
  {model : ContextBudgetModel} {parses : ParsePhase}

/-- The state after the wave of a round. -/
def afterWave (input : ScheduledRunInput) (plan : RefillPlan) (used : Consumed)
    (state : RefillState) (out : ClassificationOutputs) (model : ContextBudgetModel)
    (parses : ParsePhase) : RefillState :=
  (waveState state out model).addWave plan.plans
    (waveDecisions input plan used (waveState state out model)) parses

theorem classificationView_afterWave (identity : Text) :
    (afterWave run.input plan used state out model parses).classificationView identity =
      (out.view identity).overlay (state.classificationView identity) := by
  refine ClassificationView.mk.injEq .. |>.mpr ⟨lookup_union _ _, lookup_union _ _, ?_⟩
  change decide (identity ∈ state.runtime ∪ out.runtimeNotParsed) =
    (decide (identity ∈ out.runtimeNotParsed) || decide (identity ∈ state.runtime))
  simp [Finset.mem_union, Bool.or_comm]

theorem view_afterWave (identity : Text) :
    (afterWave run.input plan used state out model parses).outputs.view identity =
      (parses.outputs.view identity).overlay (state.outputs.view identity) := by
  refine ParseView.mk.injEq .. |>.mpr
    ⟨lookup_union _ _, lookup_union _ _, lookup_union _ _, lookup_union _ _, ?_⟩
  change decide (identity ∈ state.outputs.runtimeNotParsed ∪ parses.outputs.runtimeNotParsed) =
    (decide (identity ∈ parses.outputs.runtimeNotParsed) ||
      decide (identity ∈ state.outputs.runtimeNotParsed))
  simp [Finset.mem_union, Bool.or_comm]

theorem map_fileIdentity_waveDecisions (state : RefillState) :
    (waveDecisions run.input plan used state).map AdmissionDecision.fileIdentity =
      plan.plans.map ClassifiedPlan.fileIdentity :=
  map_fileIdentity_buildWithRemaining _ _ _ _ _ _

/-- The identities of the plans that a wave decides. -/
theorem mem_map_plans {identity : Text} : identity ∈ plan.plans.map ClassifiedPlan.fileIdentity ↔
    identity ∈ (plan.frozen ++ plan.reusable).map ClassifiedPlan.fileIdentity :=
  ((sortByKey_perm _ _).map _).mem_iff

variable (hinput : run.input.Distinct) (hplanned : Planned run state plan)
  (hclassified : (state.classified.map ClassifiedPlan.fileIdentity).Nodup)

include hplanned in
theorem Planned.plans_nodup : (plan.plans.map ClassifiedPlan.fileIdentity).Nodup :=
  ((sortByKey_perm _ _).map _).nodup_iff.2 hplanned.nodup

include hplanned in
/-- A wave decides plans of the run. -/
theorem Planned.plans_subset :
    plan.plans.map ClassifiedPlan.fileIdentity ⊆ state.classified.map ClassifiedPlan.fileIdentity := by
  intro identity hidentity
  obtain ⟨p, hp, rfl⟩ := List.mem_map.1 (mem_map_plans.1 hidentity)
  rcases List.mem_append.1 hp with hp | hp
  · obtain ⟨⟨old, hold, heq, -⟩, -⟩ := hplanned.frozen p hp
    exact heq ▸ List.mem_map_of_mem hold
  · exact List.mem_map_of_mem (hplanned.reusable p hp).1

include hplanned hclassified in
theorem mem_classified_afterWave {p : ClassifiedPlan} :
    p ∈ (afterWave run.input plan used state out model parses).classified ↔
      p ∈ plan.plans ∨
        p ∈ state.classified ∧ p.fileIdentity ∉ plan.plans.map ClassifiedPlan.fileIdentity :=
  mem_replaceOnce hplanned.plans_nodup hclassified hplanned.plans_subset

include hclassified in
theorem map_fileIdentity_afterWave :
    (afterWave run.input plan used state out model parses).classified.map
      ClassifiedPlan.fileIdentity = state.classified.map ClassifiedPlan.fileIdentity :=
  map_key_replaceOnce hclassified

include hplanned in
theorem mem_admission_afterWave
    (hadmission : (state.admission.map AdmissionDecision.fileIdentity).Nodup)
    {decision : AdmissionDecision} :
    decision ∈ (afterWave run.input plan used state out model parses).admission ↔
      decision ∈ waveDecisions run.input plan used (waveState state out model) ∨
        decision ∈ state.admission ∧
          decision.fileIdentity ∉ plan.plans.map ClassifiedPlan.fileIdentity := by
  have hnodup : ((waveDecisions run.input plan used (waveState state out model)).map
      AdmissionDecision.fileIdentity).Nodup := by
    rw [map_fileIdentity_waveDecisions]
    exact hplanned.plans_nodup
  refine mem_sortByKey.trans ((mem_mergeOnce hnodup hadmission).trans ?_)
  rw [map_fileIdentity_waveDecisions]

theorem nodup_admission_afterWave
    (hadmission : (state.admission.map AdmissionDecision.fileIdentity).Nodup) :
    ((afterWave run.input plan used state out model parses).admission.map
      AdmissionDecision.fileIdentity).Nodup :=
  ((sortByKey_perm _ _).map _).nodup_iff.2 (nodup_mergeOnce hadmission)

include hplanned in
theorem Planned.plannedFrom (h : Coherent run state) {p : ClassifiedPlan} (hp : p ∈ plan.plans) :
    ∃ file, run.input.snapshot.lookup p.fileIdentity = some file ∧
      PlannedFrom run.input.profile (planCandidate file) p := by
  rcases List.mem_append.1 (mem_sortByKey.1 hp) with hp | hp
  · exact (hplanned.frozen p hp).2
  · exact h.plans p (hplanned.reusable p hp).1

include hplanned in
/-- Nothing was parsed for the plans of a round, and none of them was stopped. -/
theorem Planned.unstarted (h : Coherent run state) {p : ClassifiedPlan} (hp : p ∈ plan.plans) :
    state.outputs.view p.fileIdentity = .untouched ∧ p.fileIdentity ∉ state.runtime := by
  rcases List.mem_append.1 (mem_sortByKey.1 hp) with hp | hp
  · obtain ⟨⟨old, hold, hidentity, hunstarted⟩, -⟩ := hplanned.frozen p hp
    obtain ⟨hview, hruntime, -⟩ := h.pending hold (Bool.and_eq_true_iff.1 hunstarted).1
    rw [← hidentity]
    exact ⟨hview, hruntime⟩
  · obtain ⟨hmem, hreusable⟩ := hplanned.reusable p hp
    obtain ⟨hview, hruntime, -⟩ := h.pending hmem (Bool.and_eq_true_iff.1 hreusable).1
    exact ⟨hview, hruntime⟩

/-- The classifications of a wave say nothing about other files. -/
theorem WaveSteps.classified_untouched (hsteps : WaveSteps run plan used state out model parses)
    {identity : Text} (h : identity ∉ plan.frozen.map ClassifiedPlan.fileIdentity) :
    out.view identity = .untouched :=
  hsteps.classified.untouched fun hmem =>
    h (List.map_subset _ (List.filter_subset_self _) hmem)

include hplanned in
/-- What is known about the classification of a frozen plan after its wave. -/
theorem WaveSteps.recorded_frozen (hsteps : WaveSteps run plan used state out model parses)
    (h : Coherent run state) {p : ClassifiedPlan} (hp : p ∈ plan.frozen) :
    Recorded run p ((out.view p.fileIdentity).overlay (state.classificationView p.fileIdentity)) := by
  obtain ⟨⟨old, hold, hidentity, hunstarted⟩, -⟩ := hplanned.frozen p hp
  have hprior := h.unstarted hold hunstarted
  rw [hidentity] at hprior
  cases hclassify : p.isClassify with
  | true =>
    exact .asked hclassify hprior
      (hsteps.classified.fate (List.mem_filter.2 ⟨hp, hclassify⟩))
  | false =>
    have hnodup : (plan.frozen.map ClassifiedPlan.fileIdentity).Nodup := by
      have := hplanned.nodup
      rw [List.map_append] at this
      exact (List.nodup_append.1 this).1
    have huntouched : out.view p.fileIdentity = .untouched := by
      refine hsteps.classified.untouched fun hmem => ?_
      obtain ⟨other, hother, heq⟩ := List.mem_map.1 hmem
      have := List.inj_on_of_nodup_map hnodup (List.mem_of_mem_filter hother) hp heq
      subst this
      rw [(List.mem_filter.1 hother).2] at hclassify
      cases hclassify
    rw [huntouched, ClassificationView.untouched_overlay]
    exact .unasked hclassify hprior

include hplanned in
/-- What is known about the classification of a reusable plan stays as it was. -/
theorem WaveSteps.recorded_reusable (hsteps : WaveSteps run plan used state out model parses)
    (h : Coherent run state) {p : ClassifiedPlan} (hp : p ∈ plan.reusable) :
    Recorded run p ((out.view p.fileIdentity).overlay (state.classificationView p.fileIdentity)) := by
  have hnot : p.fileIdentity ∉ plan.frozen.map ClassifiedPlan.fileIdentity := by
    have := hplanned.nodup
    rw [List.map_append, List.nodup_append] at this
    exact fun hmem => this.2.2 _ hmem _ (List.mem_map_of_mem hp) rfl
  rw [hsteps.classified_untouched hnot, ClassificationView.untouched_overlay]
  exact h.recorded p (hplanned.reusable p hp).1

include hinput hplanned in
theorem recorded_afterWave (hsteps : WaveSteps run plan used state out model parses)
    (h : Coherent run state) {p : ClassifiedPlan}
    (hp : p ∈ (afterWave run.input plan used state out model parses).classified) :
    Recorded run p ((afterWave run.input plan used state out model parses).classificationView
      p.fileIdentity) := by
  rw [classificationView_afterWave]
  rcases (mem_classified_afterWave hplanned (nodup_of_perm hinput h.perm)).1 hp with hp | ⟨hp, hnot⟩
  · rcases List.mem_append.1 (mem_sortByKey.1 hp) with hp | hp
    · exact hsteps.recorded_frozen hplanned h hp
    · exact hsteps.recorded_reusable hplanned h hp
  · have : p.fileIdentity ∉ plan.frozen.map ClassifiedPlan.fileIdentity := fun hmem => hnot
      (mem_map_plans.2 (by rw [List.map_append]; exact List.mem_append_left _ hmem))
    rw [hsteps.classified_untouched this, ClassificationView.untouched_overlay]
    exact h.recorded p hp

include hinput hplanned in
/-- A wave keeps the origins of the plans. -/
theorem map_origin_afterWave (h : Coherent run state) :
    (afterWave run.input plan used state out model parses).classified.map ClassifiedPlan.origin =
      state.classified.map ClassifiedPlan.origin := by
  change (replaceOnce ClassifiedPlan.fileIdentity
    (indexBy ClassifiedPlan.fileIdentity plan.plans) state.classified).1.map _ = _
  rw [replaceOnce_fst _ (nodup_of_perm hinput h.perm), List.map_map]
  refine List.map_congr_left fun old hold => ?_
  cases hlook : (indexBy ClassifiedPlan.fileIdentity plan.plans).lookup old.fileIdentity with
  | none => simp [hlook]
  | some p =>
    obtain ⟨hp, hidentity⟩ := mem_of_lookup_indexBy hlook
    obtain ⟨file, hfile, hfrom⟩ := hplanned.plannedFrom h hp
    obtain ⟨file', hfile', hfrom'⟩ := h.plans old hold
    rw [hidentity, hfile'] at hfile
    cases hfile
    simp only [Function.comp_apply, hlook, Option.getD_some]
    exact hfrom.origin.trans hfrom'.origin.symm

include hplanned in
/-- The verdict of a wave on one of its plans. -/
theorem exists_verdict_afterWave (h : Coherent run state) {p : ClassifiedPlan}
    (hp : p ∈ plan.plans) :
    ∃ decision ∈ waveDecisions run.input plan used (waveState state out model),
      decision.fileIdentity = p.fileIdentity ∧
        Verdict p ((afterWave run.input plan used state out model parses).classificationView
          p.fileIdentity).status decision.action := by
  have hid : p.fileIdentity ∈ (waveDecisions run.input plan used (waveState state out model)).map
      AdmissionDecision.fileIdentity := by
    rw [map_fileIdentity_waveDecisions]
    exact List.mem_map_of_mem hp
  obtain ⟨decision, hdecision, hidentity⟩ := List.mem_map.1 hid
  obtain ⟨other, hother, horigin, hverdict⟩ := admitAll_verdict _ (fun q hq => by
    obtain ⟨_, -, hfrom⟩ := hplanned.plannedFrom h hq
    exact hfrom.routed) decision hdecision
  have : other = p := List.inj_on_of_nodup_map hplanned.plans_nodup hother hp
    ((congrArg Prod.fst horigin).trans hidentity)
  subst this
  exact ⟨decision, hdecision, hidentity, hverdict⟩

include hplanned in
/-- A wave leaves the action of other plans. -/
theorem effectiveAction_afterWave_other (h : Coherent run state) {p : ClassifiedPlan}
    (hnot : p.fileIdentity ∉ plan.plans.map ClassifiedPlan.fileIdentity) :
    effectiveAction (afterWave run.input plan used state out model parses).admission p =
      effectiveAction state.admission p := by
  have hundecided : p.fileIdentity ∉ (waveDecisions run.input plan used
      (waveState state out model)).map AdmissionDecision.fileIdentity := by
    rwa [map_fileIdentity_waveDecisions]
  by_cases hdecided : p.fileIdentity ∈ state.admission.map AdmissionDecision.fileIdentity
  · obtain ⟨decision, hdecision, hidentity⟩ := List.mem_map.1 hdecided
    rw [effectiveAction_of_mem h.decisions_nodup hdecision hidentity,
      effectiveAction_of_mem (nodup_admission_afterWave h.decisions_nodup)
        ((mem_admission_afterWave hplanned h.decisions_nodup).2
          (.inr ⟨hdecision, by rwa [hidentity]⟩)) hidentity]
  · rw [effectiveAction_of_notMem hdecided, effectiveAction_of_notMem fun hmem => ?_]
    obtain ⟨decision, hdecision, hidentity⟩ := List.mem_map.1 hmem
    rcases (mem_admission_afterWave hplanned h.decisions_nodup).1 hdecision with hnew | ⟨hold, -⟩
    · exact hundecided (hidentity ▸ List.mem_map_of_mem hnew)
    · exact hdecided (hidentity ▸ List.mem_map_of_mem hold)

/-- A wave classifies frozen plans only. -/
theorem WaveSteps.classificationView_other
    (hsteps : WaveSteps run plan used state out model parses) {identity : Text}
    (hnot : identity ∉ plan.plans.map ClassifiedPlan.fileIdentity) :
    (afterWave run.input plan used state out model parses).classificationView identity =
      state.classificationView identity := by
  have hfrozen : identity ∉ plan.frozen.map ClassifiedPlan.fileIdentity := fun hmem => hnot
    (mem_map_plans.2 (by rw [List.map_append]; exact List.mem_append_left _ hmem))
  rw [classificationView_afterWave, hsteps.classified_untouched hfrozen,
    ClassificationView.untouched_overlay]

/-- A wave parses its own plans only. -/
theorem WaveSteps.view_other (hsteps : WaveSteps run plan used state out model parses)
    {identity : Text} (hnot : identity ∉ plan.plans.map ClassifiedPlan.fileIdentity) :
    (afterWave run.input plan used state out model parses).outputs.view identity =
      state.outputs.view identity := by
  have hundecided : identity ∉ (waveDecisions run.input plan used
      (waveState state out model)).map AdmissionDecision.fileIdentity := by
    rwa [map_fileIdentity_waveDecisions]
  have huntouched : parses.outputs.view identity = .untouched := hsteps.parsed.untouched hundecided
  rw [view_afterWave, huntouched, ParseView.untouched_overlay]

include hinput hplanned in
theorem standing_afterWave_planned (hsteps : WaveSteps run plan used state out model parses)
    (h : Coherent run state) {p : ClassifiedPlan} (hp : p ∈ plan.plans) :
    Standing run (afterWave run.input plan used state out model parses) p := by
  obtain ⟨decision, hdecision, hidentity, hverdict⟩ :
      ∃ decision ∈ waveDecisions run.input plan used (waveState state out model),
        decision.fileIdentity = p.fileIdentity ∧
          Verdict p ((afterWave run.input plan used state out model parses).classificationView
            p.fileIdentity).status decision.action :=
    exists_verdict_afterWave hplanned h hp
  obtain ⟨file, -, hfrom⟩ := hplanned.plannedFrom h hp
  have hmem : p ∈ (afterWave run.input plan used state out model parses).classified :=
    (mem_classified_afterWave hplanned (nodup_of_perm hinput h.perm)).2 (.inl hp)
  refine Standing.of_verdict hfrom (nodup_admission_afterWave h.decisions_nodup)
    ((mem_admission_afterWave hplanned h.decisions_nodup).2 (.inl hdecision)) hidentity
    (recorded_afterWave hinput hplanned hsteps h hmem) hverdict ?_
  have hfate := hsteps.parsed.fate hdecision
  rw [view_afterWave, (hplanned.unstarted h hp).1, ParseView.overlay_untouched]
  rw [hidentity] at hfate
  exact hfate

include hplanned in
theorem standing_afterWave_other (hsteps : WaveSteps run plan used state out model parses)
    (h : Coherent run state) {p : ClassifiedPlan} (hp : p ∈ state.classified)
    (hnot : p.fileIdentity ∉ plan.plans.map ClassifiedPlan.fileIdentity) :
    Standing run (afterWave run.input plan used state out model parses) p := by
  refine (h.standing p hp).congr (hsteps.classificationView_other hnot) (hsteps.view_other hnot)
    (effectiveAction_afterWave_other hplanned h hnot) fun decision hdecision hidentity =>
      ⟨decision, (mem_admission_afterWave hplanned h.decisions_nodup).2
        (.inr ⟨hdecision, by rwa [hidentity]⟩), rfl, rfl⟩

include hinput hplanned in
/-- **A wave keeps a run coherent.** -/
theorem WaveSteps.coherent (hsteps : WaveSteps run plan used state out model parses)
    (h : Coherent run state) :
    Coherent run (afterWave run.input plan used state out model parses) := by
  have hclassified := nodup_of_perm hinput h.perm
  have hmem : ∀ p, p ∈ (afterWave run.input plan used state out model parses).classified ↔
      p ∈ plan.plans ∨ p ∈ state.classified ∧
        p.fileIdentity ∉ plan.plans.map ClassifiedPlan.fileIdentity :=
    fun p => mem_classified_afterWave hplanned hclassified
  refine
    { perm := by rw [map_origin_afterWave hinput hplanned h]; exact h.perm
      plans := fun p hp => ?_
      decisions_nodup := nodup_admission_afterWave h.decisions_nodup
      decisions := fun decision hdecision => ?_
      recorded := fun p hp => recorded_afterWave hinput hplanned hsteps h hp
      standing := fun p hp => ?_
      foreign := fun identity hidentity => ?_ }
  · rcases (hmem p).1 hp with hp | ⟨hp, -⟩
    · exact hplanned.plannedFrom h hp
    · exact h.plans p hp
  · rcases (mem_admission_afterWave hplanned h.decisions_nodup).1 hdecision with hnew | ⟨hold, hnot⟩
    · have := List.mem_map_of_mem (f := AdmissionDecision.origin) hnew
      rw [waveDecisions, ContentAdmissionPlan.buildWithRemaining, admitAll_origin] at this
      obtain ⟨p, hp, horigin⟩ := List.mem_map.1 this
      exact ⟨p, (hmem p).2 (.inl hp), horigin⟩
    · obtain ⟨p, hp, horigin⟩ := h.decisions decision hold
      have hidentity : p.fileIdentity = decision.fileIdentity := congrArg Prod.fst horigin
      exact ⟨p, (hmem p).2 (.inr ⟨hp, by rwa [hidentity]⟩), horigin⟩
  · rcases (hmem p).1 hp with hp | ⟨hp, hnot⟩
    · exact standing_afterWave_planned hinput hplanned hsteps h hp
    · exact standing_afterWave_other hplanned hsteps h hp hnot
  · rw [map_fileIdentity_afterWave hclassified] at hidentity
    have hnot : identity ∉ plan.plans.map ClassifiedPlan.fileIdentity := fun hmem =>
      hidentity (hplanned.plans_subset hmem)
    rw [hsteps.classificationView_other hnot, hsteps.view_other hnot]
    exact h.foreign identity hidentity

end Wave

/-! ### Rounds -/

/-- **The rule for a refill**: what a look at the clock, reclaiming and the waves of planned rounds
keep, a refill keeps. -/
theorem runRefills_hoare {I : RefillState → σ → Prop}
    (hnow : ∀ state, Hoare (ε := SchedulerFailure) (I state) (Exec.ask run.ports.nowMs)
      fun _ => I state)
    (hreclaim : ∀ {state : RefillState} {s : σ} (price : AdmissionDecision → ℕ), I state s →
      (∀ decision, price decision ≤ decision.reservedChars) →
      I { state with admission := state.admission.map (reprice price) } s)
    (hwave : ∀ {state : RefillState} (used : Consumed), state.consumed = .ok used →
      Hoare (I state) (refillWave run (planRefill run.input state used) used state) I) :
    Hoare (I state) (runRefills run state) fun result => I result.1 := by
  have hkept : ∀ (state : RefillState) (ledger : RefillLedger), Hoare (ε := SchedulerFailure) (I state)
      (Exec.ofExcept (reclaim run.input state ledger)) fun result => I result.1 := by
    intro state ledger
    refine Hoare.ofExcept fun result s hresult h => ?_
    obtain ⟨price, hprice, heq⟩ := reclaim_eq_ok hresult
    rw [heq]
    exact hreclaim price h hprice
  have hround : ∀ (round : ℕ) (state : RefillState) (ledger : RefillLedger),
      Hoare (I state) (refillRound run round state ledger) fun outcome => I outcome.state := by
    intro round state ledger
    unfold refillRound
    refine (hnow state).bind fun now => Hoare.ite (fun _ => Hoare.pure fun _ h => h) fun _ => ?_
    refine (hkept state ledger).bind fun result => ?_
    refine (Hoare.ofExcept fun used s hused h => And.intro h hused).bind fun used => ?_
    refine Hoare.of_fact fun hused => Hoare.ite (fun _ => Hoare.pure fun _ h => h) fun _ => ?_
    unfold runRound
    refine (hwave used hused).bind fun after => (hkept after _).bind fun result => ?_
    refine (Hoare.ofExcept fun used s _ h => h).bind fun used => ?_
    exact Hoare.ite (fun _ => Hoare.pure fun _ h => h) fun _ => Hoare.pure fun _ h => h
  have hrounds : ∀ (rounds : List ℕ) (state : RefillState) (ledger : RefillLedger),
      Hoare (I state) (refillRounds run rounds state ledger) fun result => I result.1 := by
    intro rounds
    induction rounds with
    | nil => exact fun state ledger => Hoare.pure fun _ h => h
    | cons round rest ih =>
      intro state ledger
      unfold refillRounds
      exact (hround round state ledger).bind fun outcome =>
        Hoare.ite (fun _ => Hoare.pure fun _ h => h) fun _ => ih _ _
  unfold runRefills
  refine (hrounds [1, 2] state _).bind fun result => ?_
  refine (Hoare.ofExcept fun used s _ h => h).bind fun used => ?_
  exact (Hoare.ofExcept fun _ s _ h => h).bind fun _ => Hoare.pure fun _ h => h

/-- The rule for what no world has a part in. -/
theorem runRefills_invariant {I : RefillState → Prop}
    (hreclaim : ∀ {state : RefillState} (price : AdmissionDecision → ℕ), I state →
      (∀ decision, price decision ≤ decision.reservedChars) →
      I { state with admission := state.admission.map (reprice price) })
    (hwave : ∀ {state : RefillState} (used : Consumed), I state → state.consumed = .ok used →
      Ensures (refillWave run (planRefill run.input state used) used state) I)
    (h : I state) : Ensures (runRefills run state) fun result => I result.1 := by
  have hrun : Hoare (fun _ => I state) (runRefills run state) fun result _ => I result.1 :=
    runRefills_hoare (I := fun state _ => I state) (fun state => Hoare.ask fun _ h => h)
      (fun price h hprice => hreclaim price h hprice)
      fun used hused s a s' h hrun => hwave used h hused hrun
  exact fun s a s' hresult => hrun h hresult

variable (hinput : run.input.Distinct) (hconcurrency : 0 < run.concurrency)

include hinput hconcurrency in
/-- **The refill keeps a run coherent.** -/
theorem refillPass_coherent (h : Coherent run state) :
    Ensures (refillPass run state) fun result => Coherent run result.1 := by
  unfold refillPass
  refine Ensures.ite (fun _ => ?_) fun _ => Ensures.pure h
  refine (runRefills_invariant (fun price h _ => h.reprice price) (fun used h _ => ?_) h).bind
    fun result h => Ensures.pure h
  have hplanned := planRefill_planned hinput h used
  refine (refillWave_spec hconcurrency hplanned.nodup).mono ?_
  rintro after ⟨out, model, parses, hsteps, rfl⟩
  exact hsteps.coherent hinput hplanned h

end DailyReport
