import DailyReport.Scheduler.Standing

/-!
# What stage B decides about a plan

Stage B keeps the action of a plan that stage A does not admit.  An admitted plan is admitted
again, waits for a quota, or fails with its classification (`Verdict`).  With the fate of its parse,
the verdict on a plan is its standing (`Standing.of_verdict`).
-/

namespace DailyReport

open Lib

/-- The status came to a text or no-text result. -/
def isTextStatus (status : Option PdfClassificationStatus) : Bool :=
  status.any PdfClassificationStatus.isTextPresence

/-- What stage B may decide about a plan, by the status of its classification. -/
inductive Verdict (plan : ClassifiedPlan) (status : Option PdfClassificationStatus) :
    PlanAction → Prop
  | kept (h : plan.action.isAdmit = false) : Verdict plan status plan.action
  | postponed (reason : NotParsedReason) (h : plan.action.isAdmit = true)
      (htext : plan.isClassify = true → isTextStatus status = true) :
      Verdict plan status (.notParsed reason)
  | failed {failure : PdfClassificationStatus} (hplan : plan.isClassify = true)
      (h : admitFailure status = some failure) : Verdict plan status (.classifierFailed failure)
  | admitted {route : RouteKind} (h : plan.action = .admitRoute route)
      (htext : plan.isClassify = true → isTextStatus status = true) :
      Verdict plan status (.admitRoute route)

/-- The verdict on a plan without a result fails it. -/
theorem Verdict.not_admit {plan : ClassifiedPlan} {status : Option PdfClassificationStatus}
    {action : PlanAction} (h : Verdict plan status action) (hadmitted : plan.action.isAdmit = true)
    (hplan : plan.isClassify = true)
    (hstatus : status = none ∨ status = some .notClassifiedByBudget) : action.isAdmit = false := by
  have htext : isTextStatus status = false := by rcases hstatus with rfl | rfl <;> rfl
  cases h with
  | kept h => rw [hadmitted] at h; cases h
  | postponed reason _ h => rw [h hplan] at htext; cases htext
  | failed => rfl
  | admitted _ h => rw [h hplan] at htext; cases htext

variable {profile : NormalizedScannerSettings} {model : ContextBudgetModel}
  {classifications : Classifications} {plan : ClassifiedPlan}

theorem admitPlain_verdict {delta : ℕ} {ledger : AdmissionLedger} {route : RouteKind}
    {status : Option PdfClassificationStatus} (hplan : plan.action = .admitRoute route)
    (htext : plan.isClassify = true → isTextStatus status = true) :
    Verdict plan status (admitPlain model delta ledger route).1 := by
  unfold admitPlain
  split_ifs
  · exact .admitted hplan htext
  · exact .postponed _ (by rw [hplan]; rfl) htext

theorem admitPdf_verdict {delta : ℕ} {ledger : AdmissionLedger} {route : RouteKind}
    (hplan : plan.action = .admitRoute route) (hclassify : plan.isClassify = true) :
    Verdict plan ((classifications.lookup plan.fileIdentity).map PdfClassificationResult.status)
      (admitPdf plan route model classifications delta ledger).1 := by
  have hisAdm : plan.action.isAdmit = true := by rw [hplan]; rfl
  unfold admitPdf
  cases hstatus : (classifications.lookup plan.fileIdentity).map PdfClassificationResult.status with
  | none => exact .failed hclassify rfl
  | some status =>
    cases status with
    | textInParseWindow =>
      dsimp only
      split_ifs
      · exact .postponed _ hisAdm fun _ => rfl
      · exact .postponed _ hisAdm fun _ => rfl
      · exact .admitted hplan fun _ => rfl
    | noTextInParseWindow => exact admitPlain_verdict hplan fun _ => rfl
    | notClassifiedByBudget => exact .failed hclassify rfl
    | unknown => exact .failed hclassify rfl
    | error => exact .failed hclassify rfl

theorem admitOne_verdict (ledger : AdmissionLedger) (hplan : plan.Routed) :
    Verdict plan ((classifications.lookup plan.fileIdentity).map PdfClassificationResult.status)
      (admitOne profile model classifications ledger plan).1 := by
  cases haction : plan.action with
  | admitRoute route =>
    have hrouted := hplan route haction
    by_cases hpdf : route = .pdf
    · obtain ⟨pages, hpages⟩ := by simpa [hpdf] using hrouted
      simp only [admitOne, haction, hpages]
      exact admitPdf_verdict haction (by simp [ClassifiedPlan.isClassify, hpages])
    · rw [if_neg hpdf] at hrouted
      simp only [admitOne, haction, hrouted]
      exact admitPlain_verdict haction (by simp [ClassifiedPlan.isClassify, hrouted])
  | notParsed reason =>
    simp only [admitOne, haction]
    exact haction ▸ .kept (by rw [haction]; rfl)
  | reject reason =>
    simp only [admitOne, haction]
    exact haction ▸ .kept (by rw [haction]; rfl)
  | classifierFailed status =>
    simp only [admitOne, haction]
    exact haction ▸ .kept (by rw [haction]; rfl)

/-- **Every decision of stage B is a verdict on a plan.** -/
theorem admitAll_verdict (ledger : AdmissionLedger) {plans : List ClassifiedPlan}
    (hplans : ∀ plan ∈ plans, plan.Routed) :
    ∀ decision ∈ admitAll profile model classifications ledger plans, ∃ plan ∈ plans,
      plan.origin = decision.origin ∧ Verdict plan
        ((classifications.lookup plan.fileIdentity).map PdfClassificationResult.status)
        decision.action := by
  induction plans generalizing ledger with
  | nil => simp [admitAll]
  | cons plan plans ih =>
    intro decision hdecision
    rcases List.mem_cons.1 hdecision with rfl | hdecision
    · exact ⟨plan, by simp, rfl, admitOne_verdict ledger (hplans plan (by simp))⟩
    · obtain ⟨p, hp, h⟩ := ih _ (fun p hp => hplans p (by simp [hp])) decision hdecision
      exact ⟨p, by simp [hp], h⟩

/-! ### Decisions and their files -/

theorem map_fileIdentity_of_origin {decisions : List AdmissionDecision}
    {plans : List ClassifiedPlan}
    (h : decisions.map AdmissionDecision.origin = plans.map ClassifiedPlan.origin) :
    decisions.map AdmissionDecision.fileIdentity = plans.map ClassifiedPlan.fileIdentity := by
  have := congrArg (List.map Prod.fst) h
  rw [List.map_map, List.map_map] at this
  exact this

theorem map_fileIdentity_buildWithRemaining (plans : List ClassifiedPlan)
    (profile : NormalizedScannerSettings) (model : ContextBudgetModel)
    (classifications : Classifications) (retained extractions : ℕ) :
    (ContentAdmissionPlan.buildWithRemaining plans profile model classifications retained
      extractions).map AdmissionDecision.fileIdentity = plans.map ClassifiedPlan.fileIdentity :=
  map_fileIdentity_of_origin (admitAll_origin profile _ plans)

/-- The decision of a plan overrides its action. -/
theorem effectiveAction_of_mem {admission : List AdmissionDecision}
    (hnodup : (admission.map AdmissionDecision.fileIdentity).Nodup) {decision : AdmissionDecision}
    (hdecision : decision ∈ admission) (hidentity : decision.fileIdentity = plan.fileIdentity) :
    effectiveAction admission plan = decision.action := by
  rw [effectiveAction, ← hidentity, find?_key hnodup hdecision]
  rfl

theorem effectiveAction_of_notMem {admission : List AdmissionDecision}
    (h : plan.fileIdentity ∉ admission.map AdmissionDecision.fileIdentity) :
    effectiveAction admission plan = plan.action := by
  rw [effectiveAction, find?_key_eq_none h]
  rfl

/-! ### From a verdict to a standing -/

section Standing

variable {σ : Type} {run : RunContext σ}

theorem PlannedFrom.routed [UnicodeCase] {file : PlanCandidate} (h : PlannedFrom profile file plan) :
    plan.Routed := by
  intro route hroute
  have hclassify := (h.route route hroute).2
  by_cases hpdf : route = .pdf
  · rw [if_pos hpdf]
    rw [decide_eq_true hpdf] at hclassify
    unfold ClassifiedPlan.isClassify at hclassify
    split at hclassify
    · exact ⟨_, by assumption⟩
    · cases hclassify
  · rw [if_neg hpdf]
    rw [decide_eq_false hpdf] at hclassify
    cases hplan : plan.pdfClassification with
    | notPdf => rfl
    | classify pages => simp [ClassifiedPlan.isClassify, hplan] at hclassify
    | notClassifiedByBudget =>
      have := (h.excluded hplan).1
      rw [hroute] at this
      cases this

/-- A phase says nothing about a file that it does not admit. -/
theorem ParseFate.untouched {runtime : Finset Text} {decision : AdmissionDecision}
    {view : ParseView} (h : ParseFate run classifications runtime decision view)
    (hnot : decision.action.isAdmit = false) : view = .untouched := by
  have hparse : ∀ {route file},
      ¬ Parseable run classifications runtime decision route file := by
    intro route file h
    rw [h.admits] at hnot
    cases hnot
  cases h with
  | notAdmitted | unknown | stoppedBefore | metadataOnly => rfl
  | stopped _ h | unguarded _ h | changed _ h | cached h | changedAfter h | parsed h =>
    exact absurd h hparse

/-- A stopped plan was asked for. -/
theorem Recorded.isClassify_of_stopped {view : ClassificationView} (h : Recorded run plan view)
    (hstopped : view.stopped = true) : plan.isClassify = true := by
  cases h with
  | unasked _ hview => rw [hview.stopped] at hstopped; cases hstopped
  | asked hplan => exact hplan

/-- **The verdict on a plan and the fate of its parse are its standing.** -/
theorem Standing.of_verdict [UnicodeCase] {state : RefillState} {file : PlanCandidate}
    {decision : AdmissionDecision} (hplan : PlannedFrom profile file plan)
    (hnodup : (state.admission.map AdmissionDecision.fileIdentity).Nodup)
    (hdecision : decision ∈ state.admission)
    (hidentity : decision.fileIdentity = plan.fileIdentity)
    (hrecorded : Recorded run plan (state.classificationView plan.fileIdentity))
    (hverdict : Verdict plan (state.classificationView plan.fileIdentity).status decision.action)
    (hfate : ParseFate run state.classifications state.runtime decision
      (state.outputs.view plan.fileIdentity)) : Standing run state plan := by
  have haction := effectiveAction_of_mem hnodup hdecision hidentity
  -- neither a plan that was never asked for nor one with a text result was stopped
  have hrunning : (plan.isClassify = true →
      (state.classificationView plan.fileIdentity).hasText = true) →
      plan.fileIdentity ∉ state.runtime := by
    intro htext hruntime
    have hstopped : (state.classificationView plan.fileIdentity).stopped = true :=
      decide_eq_true hruntime
    have := hrecorded.of_hasText (htext (hrecorded.isClassify_of_stopped hstopped))
    rw [this.2] at hstopped
    cases hstopped
  generalize hact : decision.action = action at hverdict
  rw [hact] at haction
  cases hverdict with
  | kept h =>
    have huntouched := hfate.untouched (hact ▸ h)
    have hclassify : plan.isClassify = false := by
      by_contra hclassify
      rw [Bool.not_eq_false] at hclassify
      rw [hplan.classify hclassify] at h
      cases h
    have htext : plan.isClassify = true →
        (state.classificationView plan.fileIdentity).hasText = true := by simp [hclassify]
    cases hkept : plan.action with
    | admitRoute route => rw [hkept] at h; cases h
    | notParsed reason =>
      exact .waiting reason (haction.trans hkept) (hrunning htext) huntouched htext
    | reject reason =>
      exact .rejected reason (haction.trans hkept) (hrunning htext) huntouched hclassify
    | classifierFailed status => exact absurd hkept (hplan.unfailed status)
  | postponed reason h htext =>
    exact .waiting reason haction (hrunning htext) (hfate.untouched (by rw [hact]; rfl)) htext
  | failed hclassify h =>
    exact .failed _ haction (hfate.untouched (by rw [hact]; rfl)) hclassify h
  | @admitted route h htext =>
    refine .admitted decision route hdecision hidentity hact haction (hrunning htext)
      h (fun hpdf => htext ?_) hfate
    rw [(hplan.route route h).2, decide_eq_true hpdf]

end Standing

end DailyReport
