import DailyReport.Scheduler.ClassifyFates
import DailyReport.Scheduler.ParseFates
import DailyReport.Scheduler.Passes

/-!
# Where a file stands

Between two passes every plan of a run stands in one of five ways (`Standing`): it waits for a
quota or a policy, was rejected, its classification failed, the deadline stopped its classification,
or it was admitted and has a parse fate.  What is known about its classification is what the last
phase that asked for it said, over what an exclusion by the page budget said before (`Recorded`).
`Coherent` says this of every plan; it is the invariant of the passes.
-/

namespace DailyReport

open Lib

/-! ### Plans and their candidates -/

section StageA

variable [UnicodeCase]

/-- Stage A made this plan of the candidate. -/
structure PlannedFrom (profile : NormalizedScannerSettings) (file : PlanCandidate)
    (plan : ClassifiedPlan) : Prop where
  origin : plan.origin = file.origin
  route : ∀ route, plan.action = .admitRoute route →
    classifyCandidateV2 file profile = .route route ∧ plan.isClassify = decide (route = .pdf)
  classify : plan.isClassify = true → plan.action = .admitRoute .pdf
  excluded : plan.pdfClassification = .notClassifiedByBudget →
    plan.action = .notParsed .pdfClassificationPageQuotaExhausted ∧
      classifyCandidateV2 file profile = .route .pdf
  unfailed : ∀ status, plan.action ≠ .classifierFailed status

variable {profile : NormalizedScannerSettings} {file : PlanCandidate} {plan : ClassifiedPlan}

theorem plannedFrom_screen (h : file.screen profile = .inl plan) : PlannedFrom profile file plan := by
  unfold PlanCandidate.screen at h
  split at h
  case h_3 =>
    split_ifs at h
    simp only [Sum.inl.injEq] at h
    subst h
    constructor <;> simp [PlanCandidate.plan, ClassifiedPlan.isClassify, ClassifiedPlan.origin,
      PlanCandidate.origin]
  all_goals
    simp only [Sum.inl.injEq] at h
    subst h
    constructor <;> simp [PlanCandidate.plan, ClassifiedPlan.isClassify, ClassifiedPlan.origin,
      PlanCandidate.origin]

theorem screen_eq_inr_route {route : RouteKind} {other : PlanCandidate}
    (h : file.screen profile = .inr (other, route)) :
    other = file ∧ classifyCandidateV2 file profile = .route route := by
  unfold PlanCandidate.screen at h
  split at h
  case h_3 hroute =>
    split_ifs at h
    simp only [Sum.inr.injEq, Prod.mk.injEq] at h
    obtain ⟨rfl, rfl⟩ := h
    exact ⟨rfl, hroute⟩
  all_goals cases h

theorem plannedFrom_assignOne {allowPartialPages : Bool} (ledger : SlotLedger) {route : RouteKind}
    (hroute : classifyCandidateV2 file profile = .route route) :
    PlannedFrom profile file (assignOne profile allowPartialPages ledger file route).1 := by
  unfold assignOne
  by_cases hslots : ledger.slots = 0
  · rw [if_pos hslots]
    constructor <;> simp [PlanCandidate.plan, ClassifiedPlan.isClassify, ClassifiedPlan.origin,
      PlanCandidate.origin]
  · rw [if_neg hslots]
    by_cases hpdf : route = .pdf
    · rw [if_pos hpdf]
      subst hpdf
      split_ifs <;>
      · constructor <;> simp [PlanCandidate.plan, ClassifiedPlan.isClassify, ClassifiedPlan.origin,
          PlanCandidate.origin, hroute]
    · rw [if_neg hpdf]
      constructor <;> simp [PlanCandidate.plan, ClassifiedPlan.isClassify, ClassifiedPlan.origin,
        PlanCandidate.origin, hroute, hpdf]

theorem plannedFrom_assignSlots {allowPartialPages : Bool} {ledger : SlotLedger}
    {candidates : List (PlanCandidate × RouteKind)}
    (hroutes : ∀ c ∈ candidates, classifyCandidateV2 c.1 profile = .route c.2) :
    ∀ plan ∈ assignSlots profile allowPartialPages ledger candidates,
      ∃ c ∈ candidates, PlannedFrom profile c.1 plan := by
  induction candidates generalizing ledger with
  | nil => simp [assignSlots]
  | cons c rest ih =>
    intro plan hplan
    rcases List.mem_cons.1 hplan with rfl | hplan
    · exact ⟨c, by simp, plannedFrom_assignOne ledger (hroutes c (by simp))⟩
    · obtain ⟨c', hc', hfrom⟩ := ih (fun c hc => hroutes c (by simp [hc])) plan hplan
      exact ⟨c', by simp [hc'], hfrom⟩

/-- **Every plan of stage A was made of one of its candidates.** -/
theorem ClassificationPlan.plannedFrom {files : List PlanCandidate} {pageBudget slots : ℕ}
    {allowPartialPages : Bool}
    (h : plan ∈ buildWithRemaining files profile pageBudget slots allowPartialPages) :
    ∃ file ∈ files, PlannedFrom profile file plan := by
  unfold buildWithRemaining at h
  rcases List.mem_append.1 (mem_sortByKey.1 h) with h | h
  · simp only [rejectedPlans, List.mem_filterMap] at h
    obtain ⟨file, hfile, hleft⟩ := h
    exact ⟨file, hfile, plannedFrom_screen (Sum.getLeft?_eq_some_iff.1 hleft)⟩
  · have hroutes : ∀ c ∈ sortByKey (fun c : PlanCandidate × RouteKind => c.1.key)
        (routedCandidates profile files),
        c.1 ∈ files ∧ classifyCandidateV2 c.1 profile = .route c.2 := by
      intro c hc
      have hmem := mem_sortByKey.1 hc
      simp only [routedCandidates, List.mem_filterMap] at hmem
      obtain ⟨file, hfile, hright⟩ := hmem
      obtain ⟨heq, hroute⟩ := screen_eq_inr_route (Sum.getRight?_eq_some_iff.1 hright)
      exact ⟨heq ▸ hfile, heq ▸ hroute⟩
    obtain ⟨c, hc, hfrom⟩ := plannedFrom_assignSlots (fun c hc => (hroutes c hc).2) plan h
    exact ⟨c.1, (hroutes c hc).1, hfrom⟩

end StageA

/-! ### What is known about a classification -/

namespace ClassificationView

/-- What was said last, over what was said before. -/
def overlay (new prior : ClassificationView) : ClassificationView :=
  ⟨new.result.or prior.result, new.audit.or prior.audit, new.stopped || prior.stopped⟩

def untouched : ClassificationView := ⟨none, none, false⟩

def status (view : ClassificationView) : Option PdfClassificationStatus :=
  view.result.map PdfClassificationResult.status

/-- The classification came to a text or no-text result. -/
def hasText (view : ClassificationView) : Bool :=
  view.status.any PdfClassificationStatus.isTextPresence

@[simp] theorem untouched_overlay (view : ClassificationView) : untouched.overlay view = view := by
  simp [untouched, overlay]

@[simp] theorem overlay_untouched (view : ClassificationView) : view.overlay untouched = view := by
  simp [untouched, overlay]

end ClassificationView

namespace ParseView

/-- What was said last, over what was said before. -/
def overlay (new prior : ParseView) : ParseView :=
  ⟨new.result.or prior.result, new.profileHash.or prior.profileHash,
    new.cacheStatus.or prior.cacheStatus, new.missReason.or prior.missReason,
    new.stopped || prior.stopped⟩

@[simp] theorem untouched_overlay (view : ParseView) : untouched.overlay view = view := by
  simp [untouched, overlay]

@[simp] theorem overlay_untouched (view : ParseView) : view.overlay untouched = view := by
  simp [untouched, overlay]

end ParseView

variable {σ : Type}

/-- What an exclusion by the page budget says. -/
def excludedView (run : RunContext σ) (identity : Text) : ClassificationView :=
  ⟨some (excludedResult identity), some (excludedAudit run.classifierBuild run.classifierHash),
    false⟩

/-- The file takes the route of a PDF. -/
def IsPdfFile (run : RunContext σ) (identity : Text) : Prop :=
  ∃ file, run.input.snapshot.lookup identity = some file ∧
    classifyCandidateV2 (planCandidate file) run.input.profile = .route .pdf

/-- Nothing was said, or that the budget excluded a PDF. -/
def IsPrior (run : RunContext σ) (identity : Text) (view : ClassificationView) : Prop :=
  view = .untouched ∨ IsPdfFile run identity ∧ view = excludedView run identity

/-- What is known about the classification of a plan. -/
inductive Recorded (run : RunContext σ) (plan : ClassifiedPlan) : ClassificationView → Prop
  | unasked {view : ClassificationView} (hplan : plan.isClassify = false)
      (hview : IsPrior run plan.fileIdentity view) : Recorded run plan view
  | asked {new prior : ClassificationView} (hplan : plan.isClassify = true)
      (hprior : IsPrior run plan.fileIdentity prior) (hnew : ClassificationFate run plan new) :
      Recorded run plan (new.overlay prior)

/-- What the state knows about the classification of a file. -/
def RefillState.classificationView (state : RefillState) (identity : Text) :
    ClassificationView where
  result := state.classifications.lookup identity
  audit := state.audits.lookup identity
  stopped := decide (identity ∈ state.runtime)

/-- The failure that stage B makes of the status of a PDF. -/
def admitFailure : Option PdfClassificationStatus → Option PdfClassificationStatus
  | some .error => some .error
  | some .unknown | some .notClassifiedByBudget | none => some .unknown
  | some .textInParseWindow | some .noTextInParseWindow => none

/-! ### Standing -/

/-- Where a plan stands between two passes. -/
inductive Standing (run : RunContext σ) (state : RefillState) (plan : ClassifiedPlan) : Prop
  | waiting (reason : NotParsedReason)
      (haction : effectiveAction state.admission plan = .notParsed reason)
      (hruntime : plan.fileIdentity ∉ state.runtime)
      (hview : state.outputs.view plan.fileIdentity = .untouched)
      (htext : plan.isClassify = true →
        (state.classificationView plan.fileIdentity).hasText = true)
  | rejected (reason : RejectReason)
      (haction : effectiveAction state.admission plan = .reject reason)
      (hruntime : plan.fileIdentity ∉ state.runtime)
      (hview : state.outputs.view plan.fileIdentity = .untouched)
      (hplan : plan.isClassify = false)
  | failed (status : PdfClassificationStatus)
      (haction : effectiveAction state.admission plan = .classifierFailed status)
      (hview : state.outputs.view plan.fileIdentity = .untouched)
      (hplan : plan.isClassify = true)
      (hstatus : admitFailure (state.classificationView plan.fileIdentity).status = some status)
  | stopped (haction : effectiveAction state.admission plan = .admitRoute .pdf)
      (hruntime : plan.fileIdentity ∈ state.runtime)
      (hview : state.outputs.view plan.fileIdentity = .untouched)
      (hplan : plan.isClassify = true)
  | admitted (decision : AdmissionDecision) (route : RouteKind)
      (hdecision : decision ∈ state.admission)
      (hidentity : decision.fileIdentity = plan.fileIdentity)
      (hroute : decision.action = .admitRoute route)
      (haction : effectiveAction state.admission plan = .admitRoute route)
      (hruntime : plan.fileIdentity ∉ state.runtime)
      (hplan : plan.action = .admitRoute route)
      (htext : route = .pdf → (state.classificationView plan.fileIdentity).hasText = true)
      (hfate : ParseFate run state.classifications state.runtime decision
        (state.outputs.view plan.fileIdentity))

/-! ### Coherent states -/

/-- The invariant of the passes. -/
structure Coherent [UnicodeCase] (run : RunContext σ) (state : RefillState) : Prop where
  perm : (state.classified.map ClassifiedPlan.origin).Perm
    (run.input.discovery.map fun file => (planCandidate file).origin)
  plans : ∀ plan ∈ state.classified, ∃ file,
    run.input.snapshot.lookup plan.fileIdentity = some file ∧
      PlannedFrom run.input.profile (planCandidate file) plan
  decisions_nodup : (state.admission.map AdmissionDecision.fileIdentity).Nodup
  decisions : ∀ decision ∈ state.admission, ∃ plan ∈ state.classified,
    plan.origin = decision.origin
  recorded : ∀ plan ∈ state.classified,
    Recorded run plan (state.classificationView plan.fileIdentity)
  standing : ∀ plan ∈ state.classified, Standing run state plan
  foreign : ∀ identity, identity ∉ state.classified.map ClassifiedPlan.fileIdentity →
    state.classificationView identity = .untouched ∧ state.outputs.view identity = .untouched

/-- The discovered files are distinct. -/
def ScheduledRunInput.Distinct (input : ScheduledRunInput) : Prop :=
  (input.discovery.map DiscoveredFileOut.fileIdentity).Nodup

/-! ### Consequences of the records -/

section Recorded

variable {run : RunContext σ} {plan : ClassifiedPlan} {view : ClassificationView}

theorem ClassificationFate.stopped_result (h : ClassificationFate run plan view)
    (hstopped : view.stopped = true) : view.result = none ∧ view.audit = none := by
  cases h <;> first | exact ⟨rfl, rfl⟩ | cases hstopped

theorem IsPrior.stopped {identity : Text} (h : IsPrior run identity view) :
    view.stopped = false := by
  rcases h with rfl | ⟨-, rfl⟩ <;> rfl

theorem IsPrior.status {identity : Text} (h : IsPrior run identity view) :
    view.status = none ∨ view.status = some .notClassifiedByBudget := by
  rcases h with rfl | ⟨-, rfl⟩
  · exact .inl rfl
  · exact .inr rfl

theorem IsPrior.hasText {identity : Text} (h : IsPrior run identity view) :
    view.hasText = false := by
  rcases h.status with hs | hs <;> rw [ClassificationView.hasText, hs] <;> rfl

/-- A text or no-text result belongs to a file with a usable guard. -/
theorem Recorded.guarded (h : Recorded run plan view) (htext : view.hasText = true) :
    ∃ file guard, run.input.snapshot.lookup plan.fileIdentity = some file ∧
      expectedGuard file = some guard := by
  cases h with
  | unasked _ hview => rw [hview.hasText] at htext; cases htext
  | @asked new prior _ hprior hnew =>
    -- without a result of its own the view says what it said before
    have hnone : new.result ≠ none := by
      intro hnone
      have : (new.overlay prior).hasText = prior.hasText := by
        simp [ClassificationView.hasText, ClassificationView.status, ClassificationView.overlay, hnone]
      rw [this, hprior.hasText] at htext
      cases htext
    cases hnew with
    | notPdf | skipped | stopped => exact absurd rfl hnone
    | excluded h =>
      simp [ClassificationView.hasText, ClassificationView.status, ClassificationView.overlay,
        excludedResult, PdfClassificationStatus.isTextPresence] at htext
    | changed h | cached h => exact ⟨_, _, h.found, h.guarded⟩
    | unattempted h | executed h => exact ⟨_, _, h.classifiable.found, h.classifiable.guarded⟩

theorem Recorded.prior (h : Recorded run plan view) (hplan : plan.isClassify = false) :
    IsPrior run plan.fileIdentity view := by
  cases h with
  | unasked _ hview => exact hview
  | asked hasked => rw [hasked] at hplan; cases hplan

/-- A stopped classification came to no result. -/
theorem Recorded.status_of_stopped (h : Recorded run plan view) (hstopped : view.stopped = true) :
    view.status = none ∨ view.status = some .notClassifiedByBudget := by
  cases h with
  | unasked _ hview => exact hview.status
  | @asked new prior _ hprior hnew =>
    rw [ClassificationView.overlay, hprior.stopped, Bool.or_false] at hstopped
    have hresult := (hnew.stopped_result hstopped).1
    have : (new.overlay prior).status = prior.status := by
      simp [ClassificationView.status, ClassificationView.overlay, hresult]
    rw [this]
    exact hprior.status

/-- A text or no-text result belongs to a plan that was asked for, and was not stopped. -/
theorem Recorded.of_hasText (h : Recorded run plan view) (htext : view.hasText = true) :
    plan.isClassify = true ∧ view.stopped = false := by
  constructor
  · cases h with
    | unasked _ hview => rw [hview.hasText] at htext; cases htext
    | asked hplan _ _ => exact hplan
  · by_contra hstopped
    rw [Bool.not_eq_false] at hstopped
    rcases h.status_of_stopped hstopped with hs | hs <;>
    · rw [ClassificationView.hasText, hs] at htext
      cases htext

/-- What a classification phase says is on record. -/
theorem Recorded.of_fate (h : ClassificationFate run plan view)
    (hexcluded : plan.pdfClassification = .notClassifiedByBudget →
      IsPdfFile run plan.fileIdentity) : Recorded run plan view := by
  cases hplan : plan.isClassify with
  | true =>
    rw [← ClassificationView.overlay_untouched view]
    exact .asked hplan (.inl rfl) h
  | false =>
    refine .unasked hplan ?_
    have hnot : ∀ {pages}, plan.pdfClassification ≠ .classify pages := by
      intro pages h
      simp [ClassifiedPlan.isClassify, h] at hplan
    cases h with
    | notPdf => exact .inl rfl
    | excluded h => exact .inr ⟨hexcluded h, rfl⟩
    | skipped h | stopped h => exact absurd h hnot
    | changed h | cached h => exact absurd h.classify hnot
    | unattempted h | executed h => exact absurd h.classifiable.classify hnot

end Recorded

/-! ### Parse fates in other states -/

section Congr

variable {run : RunContext σ} {classifications classifications' : Classifications}
  {runtime runtime' : Finset Text} {decision decision' : AdmissionDecision} {view : ParseView}

theorem Parseable.congr {route : RouteKind} {file : DiscoveredFileOut}
    (h : Parseable run classifications runtime decision route file)
    (hidentity : decision'.fileIdentity = decision.fileIdentity)
    (haction : decision'.action = decision.action)
    (hlookup : classifications'.lookup decision.fileIdentity =
      classifications.lookup decision.fileIdentity)
    (hruntime : decision.fileIdentity ∈ runtime' ↔ decision.fileIdentity ∈ runtime) :
    Parseable run classifications' runtime' decision' route file where
  admits := haction.trans h.admits
  found := hidentity ▸ h.found
  running := by
    rw [hidentity, hruntime]
    exact h.running
  parsed := by
    have := h.parsed
    unfold isMetadataOnly at this ⊢
    rwa [hidentity, hlookup]

theorem ParsedAs.congr {task : ParseTask} {result : ParseResult}
    (h : ParsedAs run classifications task result)
    (hlookup : classifications'.lookup task.file.fileIdentity =
      classifications.lookup task.file.fileIdentity) : ParsedAs run classifications' task result := by
  obtain ⟨hguard, remaining, s, hs⟩ := h
  refine ⟨hguard, remaining, s, ?_⟩
  rw [← hs, ParseTask.request, ParseTask.request, hlookup]

/-- A parse fate looks at its own file only. -/
theorem ParseFate.congr (h : ParseFate run classifications runtime decision view)
    (hidentity : decision'.fileIdentity = decision.fileIdentity)
    (haction : decision'.action = decision.action)
    (hlookup : classifications'.lookup decision.fileIdentity =
      classifications.lookup decision.fileIdentity)
    (hruntime : decision.fileIdentity ∈ runtime' ↔ decision.fileIdentity ∈ runtime) :
    ParseFate run classifications' runtime' decision' view := by
  have hparse : ∀ {route file}, Parseable run classifications runtime decision route file →
      Parseable run classifications' runtime' decision' route file :=
    fun h => h.congr hidentity haction hlookup hruntime
  cases h with
  | notAdmitted h => exact .notAdmitted (haction ▸ h)
  | unknown h => exact .unknown (hidentity ▸ h)
  | stoppedBefore h => exact .stoppedBefore (by rwa [hidentity, hruntime])
  | metadataOnly h hmetadata =>
    refine .metadataOnly (haction.trans h) ?_
    unfold isMetadataOnly at hmetadata ⊢
    rwa [hidentity, hlookup]
  | stopped reason h => exact .stopped reason (hparse h)
  | unguarded reason h hguard => exact .unguarded reason (hparse h) hguard
  | changed reason h hhash => exact .changed reason (hparse h) hhash
  | cached h hentry => exact .cached (hparse h) hentry
  | changedAfter h hmiss hresult hsuccess =>
    exact .changedAfter (hparse h) hmiss (hresult.congr (h.identity ▸ hlookup)) hsuccess
  | parsed h hmiss hresult =>
    exact .parsed (hparse h) hmiss (hresult.congr (h.identity ▸ hlookup))

variable {state state' : RefillState} {plan : ClassifiedPlan}

/-- A standing looks at what is known about its own file only. -/
theorem Standing.congr (h : Standing run state plan)
    (hview : state'.classificationView plan.fileIdentity =
      state.classificationView plan.fileIdentity)
    (hparse : state'.outputs.view plan.fileIdentity = state.outputs.view plan.fileIdentity)
    (haction : effectiveAction state'.admission plan = effectiveAction state.admission plan)
    (hdecisions : ∀ decision ∈ state.admission, decision.fileIdentity = plan.fileIdentity →
      ∃ decision' ∈ state'.admission, decision'.fileIdentity = decision.fileIdentity ∧
        decision'.action = decision.action) : Standing run state' plan := by
  have hruntime : plan.fileIdentity ∈ state'.runtime ↔ plan.fileIdentity ∈ state.runtime := by
    have := congrArg ClassificationView.stopped hview
    simpa [RefillState.classificationView] using this
  have hlookup : state'.classifications.lookup plan.fileIdentity =
      state.classifications.lookup plan.fileIdentity := congrArg ClassificationView.result hview
  cases h with
  | waiting reason h hrun huntouched htext =>
    exact .waiting reason (haction.trans h) (hruntime.not.2 hrun) (hparse.trans huntouched)
      (by rwa [hview])
  | rejected reason h hrun huntouched hplan =>
    exact .rejected reason (haction.trans h) (hruntime.not.2 hrun) (hparse.trans huntouched) hplan
  | failed status h huntouched hplan hstatus =>
    exact .failed status (haction.trans h) (hparse.trans huntouched) hplan (by rwa [hview])
  | stopped h hrun huntouched hplan =>
    exact .stopped (haction.trans h) (hruntime.2 hrun) (hparse.trans huntouched) hplan
  | admitted decision route hdecision hidentity hroute h hrun hplan htext hfate =>
    obtain ⟨decision', hdecision', hid, hact⟩ := hdecisions decision hdecision hidentity
    refine .admitted decision' route hdecision' (hid.trans hidentity) (hact.trans hroute)
      (haction.trans h) (hruntime.not.2 hrun) hplan (by rwa [hview]) ?_
    rw [hparse]
    exact hfate.congr hid hact (hidentity ▸ hlookup) (hidentity ▸ hruntime)

end Congr

end DailyReport
