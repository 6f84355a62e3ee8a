import DailyReport.Scheduler.Project

/-!
# Refill rounds

After the first pass a run gives back what it did not use: pages a classifier did not look at,
extraction slots of cached parses, characters a section did not need (`reclaimChars`).  Up to two
rounds then plan the files that a quota kept out, against what is left.  Each round is frozen before
its I/O (`planRefill`), runs a classification and a parse phase (`refillWave`) and is entered in the
ledger, which is validated at the end (`runRefills`).
-/

namespace DailyReport

open Lib

/-! ### State -/

/-- The state of a run between its passes. -/
structure RefillState where
  classified : List ClassifiedPlan
  admission : List AdmissionDecision
  classifications : Classifications
  audits : ClassificationAudits
  runtime : Finset Text
  freshHits : List Text
  outputs : ParseOutputs
  model : ContextBudgetModel
  stageDeadlineExhausted : Bool

/-- Sum of the reservations. -/
def reservedTotal (admission : List AdmissionDecision) : ℕ :=
  totalCost AdmissionDecision.reservedChars admission

/-- The file waits for a quota. -/
def budgetPending : PlanAction → Bool
  | .notParsed .semanticFileQuotaExhausted | .notParsed .pdfClassificationPageQuotaExhausted
  | .notParsed .pdfTextExtractionQuotaExhausted | .notParsed .globalContextBudgetExceeded => true
  | _ => false

/-- The classification looked for text and came to a result. -/
def PdfClassificationStatus.isTextPresence : PdfClassificationStatus → Bool
  | .textInParseWindow | .noTextInParseWindow => true
  | _ => false

/-! ### Consumption -/

/-- What a run has used up: candidate slots, pages and extraction slots, and the pages it gets
back. -/
structure Consumed where
  candidates : ℕ
  heldPages : ℕ
  extractions : ℕ
  refundedPages : ℕ
  deriving DecidableEq

/-- The files that took a candidate slot: those with a parse result and those the classifier saw. -/
def startedFiles (classifications : Classifications) (outputs : ParseOutputs) : Finset Text :=
  outputs.results.keys.toFinset ∪
    ((classifications.entries.filter fun entry =>
      decide (entry.2.status ≠ .notClassifiedByBudget)).map Sigma.fst).toFinset

/-- The pages a plan keeps of its charge: those a classifier looked at, or all of them where that is
not known. -/
def ClassifiedPlan.heldPages (audits : ClassificationAudits) (plan : ClassifiedPlan) : ℕ :=
  match plan.pdfClassification with
  | .classify chargedPages =>
    (((audits.lookup plan.fileIdentity).filter fun audit => audit.status.isTextPresence).bind
      PdfClassificationAuditV1.runInspectedPages).getD chargedPages
  | _ => 0

/-- A cached success started no extraction. -/
def startedNoExtraction (outputs : ParseOutputs) (identity : Text) : Bool :=
  (outputs.results.lookup identity).any fun result =>
    decide (result.parseStatus = .success) && decide (result.parseAttemptCount = 0) &&
      decide (result.parseTransport = .notApplicable)

/-- The decision holds an extraction slot. -/
def holdsExtraction (classifications : Classifications) (outputs : ParseOutputs)
    (decision : AdmissionDecision) : Bool :=
  usesExtraction classifications decision.fileIdentity decision.action &&
    !startedNoExtraction outputs decision.fileIdentity

def consumed (classified : List ClassifiedPlan) (admission : List AdmissionDecision)
    (classifications : Classifications) (audits : ClassificationAudits)
    (outputs : ParseOutputs) : Except SchedulerFailure Consumed :=
  if classified.any fun plan => decide (plan.heldPages audits > plan.chargedPages) then
    .error (.internal (lit "classifier consumed more pages than its frozen reservation"))
  else .ok {
    candidates := (startedFiles classifications outputs).card
    heldPages := totalCost (ClassifiedPlan.heldPages audits) classified
    extractions := admission.countP (holdsExtraction classifications outputs)
    refundedPages := totalCost (fun plan => plan.chargedPages - plan.heldPages audits) classified }

/-! ### Reclaiming characters -/

def enforceRenderedWithinReserved (rendered : ContextBuildOutput)
    (admission : List AdmissionDecision) : Except SchedulerFailure Unit :=
  admission.forM fun decision =>
    if decision.action.isAdmit then
      match rendered.renderedByIdentity.lookup decision.fileIdentity with
      | none => .ok ()
      | some chars =>
        (ContextBudgetModel.checkRenderedWithinReserved chars decision.reservedChars).mapError
          fun _ => .new .budgetModelMismatch
            (lit "rendered section for " ++ decision.relativePath ++
              lit " exceeded its reserved budget") false .context
    else .ok ()

/-- The file has all it will get. -/
def completed (classifications : Classifications) (outputs : ParseOutputs) (identity : Text) :
    Bool :=
  ((outputs.results.lookup identity).any fun result => decide (result.parseStatus = .success)) ||
    ((classifications.lookup identity).any fun result =>
      decide (result.status = .noTextInParseWindow))

/-- The reservation a decision keeps after rendering. -/
def retainedChars (classifications : Classifications) (runtime : Finset Text)
    (outputs : ParseOutputs) (rendered : AList fun _ : Text => ℕ)
    (decision : AdmissionDecision) : ℕ :=
  if decision.action.isAdmit && completed classifications outputs decision.fileIdentity &&
      !stoppedAtRuntime runtime outputs decision.fileIdentity then
    match rendered.lookup decision.fileIdentity with
    | some chars => min (chars + sectionSeparatorChars) decision.reservedChars
    | none => decision.reservedChars
  else decision.reservedChars

variable [UnicodeCase]

/-- The context rendered from the state of a run. -/
def renderState (input : ScheduledRunInput) (state : RefillState) :
    Except SchedulerFailure ContextBuildOutput := do
  let evidence ← buildEvidence input state.classified state.admission state.classifications
    state.runtime state.outputs
  (buildContext evidence input.profile.context input.profile.reportMode).mapError fun message =>
    .new .budgetModelMismatch message false .context

/-- Give back what the sections did not need: the refund and the decisions after it. -/
def reclaimChars (input : ScheduledRunInput) (state : RefillState) :
    Except SchedulerFailure (ℕ × List AdmissionDecision) := do
  let rendered ← renderState input state
  enforceRenderedWithinReserved rendered state.admission
  let retained := retainedChars state.classifications state.runtime state.outputs
    rendered.renderedByIdentity
  return (totalCost (fun decision => decision.reservedChars - retained decision) state.admission,
    state.admission.map fun decision => { decision with reservedChars := retained decision })

/-! ### Planning a round -/

def AdmissionDecision.key (decision : AdmissionDecision) : NominalKey :=
  NominalKey.new decision.relativePath decision.extension decision.fileIdentity

/-- The file of a plan has no result yet and a quota kept it out. -/
def isPending (state : RefillState) (plan : ClassifiedPlan) : Bool :=
  !stoppedAtRuntime state.runtime state.outputs plan.fileIdentity &&
    decide (plan.fileIdentity ∉ state.outputs.results) &&
    budgetPending ((((indexBy AdmissionDecision.fileIdentity state.admission).lookup
      plan.fileIdentity).map AdmissionDecision.action).getD plan.action)

/-- The status of the file's classification, if there is one. -/
def classificationStatus (classifications : Classifications) (identity : Text) :
    Option PdfClassificationStatus :=
  (classifications.lookup identity).map PdfClassificationResult.status

/-- The pending plan has a text or no-text classification to build on. -/
def isReusable (state : RefillState) (plan : ClassifiedPlan) : Bool :=
  isPending state plan &&
    (classificationStatus state.classifications plan.fileIdentity).any
      PdfClassificationStatus.isTextPresence

/-- The pending plan has not reached the classifier. -/
def isUnstarted (state : RefillState) (plan : ClassifiedPlan) : Bool :=
  isPending state plan &&
    (classificationStatus state.classifications plan.fileIdentity).all fun status =>
      decide (status = .notClassifiedByBudget)

/-- The candidates of a round that nothing was started for. -/
def unstartedCandidates (input : ScheduledRunInput) (state : RefillState) : List PlanCandidate :=
  (state.classified.filter (isUnstarted state)).filterMap fun plan =>
    (input.snapshot.lookup plan.fileIdentity).map planCandidate

/-- A frozen round: new plans, plans with a classification, and whether anything was pending. -/
structure RefillPlan where
  frozen : List ClassifiedPlan
  reusable : List ClassifiedPlan
  hasPending : Bool

/-- Plan a round against what is left. -/
def planRefill (input : ScheduledRunInput) (state : RefillState) (used : Consumed) : RefillPlan :=
  let unstarted := unstartedCandidates input state
  let reusable := state.classified.filter (isReusable state)
  let decisions := ContentAdmissionPlan.buildWithRemaining reusable input.profile state.model
    state.classifications (reservedTotal state.admission)
    (input.profile.maxPdfTextExtractions - used.extractions)
  let admittedIds := (decisions.filter fun decision => decision.action.isAdmit).map
    AdmissionDecision.fileIdentity
  { frozen := ClassificationPlan.buildWithRemaining unstarted input.profile
      (input.profile.maxTotalPdfClassificationPages - used.heldPages)
      (input.profile.maxCandidateFiles - used.candidates) true
    reusable := reusable.filter fun plan => admittedIds.contains plan.fileIdentity
    hasPending := !unstarted.isEmpty || !reusable.isEmpty }

/-- The plan has pages to classify. -/
def ClassifiedPlan.isClassify (plan : ClassifiedPlan) : Bool :=
  match plan.pdfClassification with
  | .classify _ => true
  | _ => false

def RefillPlan.plannedCount (plan : RefillPlan) : ℕ :=
  (plan.frozen.countP fun p => p.action.isAdmit) + plan.reusable.length

/-! ### Running a round -/

/-- The fixed sections with the lines of failed classifications. -/
def fixedSections (input : ScheduledRunInput) (plans : List ClassifiedPlan)
    (classifications : Classifications) (runtime : Finset Text) : List Text :=
  fixedContextSections input.profile.context input.profile.reportMode input.discovery.length ++
    plans.filterMap fun plan => classifierErrorLine plan classifications runtime

/-- The budget model over fixed sections. -/
def budgetModel (input : ScheduledRunInput) (fixed : List Text) :
    Except SchedulerFailure ContextBudgetModel :=
  (ContextBudgetModel.new input.profile.context fixed).mapError fun e =>
    .new .contextFixedSectionsOverBudget e.message false .context

/-- The classification outputs of a round join those of the run. -/
def RefillState.addClassifications (state : RefillState) (out : ClassificationOutputs) :
    RefillState :=
  { state with
    classifications := out.results ∪ state.classifications
    audits := out.audits ∪ state.audits
    runtime := state.runtime ∪ out.runtimeNotParsed
    freshHits := state.freshHits ++ out.freshHits
    outputs := { state.outputs with
      classificationCacheReceipts :=
        state.outputs.classificationCacheReceipts ++ out.cacheReceipts
      cacheWriteWarnings := state.outputs.cacheWriteWarnings ++ out.cacheWriteWarnings }
    stageDeadlineExhausted := state.stageDeadlineExhausted || out.stageDeadlineExhausted }

/-- The parse outputs of a round join those of the run. -/
def mergeParses (current next : ParseOutputs) : ParseOutputs where
  results := next.results ∪ current.results
  runtimeNotParsed := current.runtimeNotParsed ∪ next.runtimeNotParsed
  parseCacheReceipts := current.parseCacheReceipts ++ next.parseCacheReceipts
  classificationCacheReceipts :=
    current.classificationCacheReceipts ++ next.classificationCacheReceipts
  parseProfileHashes := next.parseProfileHashes ∪ current.parseProfileHashes
  parseCacheStatus := next.parseCacheStatus ∪ current.parseCacheStatus
  parseCacheMissReason := next.parseCacheMissReason ∪ current.parseCacheMissReason
  cacheWriteWarnings := current.cacheWriteWarnings ++ next.cacheWriteWarnings
  parseWarnings := current.parseWarnings ++ next.parseWarnings
  parseFreshHits := current.parseFreshHits ++ next.parseFreshHits

/-- The plans, the decisions and the parse outputs of a round join those of the run. -/
def RefillState.addWave (state : RefillState) (plans : List ClassifiedPlan)
    (decisions : List AdmissionDecision) (parses : ParsePhase) : RefillState :=
  { state with
    classified := (replaceOnce ClassifiedPlan.fileIdentity
      (indexBy ClassifiedPlan.fileIdentity plans) state.classified).1
    admission := sortByKey AdmissionDecision.key (mergeOnce AdmissionDecision.fileIdentity
      (indexBy AdmissionDecision.fileIdentity decisions) state.admission)
    outputs := mergeParses state.outputs parses.outputs
    stageDeadlineExhausted := state.stageDeadlineExhausted || parses.stageDeadlineExhausted }

variable {σ : Type}

/-- The plans of a round's fixed sections: those it leaves alone, then its own. -/
def wavePlans (state : RefillState) (frozen : List ClassifiedPlan) : List ClassifiedPlan :=
  state.classified.filter (fun plan =>
    !(frozen.map ClassifiedPlan.fileIdentity).contains plan.fileIdentity) ++ frozen

/-- The plans that stage B of a round decides. -/
def RefillPlan.plans (plan : RefillPlan) : List ClassifiedPlan :=
  sortByKey ClassifiedPlan.key (plan.frozen ++ plan.reusable)

/-- Stage B of a round, against what the earlier rounds have reserved. -/
def waveDecisions (input : ScheduledRunInput) (plan : RefillPlan) (used : Consumed)
    (state : RefillState) : List AdmissionDecision :=
  ContentAdmissionPlan.buildWithRemaining plan.plans input.profile state.model
    state.classifications (reservedTotal state.admission)
    (input.profile.maxPdfTextExtractions - used.extractions)

/-- Run a frozen round.  The model is built again after its classifications, the reservations of
earlier rounds stay as they are. -/
def refillWave (run : RunContext σ) (plan : RefillPlan) (used : Consumed) (state : RefillState) :
    Scheduled σ RefillState := do
  let classified ← runClassifications run (plan.frozen.filter ClassifiedPlan.isClassify)
  let state := state.addClassifications classified
  let model ← Exec.ofExcept (budgetModel run.input
    (fixedSections run.input (wavePlans state plan.frozen) state.classifications state.runtime))
  let state := { state with model := model }
  let decisions := waveDecisions run.input plan used state
  let parses ← runParses run state.classifications state.runtime decisions
  pure (state.addWave plan.plans decisions parses)

/-- What the refill has entered in its ledger so far. -/
structure RefillLedger where
  stopReason : Text
  refundedChars : ℕ
  rounds : List RefillRoundAudit
  deriving DecidableEq

/-- The state after a round, and whether it was the last. -/
structure RoundOutcome where
  state : RefillState
  ledger : RefillLedger
  stopped : Bool

/-- Stop for a reason. -/
def stopRefill (state : RefillState) (ledger : RefillLedger) (reason : Text) : RoundOutcome :=
  ⟨state, { ledger with stopReason := reason }, true⟩

/-- Reclaim characters and enter the refund. -/
def reclaim (input : ScheduledRunInput) (state : RefillState) (ledger : RefillLedger) :
    Except SchedulerFailure (RefillState × RefillLedger) := do
  let reclaimed ← reclaimChars input state
  return ({ state with admission := reclaimed.2 },
    { ledger with refundedChars := ledger.refundedChars + reclaimed.1 })

/-- The consumption of a state. -/
def RefillState.consumed (state : RefillState) : Except SchedulerFailure Consumed :=
  DailyReport.consumed state.classified state.admission state.classifications state.audits
    state.outputs

/-- Characters the model and the reservations take. -/
def RefillState.reservedChars (state : RefillState) : ℕ :=
  state.model.baseChars + reservedTotal state.admission

/-- Files a classifier came to a result for. -/
def classifiedCount (classifications : Classifications) : ℕ :=
  classifications.entries.countP fun entry => decide (entry.2.status ≠ .notClassifiedByBudget)

/-- Something was parsed or classified between two states. -/
def progressed (before after : RefillState) : Bool :=
  decide (after.outputs.results.entries.length ≠ before.outputs.results.entries.length) ||
    decide (classifiedCount after.classifications ≠ classifiedCount before.classifications)

/-- The ledger entry of a round. -/
def roundAudit (digests : Digests) (round : ℕ) (plan : RefillPlan) (state : RefillState)
    (used : Consumed) (refundedChars : ℕ) : RefillRoundAudit where
  round := round
  plannedSourceCount := plan.plannedCount
  planSha256 := digests.planSha256 (plan.frozen ++ plan.reusable)
  candidateSlotsUsed := used.candidates
  classificationPagesHeld := used.heldPages
  extractionSlotsUsed := used.extractions
  reservedChars := state.reservedChars
  refundedChars := refundedChars
  refundedClassificationPages := used.refundedPages

/-- Run a round that planned something and enter it in the ledger. -/
def runRound (run : RunContext σ) (round : ℕ) (plan : RefillPlan) (used : Consumed)
    (state : RefillState) (ledger : RefillLedger) : Scheduled σ RoundOutcome := do
  let after ← refillWave run plan used state
  let (after, ledger) ← Exec.ofExcept (reclaim run.input after ledger)
  let used ← Exec.ofExcept after.consumed
  let ledger := { ledger with
    rounds := ledger.rounds ++
      [roundAudit run.digests round plan after used ledger.refundedChars] }
  if progressed state after then pure ⟨after, ledger, false⟩
  else pure (stopRefill after ledger (lit "no_progress"))

/-- One refill round. -/
def refillRound (run : RunContext σ) (round : ℕ) (state : RefillState) (ledger : RefillLedger) :
    Scheduled σ RoundOutcome := do
  let now ← Exec.ask run.ports.nowMs
  if run.input.workDeadlineMs ≤ now ∨ state.stageDeadlineExhausted = true then
    pure (stopRefill state ledger (lit "deadline"))
  else do
    let (state, ledger) ← Exec.ofExcept (reclaim run.input state ledger)
    let used ← Exec.ofExcept state.consumed
    let plan := planRefill run.input state used
    if plan.plannedCount = 0 then
      pure (stopRefill state ledger
        (if plan.hasPending then lit "quota_exhausted" else lit "complete"))
    else runRound run round plan used state ledger

/-- The refill rounds, until one of them stops. -/
def refillRounds (run : RunContext σ) :
    List ℕ → RefillState → RefillLedger → Scheduled σ (RefillState × RefillLedger)
  | [], state, ledger => pure (state, ledger)
  | round :: rest, state, ledger => do
    let outcome ← refillRound run round state ledger
    if outcome.stopped then pure (outcome.state, outcome.ledger)
    else refillRounds run rest outcome.state outcome.ledger

/-- The audit of the refill. -/
def refillAudit (profile : NormalizedScannerSettings) (ledger : RefillLedger) (used : Consumed) :
    RefillAudit where
  policyVersion := lit "budget_refill_v3"
  stopReason := ledger.stopReason
  maxRounds := 2
  candidateCap := profile.maxCandidateFiles
  classificationPageCap := profile.maxTotalPdfClassificationPages
  extractionCap := profile.maxPdfTextExtractions
  contextCharCap := profile.context.globalMaxChars
  candidateSlotsUsed := used.candidates
  classificationPagesHeld := used.heldPages
  extractionSlotsUsed := used.extractions
  refundedChars := ledger.refundedChars
  refundedClassificationPages := used.refundedPages
  rounds := ledger.rounds

/-- Run up to two refill rounds, and validate their audit. -/
def runRefills (run : RunContext σ) (state : RefillState) :
    Scheduled σ (RefillState × RefillAudit) := do
  let (state, ledger) ← refillRounds run [1, 2] state ⟨lit "round_limit", 0, []⟩
  let used ← Exec.ofExcept state.consumed
  let audit := refillAudit run.input.profile ledger used
  Exec.ofExcept (audit.validate.mapError SchedulerFailure.internal)
  pure (state, audit)

end DailyReport
