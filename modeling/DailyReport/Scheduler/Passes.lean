import DailyReport.Scheduler.Refill

/-!
# The passes of a run

A run freezes stage A, classifies, freezes stage B and parses (`firstPass`); under the refill policy
it then refills (`refillPass`).  At the end every file whose source is known to have changed is
marked (`taintPass`), and the cache is told which entries were used (`touchPass`).  The state after
`runPasses` is the one that both projections read.
-/

namespace DailyReport

open Lib

variable {σ : Type} [UnicodeCase]

/-- Stage A of a run. -/
def stageA (input : ScheduledRunInput) : List ClassifiedPlan :=
  ClassificationPlan.build (input.discovery.map planCandidate) input.profile
    input.profile.maxTotalPdfClassificationPages

/-- The classifier build of the run, which has to be known where there are PDFs. -/
def resolveClassifierBuild (input : ScheduledRunInput) : Except SchedulerFailure Text :=
  match input.workers.classifierBuild with
  | some build => .ok build
  | none =>
    if (stageA input).any fun plan => decide (plan.pdfClassification ≠ .notPdf) then
      .error (.new .workerHandshakeFailed
        (lit "classifier build is required when PDFs are classified") false .process)
    else .ok (List.replicate 64 '0')

/-- The context of a run. -/
def runContext (ports : Ports σ) (digests : Digests) (input : ScheduledRunInput) :
    Except SchedulerFailure (RunContext σ) := do
  let classifierHash ←
    (classifierProfileHash digests input.profile).mapError SchedulerFailure.internal
  let classifierBuild ← resolveClassifierBuild input
  return {
    ports := ports
    digests := digests
    input := input
    classifierHash := classifierHash
    classifierBuild := classifierBuild
    concurrency := max input.profile.execution.maxWorkers 1 }

/-- The plans that stage B decides: those the deadline did not stop and the budget did not keep from
the classifier. -/
def stageBPlans (classified : List ClassifiedPlan) (runtime : Finset Text) : List ClassifiedPlan :=
  classified.filter fun plan =>
    decide (plan.fileIdentity ∉ runtime) &&
      decide (plan.pdfClassification ≠ .notClassifiedByBudget)

/-- The state of a run after its first pass, and the warnings of its classification cache. -/
structure FirstPass where
  state : RefillState
  classificationWarnings : List Diagnostic

/-- The state that the first pass leaves behind. -/
def firstState (input : ScheduledRunInput) (out : ClassificationOutputs)
    (model : ContextBudgetModel) (admission : List AdmissionDecision) (parses : ParsePhase) :
    RefillState where
  classified := stageA input
  admission := admission
  classifications := out.results
  audits := out.audits
  runtime := out.runtimeNotParsed
  freshHits := out.freshHits
  outputs := { parses.outputs with classificationCacheReceipts := out.cacheReceipts }
  model := model
  stageDeadlineExhausted := out.stageDeadlineExhausted || parses.stageDeadlineExhausted

/-- Stage B of the first pass. -/
def firstDecisions (input : ScheduledRunInput) (out : ClassificationOutputs)
    (model : ContextBudgetModel) : List AdmissionDecision :=
  ContentAdmissionPlan.build (stageBPlans (stageA input) out.runtimeNotParsed) input.profile model
    out.results

/-- The first pass: classify, freeze stage B, parse. -/
def firstPass (run : RunContext σ) : Scheduled σ FirstPass := do
  let out ← runClassifications run (stageA run.input)
  let model ← Exec.ofExcept (budgetModel run.input
    (fixedSections run.input (stageA run.input) out.results out.runtimeNotParsed))
  let admission := firstDecisions run.input out model
  let parses ← runParses run out.results out.runtimeNotParsed admission
  pure ⟨firstState run.input out model admission parses, out.cacheWriteWarnings⟩

/-- The refill, under the policy that has one. -/
def refillPass (run : RunContext σ) (state : RefillState) :
    Scheduled σ (RefillState × Option RefillAudit) :=
  if run.input.profile.admissionPolicyVersion = budgetRefillV3 then do
    let (state, audit) ← runRefills run state
    pure (state, some audit)
  else pure (state, none)

/-- A file whose source changed has a result that says so, unless it has one already. -/
def markTainted (digests : Digests) (outputs : ParseOutputs) (file : DiscoveredFileOut) :
    ParseOutputs :=
  { outputs with
    results :=
      if file.fileIdentity ∈ outputs.results then outputs.results
      else outputs.results.insert file.fileIdentity (sourceVersionChangedParse digests file)
    parseCacheStatus := outputs.parseCacheStatus.insert file.fileIdentity .miss
    parseCacheMissReason :=
      outputs.parseCacheMissReason.insert file.fileIdentity .sourceVersionChanged }

/-- Mark the file if its source is known to have changed. -/
def taintFile (run : RunContext σ) (outputs : ParseOutputs) (file : DiscoveredFileOut) :
    Scheduled σ ParseOutputs := do
  let tainted ← Exec.ask (run.ports.isTainted file.path)
  pure (if tainted then markTainted run.digests outputs file else outputs)

/-- Mark the files whose source is known to have changed. -/
def taintPass (run : RunContext σ) (state : RefillState) : Scheduled σ RefillState := do
  let outputs ← run.input.discovery.foldlM (taintFile run) state.outputs
  pure { state with outputs := outputs }

/-- The warning of an access touch that was skipped. -/
def skippedTouch (e : CachePortError) : Diagnostic where
  errorCode := .cacheWriteFailed
  message := lit "cache access touch skipped: " ++ (e.diagnostic .cache).message
  retryable := true
  stage := .cache
  filePath := none
  backend := none

/-- Tell the cache which entries were used. -/
def touchPass (run : RunContext σ) (state : RefillState) : Scheduled σ RefillState := do
  let now ← Exec.ask run.ports.nowMs
  let touched ← Exec.ask
    (run.ports.touchAccess now state.outputs.parseFreshHits state.freshHits)
  match touched with
  | .ok () => pure state
  | .error (.deadlineExhausted _) => pure { state with stageDeadlineExhausted := true }
  | .error e =>
    pure { state with outputs := { state.outputs with
      cacheWriteWarnings := state.outputs.cacheWriteWarnings ++ [skippedTouch e] } }

/-- What the passes of a run leave behind. -/
structure PassesOutcome where
  state : RefillState
  refillAudit : Option RefillAudit
  classificationWarnings : List Diagnostic

/-- All passes of a run. -/
def runPasses (run : RunContext σ) : Scheduled σ PassesOutcome := do
  let first ← firstPass run
  let refilled ← refillPass run first.state
  let tainted ← taintPass run refilled.1
  let state ← touchPass run tainted
  pure ⟨state, refilled.2, first.classificationWarnings⟩

end DailyReport
