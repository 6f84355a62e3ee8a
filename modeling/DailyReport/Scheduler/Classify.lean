import DailyReport.Lib.Chunk
import DailyReport.Scheduler.Ports

/-!
# The classification phase

`runClassifications` first freezes the tasks in plan order: a PDF excluded by the budget gets its
result at once, a cached one its cached result, a PDF the deadline stops is marked, and the others
are queued.  The queue is then dispatched in waves of at most `concurrency` calls
(`classificationWaves`), each while the deadline is not reached, and the results of a wave are
merged in order (`mergeClassification`).
-/

namespace DailyReport

open Lib

/-! ### Results -/

/-- The audits of the classifications by file identity. -/
abbrev ClassificationAudits := AList fun _ : Text => PdfClassificationAuditV1

def sourceVersionChangedClassification (identity : Text) : PdfClassificationResult where
  fileIdentity := identity
  status := .error
  pageCount := none
  resultExaminedPages := none
  errorCode := some (lit "SOURCE_VERSION_CHANGED")

/-- What the classification phase hands on.  Of the metrics it updates, only the flag that the stage
ran into its deadline is read again. -/
structure ClassificationOutputs where
  results : Classifications
  audits : ClassificationAudits
  runtimeNotParsed : Finset Text
  freshHits : List Text
  cacheReceipts : List ClassificationCacheWriteRecord
  cacheWriteWarnings : List Diagnostic
  stageDeadlineExhausted : Bool

namespace ClassificationOutputs

def empty : ClassificationOutputs where
  results := ∅
  audits := ∅
  runtimeNotParsed := ∅
  freshHits := []
  cacheReceipts := []
  cacheWriteWarnings := []
  stageDeadlineExhausted := false

/-- The deadline stopped the file. -/
def stop (out : ClassificationOutputs) (identity : Text) : ClassificationOutputs :=
  { out with
    runtimeNotParsed := insert identity out.runtimeNotParsed
    stageDeadlineExhausted := true }

/-- The deadline stopped files that were queued. -/
def stopAll (out : ClassificationOutputs) (identities : List Text) : ClassificationOutputs :=
  { out with
    runtimeNotParsed := out.runtimeNotParsed ∪ identities.toFinset
    stageDeadlineExhausted := true }

/-- A result without an audit. -/
def record (out : ClassificationOutputs) (result : PdfClassificationResult) :
    ClassificationOutputs :=
  { out with results := out.results.insert result.fileIdentity result }

/-- A result with its audit. -/
def recordAudited (out : ClassificationOutputs) (result : PdfClassificationResult)
    (audit : PdfClassificationAuditV1) : ClassificationOutputs :=
  { out with
    results := out.results.insert result.fileIdentity result
    audits := out.audits.insert result.fileIdentity audit }

end ClassificationOutputs

/-- The result of a PDF that the budget keeps from the classifier. -/
def excludedResult (identity : Text) : PdfClassificationResult where
  fileIdentity := identity
  status := .notClassifiedByBudget
  pageCount := none
  resultExaminedPages := some 0
  errorCode := none

def excludedAudit (classifierBuild classifierHash : Text) : PdfClassificationAuditV1 where
  pageAudit := none
  status := .notClassifiedByBudget
  pageCount := none
  classificationCacheStatus := .notEligible
  classificationCacheMissReason := []
  resultExaminedPages := some 0
  runInspectedPages := some 0
  nominalChargedPages := 0
  durationMs := 0
  transport := .notApplicable
  attemptCount := 0
  classifierBuild := classifierBuild
  classifierProfileHash := classifierHash

namespace ClassificationCacheEntry

def classificationStatus (entry : ClassificationCacheEntry) : PdfClassificationStatus :=
  if entry.status = lit "text_in_parse_window" then .textInParseWindow else .noTextInParseWindow

def result (entry : ClassificationCacheEntry) (identity : Text) : PdfClassificationResult where
  fileIdentity := identity
  status := entry.classificationStatus
  pageCount := some entry.pageCount
  resultExaminedPages := some entry.resultExaminedPages
  errorCode := none

/-- The pages of a cached result, reconstructed from the policy where the entry does not list
them. -/
def pages (entry : ClassificationCacheEntry) (chargedPages : ℕ) (policy : Text) : PdfPageAudit :=
  entry.pageAudit.getD
    { policyVersion := policy
      checkedPages :=
        (pdfSamplePages entry.pageCount chargedPages policy).take entry.resultExaminedPages
      observations := none }

def audit (entry : ClassificationCacheEntry) (chargedPages : ℕ)
    (policy classifierBuild classifierHash : Text) : PdfClassificationAuditV1 where
  pageAudit := some (entry.pages chargedPages policy)
  status := entry.classificationStatus
  pageCount := some entry.pageCount
  classificationCacheStatus := .fresh
  classificationCacheMissReason := []
  resultExaminedPages := some entry.resultExaminedPages
  runInspectedPages := some 0
  nominalChargedPages := chargedPages
  durationMs := 0
  transport := .notApplicable
  attemptCount := 0
  classifierBuild := classifierBuild
  classifierProfileHash := classifierHash

end ClassificationCacheEntry

/-! ### Freezing the tasks -/

/-- A PDF whose classification is queued. -/
structure ClassificationTask where
  file : DiscoveredFileOut
  guard : SourceGuardV2
  request : ClassifyOperation
  ownTimeoutMs : ℕ
  classifierHash : Text
  classifierBuild : Text
  cacheMissReason : Text
  nominalChargedPages : ℕ
  deriving DecidableEq

/-- The outputs so far and the tasks queued so far. -/
structure ClassificationPhase where
  outputs : ClassificationOutputs
  tasks : List ClassificationTask

variable {σ : Type}

/-- The classifier hash of a page charge: a shorter window has its own cache identity. -/
def chargedClassifierHash (digests : Digests) (profile : NormalizedScannerSettings)
    (classifierHash : Text) (chargedPages : ℕ) : Except SchedulerFailure Text :=
  if chargedPages = profile.parse.pdf.maxPages then .ok classifierHash
  else
    (classifierProfileHash digests { profile with
      parse := { profile.parse with
        pdf := { profile.parse.pdf with maxPages := chargedPages } } }).mapError
      SchedulerFailure.internal

/-- Queue a PDF that is not in the cache, while there is time left. -/
def queueClassification (run : RunContext σ) (file : DiscoveredFileOut) (guard : SourceGuardV2)
    (chargedPages : ℕ) (classifierHash : Text) (reason : ClassificationCacheMissReason)
    (phase : ClassificationPhase) : Scheduled σ ClassificationPhase := do
  let now ← Exec.ask run.ports.nowMs
  if run.input.workDeadlineMs - now = 0 then
    pure { phase with outputs := phase.outputs.stop file.fileIdentity }
  else do
    let requestId ← Exec.ask run.ports.nextRequestId
    let task : ClassificationTask :=
      { file := file
        guard := guard
        request :=
          { requestId := requestId
            payload :=
              { filePath := file.path
                sourceVersion := file.sourceVersion
                maxPages := chargedPages
                policyVersion := run.input.profile.classifierPolicyVersion } }
        ownTimeoutMs :=
          min run.input.profile.pdfClassificationTimeoutMs (run.input.workDeadlineMs - now)
        classifierHash := classifierHash
        classifierBuild := run.classifierBuild
        cacheMissReason := reason.asStr
        nominalChargedPages := chargedPages }
    pure { phase with tasks := phase.tasks ++ [task] }

/-- Take a verified PDF from the cache, or queue it. -/
def lookupClassification (run : RunContext σ) (file : DiscoveredFileOut) (guard : SourceGuardV2)
    (chargedPages : ℕ) (classifierHash : Text) (phase : ClassificationPhase) :
    Scheduled σ ClassificationPhase := do
  let lookup ← Exec.ask (run.ports.lookupClassification file classifierHash run.classifierBuild
    (decide (file.fileIdentity ∈ run.input.existedBefore)))
  match lookup with
  | .error e => throw ⟨e.diagnostic .cache⟩
  | .ok (.fresh entry) =>
    pure { phase with
      outputs :=
        { phase.outputs.recordAudited (entry.result file.fileIdentity)
            (entry.audit chargedPages run.input.profile.classifierPolicyVersion run.classifierBuild
              classifierHash) with
          freshHits := phase.outputs.freshHits ++ [file.fileIdentity] } }
  | .ok (.miss reason) =>
    queueClassification run file guard chargedPages classifierHash reason phase

/-- Verify a PDF before its cached result is used. -/
def verifyClassification (run : RunContext σ) (file : DiscoveredFileOut) (chargedPages : ℕ)
    (classifierHash : Text) (phase : ClassificationPhase) : Scheduled σ ClassificationPhase := do
  let now ← Exec.ask run.ports.nowMs
  if run.input.workDeadlineMs ≤ now then
    pure { phase with outputs := phase.outputs.stop file.fileIdentity }
  else
    match expectedGuard file with
    | none => pure phase
    | some guard => do
      let verified ← Exec.ask (run.ports.verify file.path guard)
      if verified then
        lookupClassification run file guard chargedPages classifierHash phase
      else
        pure { phase with
          outputs := phase.outputs.record (sourceVersionChangedClassification file.fileIdentity) }

/-- Freeze one plan. -/
def freezeClassification (run : RunContext σ) (phase : ClassificationPhase)
    (plan : ClassifiedPlan) : Scheduled σ ClassificationPhase :=
  match plan.pdfClassification with
  | .notPdf => pure phase
  | .notClassifiedByBudget =>
    pure { phase with
      outputs := phase.outputs.recordAudited (excludedResult plan.fileIdentity)
        (excludedAudit run.classifierBuild run.classifierHash) }
  | .classify chargedPages => do
    let hash ← Exec.ofExcept
      (chargedClassifierHash run.digests run.input.profile run.classifierHash chargedPages)
    match run.input.snapshot.lookup plan.fileIdentity with
    | none => pure phase
    | some file =>
      verifyClassification run file chargedPages hash phase

/-! ### Waves -/

def ClassifyStatus.classificationStatus : ClassifyStatus → PdfClassificationStatus
  | .textInParseWindow => .textInParseWindow
  | .noTextInParseWindow => .noTextInParseWindow
  | .unknown => .unknown
  | .error => .error

/-- The error codes of the classifier that mean something to the scheduler. -/
def classifierErrorCode (code : Text) : Text :=
  if code = lit "SOURCE_VERSION_CHANGED" then lit "SOURCE_VERSION_CHANGED"
  else if code = lit "PARSER_TIMEOUT" then lit "PARSER_TIMEOUT"
  else if code = lit "PDF_PROTECTED" then lit "PDF_PROTECTED"
  else lit "PARSER_FAILED"

def classifierFailureCode : ErrorCode → Text
  | .sourceVersionChanged => lit "SOURCE_VERSION_CHANGED"
  | .parserTimeout => lit "PARSER_TIMEOUT"
  | _ => lit "PARSER_FAILED"

/-- The result of one call of the classifier. -/
def classificationOf (identity : Text) : Except Diagnostic ClassifyResult → PdfClassificationResult
  | .ok result =>
    { fileIdentity := identity
      status := result.status.classificationStatus
      pageCount := result.pageCount
      resultExaminedPages := result.resultExaminedPages
      errorCode := result.diagnostic.map fun d => classifierErrorCode d.errorCode }
  | .error diagnostic =>
    { fileIdentity := identity
      status := .unknown
      pageCount := none
      resultExaminedPages := none
      errorCode := some (classifierFailureCode diagnostic.errorCode) }

def observedPages : Except Diagnostic ClassifyResult → Option PdfPageAudit
  | .ok result => result.pageAudit
  | .error _ => none

/-- The audit of a call that was made. -/
def ClassificationTask.audit (task : ClassificationTask) (execution : PdfClassifierExecution)
    (result : PdfClassificationResult) : PdfClassificationAuditV1 where
  pageAudit := observedPages execution.outcome
  status := result.status
  pageCount := result.pageCount
  classificationCacheStatus := .miss
  classificationCacheMissReason := task.cacheMissReason
  resultExaminedPages := result.resultExaminedPages
  runInspectedPages := if execution.attemptCount = 1 then result.resultExaminedPages else none
  nominalChargedPages := task.nominalChargedPages
  durationMs := execution.durationMs
  transport := execution.transport
  attemptCount := execution.attemptCount
  classifierBuild := task.classifierBuild
  classifierProfileHash := task.classifierHash

/-- The cache record of a successful classification. -/
def classificationCacheRecord (file : DiscoveredFileOut) (classifierHash classifierBuild : Text)
    (result : PdfClassificationResult) : Option ClassificationCacheWriteRecord := do
  let kind ← file.sourceGuardKind
  let hash ← file.sourceGuardSha256
  let status ← match result.status with
    | .textInParseWindow => some (lit "text_in_parse_window")
    | .noTextInParseWindow => some (lit "no_text_in_parse_window")
    | _ => none
  let pages ← result.pageCount
  let examined ← result.resultExaminedPages
  if pages = 0 ∨ examined = 0 then none
  else
    some {
      fileIdentity := file.fileIdentity
      sourceVersion := file.sourceVersion
      sourceGuardKind := kind
      sourceGuardSha256 := hash
      classifierProfileHash := classifierHash
      classifierBuild := classifierBuild
      status := status
      pageCount := pages
      resultExaminedPages := examined }

/-- The warning of a cache write that was skipped. -/
def skippedWrite (what : Text) (e : CachePortError) (path backend : Text) : Diagnostic where
  errorCode := .cacheWriteFailed
  message := what ++ lit " cache write skipped: " ++ (e.diagnostic .cache).message
  retryable := true
  stage := .cache
  filePath := some path
  backend := some backend

/-- Write a successful classification to the cache while there is time left. -/
def writeClassification (run : RunContext σ) (task : ClassificationTask)
    (result : PdfClassificationResult) (out : ClassificationOutputs) :
    Scheduled σ ClassificationOutputs := do
  let now ← Exec.ask run.ports.nowMs
  if now < run.input.workDeadlineMs then
    match classificationCacheRecord task.file task.classifierHash task.classifierBuild result with
    | none => pure out
    | some record => do
      let now ← Exec.ask run.ports.nowMs
      let written ← Exec.ask (run.ports.writeClassification now record)
      match written with
      | .ok () => pure { out with cacheReceipts := out.cacheReceipts ++ [record] }
      | .error (.deadlineExhausted _) => pure { out with stageDeadlineExhausted := true }
      | .error e =>
        pure { out with
          cacheWriteWarnings := out.cacheWriteWarnings ++
            [skippedWrite (lit "classification") e task.file.path (lit "rust_pdfium_v3")] }
  else pure out

/-- Merge what one call of a wave returned.  A source that changed discards the call, and a call
that was never made gets no audit. -/
def mergeClassification (run : RunContext σ)
    (out : ClassificationOutputs) (call : ClassificationTask × PdfClassifierExecution) :
    Scheduled σ ClassificationOutputs :=
  let task := call.1
  let identity := task.file.fileIdentity
  let result := classificationOf identity call.2.outcome
  if result.errorCode = some (lit "SOURCE_VERSION_CHANGED") then
    pure (out.record (sourceVersionChangedClassification identity))
  else if call.2.attemptCount = 0 then pure (out.record result)
  else do
    let verified ← Exec.ask (run.ports.verify task.file.path task.guard)
    if verified then
      writeClassification run task result
        (out.recordAudited result (task.audit call.2 result))
    else pure (out.record (sourceVersionChangedClassification identity))

/-- Run one wave and merge its results in order. -/
def executeClassificationWave (run : RunContext σ)
    (wave : List ClassificationTask) (out : ClassificationOutputs) :
    Scheduled σ ClassificationOutputs := do
  let now ← Exec.ask run.ports.nowMs
  let executions ← wave.mapM fun task => Exec.ask
    (run.ports.classifyPdf task.request (min task.ownTimeoutMs (run.input.workDeadlineMs - now)))
  (wave.zip executions).foldlM (mergeClassification run) out

/-- Dispatch the waves one after the other; at the deadline the rest is stopped. -/
def classificationWaves (run : RunContext σ) :
    List (List ClassificationTask) → ClassificationOutputs → Scheduled σ ClassificationOutputs
  | [], out => pure out
  | wave :: rest, out => do
    let now ← Exec.ask run.ports.nowMs
    if run.input.workDeadlineMs ≤ now then
      pure (out.stopAll ((wave :: rest).flatten.map fun task => task.file.fileIdentity))
    else do
      let out ← executeClassificationWave run wave out
      classificationWaves run rest out

/-- The classification phase over the given plans. -/
def runClassifications (run : RunContext σ) (classified : List ClassifiedPlan) :
    Scheduled σ ClassificationOutputs := do
  let phase ← classified.foldlM (freezeClassification run) ⟨ClassificationOutputs.empty, []⟩
  classificationWaves run (chunks run.concurrency phase.tasks) phase.outputs

end DailyReport
