import DailyReport.Scheduler.Classify

/-!
# The parse phase

`runParses` first walks the admission decisions in order: a file is skipped, stopped by the
deadline, served from the cache or queued (`freezeParse`).  The queue is dispatched in waves of at
most `concurrency` parsers (`parseWaves`); the guard of a file is verified before its parser starts
and again after a success, and a success is written to the cache while there is time left.
-/

namespace DailyReport

open Lib

/-! ### Results of a changed source -/

def sourceChangedDiagnostic (file : DiscoveredFileOut) : Diagnostic where
  errorCode := .sourceVersionChanged
  message := lit "file source version changed before or during parsing"
  retryable := true
  stage := .parse
  filePath := some file.path
  backend := some file.extension

/-- The result of a file whose source changed before it was parsed. -/
def sourceVersionChangedParse (digests : Digests) (file : DiscoveredFileOut) : ParseResult where
  fileIdentity := file.fileIdentity
  content := []
  evidenceAudit := none
  parserBackend := lit "not_parsed"
  workerLane := lit "not_parsed"
  truncated := false
  contentSha256 := digests.sha256Hex []
  parseStatus := .error
  error := some (sourceChangedDiagnostic file)
  warnings := []
  failureClass := lit "deterministic"
  fallbackBackend := []
  fallbackReasonCode := []
  parseTransport := .notApplicable
  parseAttemptCount := 0
  primaryDurationMs := 0
  fallbackDurationMs := 0
  parseDurationMs := 0

/-- The result of a file whose source changed while it was parsed: what was executed stays on
record, what it produced does not. -/
def sourceVersionChangedAfterParse (digests : Digests) (file : DiscoveredFileOut)
    (executed : ParseResult) : ParseResult where
  fileIdentity := file.fileIdentity
  content := []
  evidenceAudit := none
  parserBackend := executed.parserBackend
  workerLane := executed.workerLane
  truncated := false
  contentSha256 := digests.sha256Hex []
  parseStatus := .error
  error := some (sourceChangedDiagnostic file)
  warnings := executed.warnings
  failureClass := lit "deterministic"
  fallbackBackend := executed.fallbackBackend
  fallbackReasonCode := executed.fallbackReasonCode
  parseTransport := executed.parseTransport
  parseAttemptCount := executed.parseAttemptCount
  primaryDurationMs := executed.primaryDurationMs
  fallbackDurationMs := executed.fallbackDurationMs
  parseDurationMs := executed.parseDurationMs

/-- The result says that its source changed. -/
def isSourceVersionChangedResult (result : ParseResult) : Bool :=
  result.error.any fun d => decide (d.errorCode = .sourceVersionChanged)

/-- A cached success. -/
def CacheEntry.parseResult (entry : CacheEntry) (identity : Text) : ParseResult where
  fileIdentity := identity
  content := entry.content
  evidenceAudit := entry.evidenceAudit
  parserBackend := entry.parserBackend
  workerLane := entry.workerLane
  truncated := entry.truncated
  contentSha256 := entry.contentSha256
  parseStatus := .success
  error := none
  warnings := []
  failureClass := []
  fallbackBackend := []
  fallbackReasonCode := []
  parseTransport := .notApplicable
  parseAttemptCount := 0
  primaryDurationMs := 0
  fallbackDurationMs := 0
  parseDurationMs := 0

/-! ### Outputs -/

structure ParseOutputs where
  results : AList fun _ : Text => ParseResult
  runtimeNotParsed : Finset Text
  parseCacheReceipts : List CacheWriteRecord
  classificationCacheReceipts : List ClassificationCacheWriteRecord
  parseProfileHashes : AList fun _ : Text => Text
  parseCacheStatus : AList fun _ : Text => CacheStatus
  parseCacheMissReason : AList fun _ : Text => CacheMissReason
  cacheWriteWarnings : List Diagnostic
  parseWarnings : List Diagnostic
  parseFreshHits : List Text

namespace ParseOutputs

def empty : ParseOutputs where
  results := ∅
  runtimeNotParsed := ∅
  parseCacheReceipts := []
  classificationCacheReceipts := []
  parseProfileHashes := ∅
  parseCacheStatus := ∅
  parseCacheMissReason := ∅
  cacheWriteWarnings := []
  parseWarnings := []
  parseFreshHits := []

/-- A result under the profile it was parsed with. -/
def record (out : ParseOutputs) (identity : Text) (result : ParseResult) (profileHash : Text) :
    ParseOutputs :=
  { out with
    results := out.results.insert identity result
    parseProfileHashes := out.parseProfileHashes.insert identity profileHash }

/-- What the cache answered about a file. -/
def lookedUp (out : ParseOutputs) (identity : Text) (status : CacheStatus)
    (reason : CacheMissReason) : ParseOutputs :=
  { out with
    parseCacheStatus := out.parseCacheStatus.insert identity status
    parseCacheMissReason := out.parseCacheMissReason.insert identity reason }

end ParseOutputs

/-- An admitted file queued for its parser. -/
structure ParseTask where
  file : DiscoveredFileOut
  route : RouteKind
  ownTimeoutMs : ℕ
  profileHash : Text
  deriving DecidableEq

/-- The outputs and the tasks of the parse phase, and the flag that it ran into its deadline. -/
structure ParsePhase where
  outputs : ParseOutputs
  tasks : List ParseTask
  stageDeadlineExhausted : Bool

namespace ParsePhase

/-- The deadline stopped the file. -/
def stop (phase : ParsePhase) (identity : Text) : ParsePhase :=
  { phase with
    outputs := { phase.outputs with
      runtimeNotParsed := insert identity phase.outputs.runtimeNotParsed }
    stageDeadlineExhausted := true }

/-- The deadline stopped files that were queued. -/
def stopAll (phase : ParsePhase) (identities : List Text) : ParsePhase :=
  { phase with
    outputs := { phase.outputs with
      runtimeNotParsed := phase.outputs.runtimeNotParsed ∪ identities.toFinset }
    stageDeadlineExhausted := true }

end ParsePhase

/-! ### Freezing the tasks -/

def routeTimeoutMs (route : RouteKind) (profile : NormalizedScannerSettings) : ℕ :=
  let byExtension (extension : Text) : ℕ :=
    (profile.execution.fileTimeoutByExtensionMs.lookup extension).getD
      profile.execution.fileTimeoutMs
  match route with
  | .pdf => byExtension (lit ".pdf")
  | .rustXls => byExtension (lit ".xls")
  | .rustXlsx => byExtension (lit ".xlsx")
  | _ => profile.execution.fileTimeoutMs

variable {σ : Type}

/-- Take a file from the cache, if its source is still the one that was cached. -/
def useCachedParse (run : RunContext σ) (file : DiscoveredFileOut)
    (entry : CacheEntry) (profileHash : Text) (phase : ParsePhase) : Scheduled σ ParsePhase :=
  match expectedGuard file with
  | none => pure phase
  | some guard => do
    let verified ← Exec.ask (run.ports.verify file.path guard)
    if verified then
      pure { phase with
        outputs :=
          { (phase.outputs.lookedUp file.fileIdentity .fresh .none).record file.fileIdentity
              (entry.parseResult file.fileIdentity) profileHash with
            parseFreshHits := phase.outputs.parseFreshHits ++ [file.fileIdentity] } }
    else
      pure { phase with
        outputs := phase.outputs.record file.fileIdentity (sourceVersionChangedParse run.digests file)
          profileHash }

/-- Queue a file that is not in the cache, while there is time left. -/
def queueParse (run : RunContext σ) (file : DiscoveredFileOut)
    (route : RouteKind) (profileHash : Text) (phase : ParsePhase) : Scheduled σ ParsePhase := do
  let now ← Exec.ask run.ports.nowMs
  if run.input.workDeadlineMs ≤ now then pure (phase.stop file.fileIdentity)
  else do
    let now ← Exec.ask run.ports.nowMs
    let task : ParseTask :=
      { file := file
        route := route
        ownTimeoutMs := min (routeTimeoutMs route run.input.profile) (run.input.workDeadlineMs - now)
        profileHash := profileHash }
    pure { phase with tasks := phase.tasks ++ [task] }

/-- Take an admitted file from the cache, or queue it. -/
def lookupParse (run : RunContext σ)
    (file : DiscoveredFileOut) (route : RouteKind) (phase : ParsePhase) :
    Scheduled σ ParsePhase := do
  let now ← Exec.ask run.ports.nowMs
  if run.input.workDeadlineMs ≤ now then pure (phase.stop file.fileIdentity)
  else do
    let lookup ← Exec.ask (run.ports.lookupParse file route
      (decide (file.fileIdentity ∈ run.input.existedBefore)))
    match lookup with
    | .error e => throw ⟨e.diagnostic .cache⟩
    | .ok ⟨profileHash, .fresh entry⟩ =>
      useCachedParse run file entry profileHash phase
    | .ok ⟨profileHash, .miss reason⟩ =>
      queueParse run file route profileHash
        { phase with outputs := phase.outputs.lookedUp file.fileIdentity .miss reason }

/-- The file needs no parser: a PDF without text is shown by its metadata. -/
def isMetadataOnly (classifications : Classifications) (identity : Text) (route : RouteKind) :
    Bool :=
  decide (route = .pdf) &&
    decide ((classifications.lookup identity).map PdfClassificationResult.status =
      some .noTextInParseWindow)

/-- Freeze one decision. -/
def freezeParse (run : RunContext σ)
    (classifications : Classifications) (runtimeClassification : Finset Text)
    (phase : ParsePhase) (decision : AdmissionDecision) : Scheduled σ ParsePhase :=
  match decision.action with
  | .admitRoute route =>
    match run.input.snapshot.lookup decision.fileIdentity with
    | none => pure phase
    | some file =>
      if decision.fileIdentity ∈ runtimeClassification then pure phase
      else if isMetadataOnly classifications decision.fileIdentity route then pure phase
      else lookupParse run file route phase
  | _ => pure phase

/-! ### Waves -/

/-- A task whose guard was verified, with its request. -/
structure StartedParse where
  task : ParseTask
  guard : SourceGuardV2
  request : ParseRequest
  deriving DecidableEq

/-- The request of a task in a wave with `remaining` time. -/
def ParseTask.request (task : ParseTask) (input : ScheduledRunInput)
    (classifications : Classifications) (remaining : ℕ) : ParseRequest where
  selectedPdfPages :=
    ((classifications.lookup task.file.fileIdentity).bind PdfClassificationResult.pageCount).map
      fun count => pdfSamplePages count input.profile.parse.pdf.maxPages
        input.profile.parse.pdf.selectionPolicyVersion
  file := task.file
  route := task.route
  timeoutMs := min task.ownTimeoutMs remaining

/-- Verify the guard of a task before its parser starts. -/
def startParse (run : RunContext σ)
    (classifications : Classifications) (remaining : ℕ) (wave : ParseOutputs × List StartedParse)
    (task : ParseTask) : Scheduled σ (ParseOutputs × List StartedParse) :=
  match expectedGuard task.file with
  | none => pure wave
  | some guard => do
    let verified ← Exec.ask (run.ports.verify task.file.path guard)
    if verified then
      pure (wave.1, wave.2 ++ [⟨task, guard, task.request run.input classifications remaining⟩])
    else
      pure (wave.1.record task.file.fileIdentity (sourceVersionChangedParse run.digests task.file)
        task.profileHash, wave.2)

/-- The contract of the workers. -/
def workerContractVersion : Text := lit "ai_daily_worker_v4"

/-- The identity that a successful parse is cached under: contract, version and build. -/
def workerIdentityFor (input : ScheduledRunInput) : RouteKind → Text × Text × Text
  | .rustOffice | .rustXlsx | .rustXls | .rustLegacyOffice =>
    (input.workers.officeContract.getD workerContractVersion,
      input.workers.officeVersion.getD (lit "unknown"),
      input.workers.officeBuild.getD (lit "unknown"))
  | .pdf =>
    (input.workers.pdfContract.getD workerContractVersion,
      input.workers.pdfVersion.getD (lit "unknown"),
      input.workers.pdfBuild.getD (lit "unknown"))
  | .lightText => (lit "ai_daily_context_v1", input.engineVersion, input.engineBuild)

def parseCachePayloadVersion : ℕ := 1

/-- The cache record of a successful parse. -/
def StartedParse.cacheRecord (started : StartedParse) (input : ScheduledRunInput)
    (result : ParseResult) : CacheWriteRecord where
  fileIdentity := started.task.file.fileIdentity
  sourceVersion := started.task.file.sourceVersion
  sourceGuardKind := sourceGuardKindText started.guard.kind
  sourceGuardSha256 := started.guard.guardSha256.getD []
  parseProfileHash := started.task.profileHash
  content := result.content
  contentSha256 := result.contentSha256
  cachePayloadVersion := parseCachePayloadVersion
  evidenceAudit := result.evidenceAudit
  parserBackend := result.parserBackend
  workerLane := result.workerLane
  truncated := result.truncated
  workerContractVersion := (workerIdentityFor input started.task.route).1
  workerVersion := (workerIdentityFor input started.task.route).2.1
  workerBuild := (workerIdentityFor input started.task.route).2.2

/-- Write a success to the cache while there is time left. -/
def writeParse (run : RunContext σ) (started : StartedParse)
    (result : ParseResult) (phase : ParsePhase) : Scheduled σ ParsePhase := do
  let now ← Exec.ask run.ports.nowMs
  if now < run.input.workDeadlineMs then do
    let now ← Exec.ask run.ports.nowMs
    let written ← Exec.ask (run.ports.writeParse now (started.cacheRecord run.input result))
    match written with
    | .ok () =>
      pure { phase with outputs := { phase.outputs with
        parseCacheReceipts :=
          phase.outputs.parseCacheReceipts ++ [started.cacheRecord run.input result] } }
    | .error (.deadlineExhausted _) => pure { phase with stageDeadlineExhausted := true }
    | .error e =>
      pure { phase with outputs := { phase.outputs with
        cacheWriteWarnings := phase.outputs.cacheWriteWarnings ++
          [skippedWrite (lit "parse") e started.task.file.path started.task.route.backend] } }
  else pure phase

/-- A result of the wave goes on record. -/
def ParsePhase.record (phase : ParsePhase) (started : StartedParse) (result : ParseResult) :
    ParsePhase :=
  { phase with
    outputs := phase.outputs.record started.task.file.fileIdentity result
      started.task.profileHash }

/-- Merge what one parser of a wave returned. -/
def mergeParse (run : RunContext σ)
    (phase : ParsePhase) (call : StartedParse × ParseResult) : Scheduled σ ParsePhase :=
  let started := call.1
  let result := call.2
  let phase := { phase with outputs := { phase.outputs with
    parseWarnings := phase.outputs.parseWarnings ++ result.warnings } }
  if result.parseStatus = .success then do
    let verified ← Exec.ask (run.ports.verify started.task.file.path started.guard)
    if verified then do
      let phase ← writeParse run started result phase
      pure (phase.record started result)
    else
      pure (phase.record started
        (sourceVersionChangedAfterParse run.digests started.task.file result))
  else pure (phase.record started result)

/-- Run one wave and merge its results in order. -/
def executeParseWave (run : RunContext σ)
    (classifications : Classifications) (wave : List ParseTask) (phase : ParsePhase) :
    Scheduled σ ParsePhase := do
  let now ← Exec.ask run.ports.nowMs
  let begun ← wave.foldlM
    (startParse run classifications (run.input.workDeadlineMs - now))
    (phase.outputs, [])
  let results ← begun.2.mapM fun started => Exec.ask (run.ports.parse started.request)
  (begun.2.zip results).foldlM (mergeParse run) { phase with outputs := begun.1 }

/-- Dispatch the waves one after the other; at the deadline the rest is stopped. -/
def parseWaves (run : RunContext σ)
    (classifications : Classifications) :
    List (List ParseTask) → ParsePhase → Scheduled σ ParsePhase
  | [], phase => pure phase
  | wave :: rest, phase => do
    let now ← Exec.ask run.ports.nowMs
    if run.input.workDeadlineMs ≤ now then
      pure (phase.stopAll ((wave :: rest).flatten.map fun task => task.file.fileIdentity))
    else do
      let phase ← executeParseWave run classifications wave phase
      parseWaves run classifications rest phase

/-- The parse phase over the given decisions. -/
def runParses (run : RunContext σ) (classifications : Classifications)
    (runtimeClassification : Finset Text) (admission : List AdmissionDecision) :
    Scheduled σ ParsePhase := do
  let phase ← admission.foldlM (freezeParse run classifications runtimeClassification)
    ⟨ParseOutputs.empty, [], false⟩
  parseWaves run classifications (chunks run.concurrency phase.tasks) phase

end DailyReport
