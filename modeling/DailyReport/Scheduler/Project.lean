import DailyReport.Scheduler.Parse

/-!
# The two projections of a run

`buildEvidence` turns the state of a run into the evidence that is rendered, `buildFileResults` into
the rows that are stored.  Both look a file up in the decisions, the classifications, the runtime
sets and the parse results, each on its own (`fileEvidence`, `fileResult`).
-/

namespace DailyReport

open Lib

/-- The row of one file. -/
structure FileResultRecord where
  fileIdentity : Text
  relativePath : Text
  sourceVersion : Text
  parseProfileHash : Text
  cacheStatus : CacheStatus
  cacheMissReason : CacheMissReason
  parseStatus : ParseStatus
  parserBackend : Text
  workerLane : AuditWorkerLane
  truncated : Bool
  contentSha256 : Text
  primaryDurationMs : ℕ
  fallbackDurationMs : ℕ
  parseDurationMs : ℕ
  failureClass : Text
  fallbackBackend : Text
  fallbackReasonCode : Text
  parseTransport : ParseTransport
  parseAttemptCount : ℕ
  pdfClassification : Option PdfClassificationAuditV1
  error : Option Diagnostic
  deriving DecidableEq

/-! ### Shared pieces -/

def parseWorkerLane (lane : Text) : AuditWorkerLane :=
  if lane = lit "rust_core" then .rustCore
  else if lane = lit "rust_office_process_v3" then .rustOfficeProcessV3
  else if lane = lit "rust_pdf_process_v3" then .rustPdfProcessV3
  else .notParsed

/-- The line of a failed classification in the fixed sections. -/
def classifierErrorLine (plan : ClassifiedPlan) (classifications : Classifications)
    (runtime : Finset Text) : Option Text :=
  match plan.pdfClassification with
  | .classify _ =>
    if plan.fileIdentity ∈ runtime then none
    else
      let line (code : Text) : Text :=
        lit "- " ++ plan.relativePath ++ lit " | reason=parse_error | error=" ++ code
      match classifications.lookup plan.fileIdentity with
      | some ⟨_, .unknown, _, _, errorCode⟩ =>
        some (line (if errorCode = some (lit "PARSER_TIMEOUT") then lit "PARSER_TIMEOUT"
          else lit "PARSER_FAILED"))
      | some ⟨_, .error, _, _, errorCode⟩ =>
        some (line (if errorCode = some (lit "PDF_PROTECTED") then lit "PDF_PROTECTED"
          else lit "PARSER_FAILED"))
      | _ => none
  | _ => none

/-- What a failed classification means for its file: status, error code and whether to retry. -/
def classifierFailureSemantics (status : PdfClassificationStatus)
    (classification : Option PdfClassificationResult) : ParseStatus × ErrorCode × Bool :=
  let marker := classification.bind PdfClassificationResult.errorCode
  if marker = some (lit "SOURCE_VERSION_CHANGED") then (.error, .sourceVersionChanged, true)
  else if marker = some (lit "PDF_PROTECTED") ∧ status = .error then (.error, .pdfProtected, false)
  else if status = .unknown then
    if marker = some (lit "PARSER_TIMEOUT") then (.timeout, .parserTimeout, true)
    else (.error, .parserFailed, true)
  else (.error, .parserFailed, false)

/-- The `Debug` text of a classification status. -/
def classificationStatusText : PdfClassificationStatus → Text
  | .textInParseWindow => lit "TextInParseWindow"
  | .noTextInParseWindow => lit "NoTextInParseWindow"
  | .notClassifiedByBudget => lit "NotClassifiedByBudget"
  | .unknown => lit "Unknown"
  | .error => lit "Error"

def rejectErrorCode : RejectReason → ErrorCode
  | .sourceGuardUnavailable => .sourceGuardUnavailable
  | .profileRouteInvariant => .profileRouteInvariant

/-- The diagnostic of a rejected file. -/
def rejectDiagnostic (file : DiscoveredFileOut) (reason : RejectReason) : Diagnostic where
  errorCode := rejectErrorCode reason
  message := reason.asStr
  retryable := decide (reason = .sourceGuardUnavailable)
  stage := .parse
  filePath := some file.path
  backend := none

/-- The diagnostic of a file whose classification failed. -/
def classifierDiagnostic (file : DiscoveredFileOut) (status : PdfClassificationStatus)
    (errorCode : ErrorCode) (retryable : Bool) : Diagnostic where
  errorCode := errorCode
  message := lit "pdf classification " ++ classificationStatusText status
  retryable := retryable
  stage := .parse
  filePath := some file.path
  backend := some (lit "pdf_classifier")

/-- The result of a file whose source changed, if there is one. -/
def changedResult (outputs : ParseOutputs) (identity : Text) : Option ParseResult :=
  (outputs.results.lookup identity).filter isSourceVersionChangedResult

/-- The deadline stopped the classification or the parse of the file. -/
def stoppedAtRuntime (runtimeClassification : Finset Text) (outputs : ParseOutputs)
    (identity : Text) : Bool :=
  decide (identity ∈ runtimeClassification) || decide (identity ∈ outputs.runtimeNotParsed)

/-- The action of a plan, which its decision overrides. -/
def effectiveAction (admission : List AdmissionDecision) (plan : ClassifiedPlan) : PlanAction :=
  ((admission.find? fun decision => decide (decision.fileIdentity = plan.fileIdentity)).map
    AdmissionDecision.action).getD plan.action

/-! ### Evidence -/

/-- Evidence of a file without content. -/
def emptyEvidence (file : DiscoveredFileOut) (relativePath parserBackend : Text)
    (workerLane : AuditWorkerLane) (parseStatus : ParseStatus) (error : Option Diagnostic)
    (reason : Text) : ContextFileEvidence where
  fileIdentity := file.fileIdentity
  absolutePath := file.path
  relativePath := relativePath
  extension := file.extension
  sizeBytes := some file.sizeBytes
  content := []
  evidenceAudit := none
  parserBackend := parserBackend
  workerLane := workerLane
  cacheStatus := .miss
  parseStatus := parseStatus
  truncated := false
  error := error
  reason := some reason

/-- Evidence of a file with a parse result. -/
def resultEvidence (file : DiscoveredFileOut) (relativePath : Text) (result : ParseResult) :
    ContextFileEvidence where
  fileIdentity := file.fileIdentity
  absolutePath := file.path
  relativePath := relativePath
  extension := file.extension
  sizeBytes := some file.sizeBytes
  content := result.content
  evidenceAudit := result.evidenceAudit
  parserBackend := result.parserBackend
  workerLane := parseWorkerLane result.workerLane
  cacheStatus := .miss
  parseStatus := result.parseStatus
  truncated := result.truncated
  error := result.error
  reason := if result.parseStatus = .success then none else some (lit "parse_error")

/-- Evidence of an admitted file. -/
def admittedEvidence (file : DiscoveredFileOut) (relativePath : Text)
    (classifications : Classifications) (runtimeClassification : Finset Text)
    (outputs : ParseOutputs) : ContextFileEvidence :=
  if stoppedAtRuntime runtimeClassification outputs file.fileIdentity then
    emptyEvidence file relativePath (lit "not_parsed") .notParsed .notParsed none
      (lit "runtime_deadline_exhausted")
  else
    match outputs.results.lookup file.fileIdentity with
    | some result => resultEvidence file relativePath result
    | none =>
      if ((classifications.lookup file.fileIdentity).map PdfClassificationResult.status).getD
          .noTextInParseWindow = .noTextInParseWindow then
        emptyEvidence file relativePath (lit "pdf_metadata_v2") .rustCore .success none
          (lit "pdf_no_text_in_parse_window")
      else
        emptyEvidence file relativePath (lit "not_parsed") .notParsed .error
          (some ⟨.internalError, lit "admitted text pdf has no parse result", false, .parse,
            some file.path, none⟩)
          (lit "parse_error")

def fileEvidence (file : DiscoveredFileOut) (relativePath : Text) (action : PlanAction)
    (classifications : Classifications) (runtimeClassification : Finset Text)
    (outputs : ParseOutputs) : ContextFileEvidence :=
  match changedResult outputs file.fileIdentity with
  | some result =>
    emptyEvidence file relativePath result.parserBackend (parseWorkerLane result.workerLane) .error
      result.error (lit "source_version_changed")
  | none =>
    match action with
    | .notParsed reason =>
      emptyEvidence file relativePath (lit "not_parsed") .notParsed .notParsed none reason.asStr
    | .reject reason =>
      emptyEvidence file relativePath (lit "not_parsed") .notParsed .error
        (some (rejectDiagnostic file reason)) reason.asStr
    | .classifierFailed status =>
      let semantics :=
        classifierFailureSemantics status (classifications.lookup file.fileIdentity)
      emptyEvidence file relativePath (lit "not_parsed") .notParsed semantics.1
        (some (classifierDiagnostic file status semantics.2.1 semantics.2.2)) (lit "parse_error")
    | .admitRoute _ =>
      admittedEvidence file relativePath classifications runtimeClassification outputs

/-- The file of a plan and its path relative to the work directory. -/
def planFile (input : ScheduledRunInput) (plan : ClassifiedPlan) :
    Except SchedulerFailure (DiscoveredFileOut × Text) :=
  match input.snapshot.lookup plan.fileIdentity with
  | none => .error (.internal (lit "classified plan has no discovery file"))
  | some file =>
    match relativeContractPath input.platform input.workDir file.path with
    | .error message => .error (.internal message)
    | .ok relativePath => .ok (file, relativePath)

def buildEvidence (input : ScheduledRunInput) (classified : List ClassifiedPlan)
    (admission : List AdmissionDecision) (classifications : Classifications)
    (runtimeClassification : Finset Text) (outputs : ParseOutputs) :
    Except SchedulerFailure (List ContextFileEvidence) :=
  classified.mapM fun plan => do
    let file ← planFile input plan
    return fileEvidence file.1 file.2 (effectiveAction admission plan) classifications
      runtimeClassification outputs

/-! ### File results -/

/-- The part of a row that the disposition of its file decides. -/
structure FileDisposition where
  parseStatus : ParseStatus
  parserBackend : Text
  workerLane : AuditWorkerLane
  error : Option Diagnostic
  contentSha256 : Text
  truncated : Bool
  primaryDurationMs : ℕ
  fallbackDurationMs : ℕ
  parseDurationMs : ℕ
  failureClass : Text
  fallbackBackend : Text
  fallbackReasonCode : Text
  deriving DecidableEq

/-- The disposition of a file for which no parser ran. -/
def unexecuted (digests : Digests) (parseStatus : ParseStatus) (parserBackend : Text)
    (workerLane : AuditWorkerLane) (error : Option Diagnostic) : FileDisposition where
  parseStatus := parseStatus
  parserBackend := parserBackend
  workerLane := workerLane
  error := error
  contentSha256 := digests.sha256Hex []
  truncated := false
  primaryDurationMs := 0
  fallbackDurationMs := 0
  parseDurationMs := 0
  failureClass := []
  fallbackBackend := []
  fallbackReasonCode := []

/-- The disposition of a file with a parse result. -/
def executed (parseStatus : ParseStatus) (truncated : Bool) (result : ParseResult) :
    FileDisposition where
  parseStatus := parseStatus
  parserBackend := result.parserBackend
  workerLane := parseWorkerLane result.workerLane
  error := result.error
  contentSha256 := result.contentSha256
  truncated := truncated
  primaryDurationMs := result.primaryDurationMs
  fallbackDurationMs := result.fallbackDurationMs
  parseDurationMs := result.parseDurationMs
  failureClass := result.failureClass
  fallbackBackend := result.fallbackBackend
  fallbackReasonCode := result.fallbackReasonCode

/-- The disposition of an admitted file. -/
def admittedDisposition (digests : Digests) (file : DiscoveredFileOut)
    (runtimeClassification : Finset Text) (outputs : ParseOutputs) : FileDisposition :=
  if stoppedAtRuntime runtimeClassification outputs file.fileIdentity then
    unexecuted digests .notParsed (lit "not_parsed") .notParsed none
  else
    match outputs.results.lookup file.fileIdentity with
    | some result => executed result.parseStatus result.truncated result
    | none => unexecuted digests .success (lit "pdf_metadata_v2") .rustCore none

def fileDisposition (digests : Digests) (file : DiscoveredFileOut) (action : PlanAction)
    (classifications : Classifications) (runtimeClassification : Finset Text)
    (outputs : ParseOutputs) : FileDisposition :=
  match changedResult outputs file.fileIdentity with
  | some result => executed .error false result
  | none =>
    match action with
    | .notParsed _ => unexecuted digests .notParsed (lit "not_parsed") .notParsed none
    | .reject reason =>
      unexecuted digests .error (lit "not_parsed") .notParsed (some (rejectDiagnostic file reason))
    | .classifierFailed status =>
      let semantics :=
        classifierFailureSemantics status (classifications.lookup file.fileIdentity)
      unexecuted digests semantics.1 (lit "not_parsed") .notParsed
        (some (classifierDiagnostic file status semantics.2.1 semantics.2.2))
    | .admitRoute _ => admittedDisposition digests file runtimeClassification outputs

/-- The profile hash of a row: only an admitted file, or one whose source changed, has its own. -/
def resultProfileHash (input : ScheduledRunInput) (outputs : ParseOutputs) (identity : Text)
    (action : PlanAction) : Text :=
  if (changedResult outputs identity).isSome || action.isAdmit then
    (outputs.parseProfileHashes.lookup identity).getD input.rejectedProfileHash
  else input.rejectedProfileHash

/-- The cache state of a row. -/
def resultCacheState (outputs : ParseOutputs) (identity : Text) (action : PlanAction) :
    CacheStatus × CacheMissReason :=
  if (changedResult outputs identity).isSome then (.miss, .sourceVersionChanged)
  else if action.isAdmit then
    ((outputs.parseCacheStatus.lookup identity).getD .miss,
      (outputs.parseCacheMissReason.lookup identity).getD .newFile)
  else (.miss, .newFile)

/-- The transport and the attempts of a row. -/
def resultExecution (outputs : ParseOutputs) (identity : Text) : ParseTransport × ℕ :=
  match outputs.results.lookup identity with
  | some result => (result.parseTransport, result.parseAttemptCount)
  | none => (.notApplicable, 0)

def fileResult (digests : Digests) (input : ScheduledRunInput) (file : DiscoveredFileOut)
    (relativePath : Text) (action : PlanAction) (classifications : Classifications)
    (audits : ClassificationAudits) (runtimeClassification : Finset Text)
    (outputs : ParseOutputs) : FileResultRecord :=
  let disposition :=
    fileDisposition digests file action classifications runtimeClassification outputs
  { fileIdentity := file.fileIdentity
    relativePath := relativePath
    sourceVersion := file.sourceVersion
    parseProfileHash := resultProfileHash input outputs file.fileIdentity action
    cacheStatus := (resultCacheState outputs file.fileIdentity action).1
    cacheMissReason := (resultCacheState outputs file.fileIdentity action).2
    parseStatus := disposition.parseStatus
    parserBackend := disposition.parserBackend
    workerLane := disposition.workerLane
    truncated := disposition.truncated
    contentSha256 := disposition.contentSha256
    primaryDurationMs := disposition.primaryDurationMs
    fallbackDurationMs := disposition.fallbackDurationMs
    parseDurationMs := disposition.parseDurationMs
    failureClass := disposition.failureClass
    fallbackBackend := disposition.fallbackBackend
    fallbackReasonCode := disposition.fallbackReasonCode
    parseTransport := (resultExecution outputs file.fileIdentity).1
    parseAttemptCount := (resultExecution outputs file.fileIdentity).2
    pdfClassification := audits.lookup file.fileIdentity
    error := disposition.error }

def buildFileResults (digests : Digests) (input : ScheduledRunInput)
    (classified : List ClassifiedPlan) (admission : List AdmissionDecision)
    (classifications : Classifications) (audits : ClassificationAudits)
    (runtimeClassification : Finset Text) (outputs : ParseOutputs) :
    Except SchedulerFailure (List FileResultRecord) :=
  classified.mapM fun plan => do
    let file ← planFile input plan
    return fileResult digests input file.1 file.2 (effectiveAction admission plan) classifications
      audits runtimeClassification outputs

end DailyReport
