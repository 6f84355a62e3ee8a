import DailyReport.Contract.Checks

/-!
# The records of the scanner contract

The enumerations of the contract with their wire names, the `Diagnostic` every failure carries and
the `ContextDecision` of one rendered file.  The wire names of two enumerations matter to the
budget: a worker lane has at most 22 characters (`AuditWorkerLane.length_wireName_le`), and an error
code ends in a capital letter (`ErrorCode.getLast?_wireName`).
-/

namespace DailyReport

open Lib

inductive ErrorCode
  | invalidRequest
  | contractVersionMismatch
  | workDirNotFound
  | workDirNotDirectory
  | discoveryEntryUnreadable
  | fileTooLarge
  | parserStartFailed
  | parserTimeout
  | parserInvalidPayload
  | parserFailed
  | pdfProtected
  | workerHandshakeFailed
  | workerVersionMismatch
  | workerBuildChanged
  | sourceVersionChanged
  | cacheOpenFailed
  | cacheWriteFailed
  | scanAlreadyRunning
  | requestInProgress
  | requestIdConflict
  | runNotFound
  | runCorrupt
  | contextBudgetInvalid
  | notImplemented
  | rustCoreCrashed
  | stageDeadlineExhausted
  | budgetModelMismatch
  | contextFixedSectionsOverBudget
  | profileRouteInvariant
  | sourceFileLimitExceeded
  | sourceGuardUnavailable
  | scannerDbSchemaMismatch
  | diagnosticsAggregated
  | snapshotReuseProjectedAsFresh
  | parseCacheNotApplicableProjectedAsMiss
  | cacheMissReasonProjectedAsNewFile
  | sourceGuardNotProjected
  | workerRssUnavailable
  | internalError
  deriving DecidableEq, Repr

/-- The wire name of an error code. -/
def ErrorCode.wireName : ErrorCode → Text
  | .invalidRequest => lit "INVALID_REQUEST"
  | .contractVersionMismatch => lit "CONTRACT_VERSION_MISMATCH"
  | .workDirNotFound => lit "WORK_DIR_NOT_FOUND"
  | .workDirNotDirectory => lit "WORK_DIR_NOT_DIRECTORY"
  | .discoveryEntryUnreadable => lit "DISCOVERY_ENTRY_UNREADABLE"
  | .fileTooLarge => lit "FILE_TOO_LARGE"
  | .parserStartFailed => lit "PARSER_START_FAILED"
  | .parserTimeout => lit "PARSER_TIMEOUT"
  | .parserInvalidPayload => lit "PARSER_INVALID_PAYLOAD"
  | .parserFailed => lit "PARSER_FAILED"
  | .pdfProtected => lit "PDF_PROTECTED"
  | .workerHandshakeFailed => lit "WORKER_HANDSHAKE_FAILED"
  | .workerVersionMismatch => lit "WORKER_VERSION_MISMATCH"
  | .workerBuildChanged => lit "WORKER_BUILD_CHANGED"
  | .sourceVersionChanged => lit "SOURCE_VERSION_CHANGED"
  | .cacheOpenFailed => lit "CACHE_OPEN_FAILED"
  | .cacheWriteFailed => lit "CACHE_WRITE_FAILED"
  | .scanAlreadyRunning => lit "SCAN_ALREADY_RUNNING"
  | .requestInProgress => lit "REQUEST_IN_PROGRESS"
  | .requestIdConflict => lit "REQUEST_ID_CONFLICT"
  | .runNotFound => lit "RUN_NOT_FOUND"
  | .runCorrupt => lit "RUN_CORRUPT"
  | .contextBudgetInvalid => lit "CONTEXT_BUDGET_INVALID"
  | .notImplemented => lit "NOT_IMPLEMENTED"
  | .rustCoreCrashed => lit "RUST_CORE_CRASHED"
  | .stageDeadlineExhausted => lit "STAGE_DEADLINE_EXHAUSTED"
  | .budgetModelMismatch => lit "BUDGET_MODEL_MISMATCH"
  | .contextFixedSectionsOverBudget => lit "CONTEXT_FIXED_SECTIONS_OVER_BUDGET"
  | .profileRouteInvariant => lit "PROFILE_ROUTE_INVARIANT"
  | .sourceFileLimitExceeded => lit "SOURCE_FILE_LIMIT_EXCEEDED"
  | .sourceGuardUnavailable => lit "SOURCE_GUARD_UNAVAILABLE"
  | .scannerDbSchemaMismatch => lit "SCANNER_DB_SCHEMA_MISMATCH"
  | .diagnosticsAggregated => lit "DIAGNOSTICS_AGGREGATED"
  | .snapshotReuseProjectedAsFresh => lit "SNAPSHOT_REUSE_PROJECTED_AS_FRESH"
  | .parseCacheNotApplicableProjectedAsMiss =>
    lit "PARSE_CACHE_NOT_APPLICABLE_PROJECTED_AS_MISS"
  | .cacheMissReasonProjectedAsNewFile => lit "CACHE_MISS_REASON_PROJECTED_AS_NEW_FILE"
  | .sourceGuardNotProjected => lit "SOURCE_GUARD_NOT_PROJECTED"
  | .workerRssUnavailable => lit "WORKER_RSS_UNAVAILABLE"
  | .internalError => lit "INTERNAL_ERROR"

inductive DiagnosticStage
  | request
  | discovery
  | cache
  | parse
  | context
  | process
  | doctor
  | internal
  deriving DecidableEq, Repr

/-- The wire name of a stage. -/
def DiagnosticStage.wireName : DiagnosticStage → Text
  | .request => lit "request"
  | .discovery => lit "discovery"
  | .cache => lit "cache"
  | .parse => lit "parse"
  | .context => lit "context"
  | .process => lit "process"
  | .doctor => lit "doctor"
  | .internal => lit "internal"

structure Diagnostic where
  errorCode : ErrorCode
  message : Text
  retryable : Bool
  stage : DiagnosticStage
  filePath : Option Text
  backend : Option Text
  deriving DecidableEq

def Diagnostic.validate (d : Diagnostic) : Checked := do
  requireNonEmpty d.message 4096 (lit "diagnostic.message")
  match d.filePath with
  | some filePath => requireAbsolutePath filePath (lit "diagnostic.file_path")
  | none => pure ()
  match d.backend with
  | some backend => requireNonEmpty backend 1024 (lit "diagnostic.backend")
  | none => pure ()

inductive ParseStatus
  | success
  | error
  | timeout
  | notParsed
  deriving DecidableEq, Repr

inductive AuditWorkerLane
  | rustCore
  | rustOfficeProcessV3
  | rustPdfProcessV3
  | localOcrPreflight
  | notParsed
  deriving DecidableEq, Repr

/-- The wire name of a worker lane. -/
def AuditWorkerLane.wireName : AuditWorkerLane → Text
  | .rustCore => lit "rust_core"
  | .rustOfficeProcessV3 => lit "rust_office_process_v3"
  | .rustPdfProcessV3 => lit "rust_pdf_process_v3"
  | .localOcrPreflight => lit "local_ocr_preflight"
  | .notParsed => lit "not_parsed"

inductive CacheStatus
  | fresh
  | miss
  deriving DecidableEq, Repr

inductive CacheMissReason
  | none
  | newFile
  | errorCache
  | sourceVersionChanged
  | parserProfileChanged
  | parserIdentityChanged
  | entryAbsentOrEvicted
  deriving DecidableEq, Repr

inductive ContextAction
  | keep
  | compress
  | metadataOnly
  | omit
  | error
  deriving DecidableEq, Repr

/-- The wire name of a context action. -/
def ContextAction.wireName : ContextAction → Text
  | .keep => lit "keep"
  | .compress => lit "compress"
  | .metadataOnly => lit "metadata_only"
  | .omit => lit "omit"
  | .error => lit "error"

structure ContextDecision where
  relativePath : Text
  action : ContextAction
  reason : Text
  priority : ℕ
  inputChars : ℕ
  outputChars : ℕ
  truncated : Bool
  errorCode : Text
  deriving DecidableEq

def ContextDecision.validate (d : ContextDecision) : Checked := do
  requireRelativePath d.relativePath (lit "decision relative_path")
  requireNonEmpty d.reason 4096 (lit "decision reason")
  if countChars d.errorCode ≤ 1024 then .ok ()
  else .error (lit "decision error_code is too long")

inductive SourceGuardKind
  | windowsFileIdChangeTimeV1
  | unixInodeCtimeV1
  | contentSha256V1
  | unavailable
  deriving DecidableEq, Repr

inductive ParseCacheStatus
  | fresh
  | miss
  | snapshot
  | notApplicable
  deriving DecidableEq, Repr

inductive ParseTransport
  | session
  | oneShot
  | rustInProcess
  | snapshot
  | notApplicable
  deriving DecidableEq, Repr

inductive PdfClassificationStatus
  | textInParseWindow
  | noTextInParseWindow
  | notClassifiedByBudget
  | unknown
  | error
  deriving DecidableEq, Repr

inductive ClassificationCacheStatus
  | fresh
  | miss
  | snapshot
  | notEligible
  deriving DecidableEq, Repr

inductive ClassificationTransport
  | session
  | oneShot
  | snapshot
  | notApplicable
  deriving DecidableEq, Repr

/-! ### The wire names the budget depends on -/

theorem AuditWorkerLane.length_wireName_le (lane : AuditWorkerLane) : lane.wireName.length ≤ 22 := by
  cases lane <;> simp [AuditWorkerLane.wireName, lit_eq]

theorem ErrorCode.length_wireName_le (code : ErrorCode) : code.wireName.length ≤ 64 := by
  cases code <;> simp [ErrorCode.wireName, lit_eq]

theorem ContextAction.length_wireName_le (action : ContextAction) : action.wireName.length ≤ 13 := by
  cases action <;> simp [ContextAction.wireName, lit_eq]

/-- Every error code ends in a capital letter. -/
theorem ErrorCode.getLast?_wireName (code : ErrorCode) :
    ∃ c, code.wireName.getLast? = some c ∧ c.isUpper = true := by
  cases code <;> simp [ErrorCode.wireName, lit_eq]

end DailyReport
