import DailyReport.Contract.Provenance
import DailyReport.Lib.Exec
import DailyReport.Lib.Keyed
import DailyReport.Scanner.Compressor
import DailyReport.Scanner.Discovered
import Mathlib.Data.Finset.Card

/-!
# What the scheduler talks to

The scheduler reads a clock, verifies source guards, asks a classifier and a parser, and reads and
writes a cache.  It sees none of their state: a `Ports σ` answers from a world `σ`, and the
scheduler is a program over that world (`Scheduled`).
-/

namespace DailyReport

open Lib

/-! ### Failures -/

/-- Failure to form a valid outcome. -/
structure SchedulerFailure where
  diagnostic : Diagnostic
  deriving DecidableEq

namespace SchedulerFailure

/-- A failure with a message of bounded length. -/
def new (errorCode : ErrorCode) (message : Text) (retryable : Bool) (stage : DiagnosticStage) :
    SchedulerFailure :=
  ⟨⟨errorCode, message.take 4096, retryable, stage, none, none⟩⟩

def internal (message : Text) : SchedulerFailure := new .internalError message false .internal

end SchedulerFailure

inductive CachePortError
  | store (detail : Text)
  | invalidKey (detail : Text)
  | deadlineExhausted (detail : Text)
  deriving DecidableEq

namespace CachePortError

def detail : CachePortError → Text
  | .store detail | .invalidKey detail | .deadlineExhausted detail => detail

def errorCode : CachePortError → ErrorCode
  | .store _ => .cacheWriteFailed
  | .invalidKey _ => .invalidRequest
  | .deadlineExhausted _ => .stageDeadlineExhausted

def retryable : CachePortError → Bool
  | .store _ | .deadlineExhausted _ => true
  | .invalidKey _ => false

def diagnostic (e : CachePortError) (stage : DiagnosticStage) : Diagnostic :=
  ⟨e.errorCode, e.detail, e.retryable, stage, none, none⟩

end CachePortError

/-! ### Source guards -/

/-- The wire text of a guard kind. -/
def sourceGuardKindText : SourceGuardKind → Text
  | .windowsFileIdChangeTimeV1 => lit "windows_file_id_change_time_v1"
  | .unixInodeCtimeV1 => lit "unix_inode_ctime_v1"
  | .contentSha256V1 => lit "content_sha256_v1"
  | .unavailable => lit "unavailable"

structure SourceGuardV2 where
  kind : SourceGuardKind
  guardSha256 : Option Text
  deriving DecidableEq

/-- An unavailable guard has no hash, any other kind has one. -/
def SourceGuardV2.validate (g : SourceGuardV2) : Checked :=
  match g.kind, g.guardSha256 with
  | .unavailable, none => .ok ()
  | .unavailable, some _ => .error (lit "unavailable source guard must have a null hash")
  | _, none => .error (lit "source guard kind requires a sha256")
  | _, some hash =>
    if isSha256Hex hash then .ok ()
    else .error (lit "source guard hash must be lowercase hex sha256")

/-- The guard a file has to keep, where discovery observed a usable one. -/
def expectedGuard (file : DiscoveredFileOut) : Option SourceGuardV2 := do
  let kind ← file.sourceGuardKind.bind sourceGuardKindFromText
  if kind = .unavailable then none
  else
    let hash ← file.sourceGuardSha256
    let guard : SourceGuardV2 := ⟨kind, some hash⟩
    if guard.validate = .ok () then some guard else none

/-! ### The classifier -/

structure ClassifyRequest where
  filePath : Text
  sourceVersion : Text
  maxPages : ℕ
  policyVersion : Text
  deriving DecidableEq

structure ClassifyOperation where
  requestId : Text
  payload : ClassifyRequest
  deriving DecidableEq

inductive ClassifyStatus
  | textInParseWindow
  | noTextInParseWindow
  | unknown
  | error
  deriving DecidableEq, Repr

structure WorkerDiagnostic where
  errorCode : Text
  message : Text
  retryable : Bool
  stage : Text
  filePath : Option Text
  backend : Option Text
  deriving DecidableEq

structure ClassifyResult where
  pageAudit : Option PdfPageAudit
  status : ClassifyStatus
  pageCount : Option ℕ
  resultExaminedPages : Option ℕ
  diagnostic : Option WorkerDiagnostic
  deriving DecidableEq

/-- What one call of the classifier reports: a typed result, or the diagnostic of a failure of the
worker process. -/
structure PdfClassifierExecution where
  outcome : Except Diagnostic ClassifyResult
  transport : ClassificationTransport
  attemptCount : ℕ
  durationMs : ℕ

/-! ### The parser -/

structure ParseRequest where
  selectedPdfPages : Option (List ℕ)
  file : DiscoveredFileOut
  route : RouteKind
  timeoutMs : ℕ
  deriving DecidableEq

structure ParseResult where
  fileIdentity : Text
  content : Text
  evidenceAudit : Option ParsedContentAudit
  parserBackend : Text
  workerLane : Text
  truncated : Bool
  contentSha256 : Text
  parseStatus : ParseStatus
  error : Option Diagnostic
  warnings : List Diagnostic
  failureClass : Text
  fallbackBackend : Text
  fallbackReasonCode : Text
  parseTransport : ParseTransport
  parseAttemptCount : ℕ
  primaryDurationMs : ℕ
  fallbackDurationMs : ℕ
  parseDurationMs : ℕ
  deriving DecidableEq

/-! ### The cache -/

/-- A successful parse as the cache keeps it. -/
structure CacheEntry where
  content : Text
  contentSha256 : Text
  evidenceAudit : Option ParsedContentAudit
  parserBackend : Text
  workerLane : Text
  truncated : Bool
  workerContractVersion : Text
  workerVersion : Text
  workerBuild : Text
  deriving DecidableEq

inductive CacheLookup
  | fresh (entry : CacheEntry)
  | miss (reason : CacheMissReason)
  deriving DecidableEq

/-- A parse lookup, with the profile hash that is part of its key. -/
structure ParseLookupOutcome where
  parseProfileHash : Text
  lookup : CacheLookup
  deriving DecidableEq

structure CacheWriteRecord where
  fileIdentity : Text
  sourceVersion : Text
  sourceGuardKind : Text
  sourceGuardSha256 : Text
  parseProfileHash : Text
  content : Text
  contentSha256 : Text
  cachePayloadVersion : ℕ
  evidenceAudit : Option ParsedContentAudit
  parserBackend : Text
  workerLane : Text
  truncated : Bool
  workerContractVersion : Text
  workerVersion : Text
  workerBuild : Text
  deriving DecidableEq

/-- A text or no-text classification as the cache keeps it. -/
structure ClassificationCacheEntry where
  pageAudit : Option PdfPageAudit
  status : Text
  pageCount : ℕ
  resultExaminedPages : ℕ
  deriving DecidableEq

inductive ClassificationCacheMissReason
  | newFile
  | sourceVersionChanged
  | classifierIdentityChanged
  | entryAbsentOrEvicted
  deriving DecidableEq, Repr

def ClassificationCacheMissReason.asStr : ClassificationCacheMissReason → Text
  | .newFile => lit "new_file"
  | .sourceVersionChanged => lit "source_version_changed"
  | .classifierIdentityChanged => lit "classifier_identity_changed"
  | .entryAbsentOrEvicted => lit "entry_absent_or_evicted"

inductive ClassificationCacheLookup
  | fresh (entry : ClassificationCacheEntry)
  | miss (reason : ClassificationCacheMissReason)
  deriving DecidableEq

structure ClassificationCacheWriteRecord where
  fileIdentity : Text
  sourceVersion : Text
  sourceGuardKind : Text
  sourceGuardSha256 : Text
  classifierProfileHash : Text
  classifierBuild : Text
  status : Text
  pageCount : ℕ
  resultExaminedPages : ℕ
  deriving DecidableEq

/-! ### Ports -/

/-- Everything the scheduler asks, answered from a world `σ`. -/
structure Ports (σ : Type) where
  nowMs : StateM σ ℕ
  nextRequestId : StateM σ Text
  verify : Text → SourceGuardV2 → StateM σ Bool
  isTainted : Text → StateM σ Bool
  classifyPdf : ClassifyOperation → ℕ → StateM σ PdfClassifierExecution
  parse : ParseRequest → StateM σ ParseResult
  lookupParse : DiscoveredFileOut → RouteKind → Bool →
    StateM σ (Except CachePortError ParseLookupOutcome)
  lookupClassification : DiscoveredFileOut → Text → Text → Bool →
    StateM σ (Except CachePortError ClassificationCacheLookup)
  writeParse : ℕ → CacheWriteRecord → StateM σ (Except CachePortError Unit)
  writeClassification : ℕ → ClassificationCacheWriteRecord → StateM σ (Except CachePortError Unit)
  touchAccess : ℕ → List Text → List Text → StateM σ (Except CachePortError Unit)

/-- A part of the scheduler. -/
abbrev Scheduled (σ α : Type) := Exec σ SchedulerFailure α

/-- The digests of the engine.  The hash function and the canonical encodings are not modelled, only
that a digest is written with sixty-four hexadecimal digits. -/
structure Digests where
  sha256Hex : Text → Text
  classifierDomainHash : Text → ℕ → ℕ → Text
  planSha256 : List ClassifiedPlan → Text
  isSha256Hex_sha256Hex : ∀ t, isSha256Hex (sha256Hex t) = true
  isSha256Hex_classifier : ∀ policy pages timeout,
    isSha256Hex (classifierDomainHash policy pages timeout) = true
  isSha256Hex_plan : ∀ plans, isSha256Hex (planSha256 plans) = true

/-- The classifier profile hash covers the policy, the page window and the timeout. -/
def classifierProfileHash (digests : Digests) (profile : NormalizedScannerSettings) :
    Except Text Text := do
  profile.validate
  return digests.classifierDomainHash profile.classifierPolicyVersion profile.parse.pdf.maxPages
    profile.pdfClassificationTimeoutMs

structure WorkerIdentities where
  officeContract : Option Text
  officeVersion : Option Text
  officeBuild : Option Text
  pdfContract : Option Text
  pdfVersion : Option Text
  pdfBuild : Option Text
  classifierBuild : Option Text
  deriving DecidableEq

/-- A discovery entry that could not be read. -/
structure DiscoveryIssue where
  path : Option Text
  message : Text
  deriving DecidableEq

/-- The frozen input of a run.  The inventory was prepared before, so it is known which files it
already had. -/
structure ScheduledRunInput where
  platform : Platform
  workDir : Text
  discovery : List DiscoveredFileOut
  discoveryIssues : List DiscoveryIssue
  profile : NormalizedScannerSettings
  workers : WorkerIdentities
  engineVersion : Text
  engineBuild : Text
  contextProfileHash : Text
  rejectedProfileHash : Text
  workDeadlineMs : ℕ
  absoluteDeadlineMs : ℕ
  existedBefore : Finset Text

/-- The discovered files by identity. -/
def ScheduledRunInput.snapshot (input : ScheduledRunInput) :
    AList fun _ : Text => DiscoveredFileOut :=
  indexBy DiscoveredFileOut.fileIdentity input.discovery

/-- What stays the same during a run: its ports, its input, the frozen identity of the classifier and
the number of workers. -/
structure RunContext (σ : Type) where
  ports : Ports σ
  digests : Digests
  input : ScheduledRunInput
  classifierHash : Text
  classifierBuild : Text
  concurrency : ℕ

end DailyReport
