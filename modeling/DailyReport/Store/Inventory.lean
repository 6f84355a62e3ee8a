import DailyReport.Scheduler.Project

/-!
# Inventory and file results

The rows of a run's files as they are handed to the store.  A file result is stored only when
`FileResultRecord.validateForPersistence` accepts it; a run that reuses a snapshot has its own rule
(`FileResultRecord.snapshotExecution`): its files were not parsed again.
-/

namespace DailyReport

open Lib

/-- A file of the inventory. -/
structure InventoryRecord where
  fileIdentity : Text
  relativePath : Text
  sourceVersion : Text
  sourceGuardKind : Option Text
  sourceGuardSha256 : Option Text
  deriving DecidableEq

namespace FileResultRecord

/-- A parse-cache hit is fresh, a file whose body was parsed is a miss, and where no parser ran the
parse cache is not applicable. -/
def parseCacheStatus (r : FileResultRecord) : ParseCacheStatus :=
  match r.parseStatus, r.cacheStatus with
  | .success, .fresh => .fresh
  | .success, .miss => if r.parserBackend = lit "pdf_metadata_v2" then .notApplicable else .miss
  | .error, _ | .timeout, _ =>
    if r.parserBackend = lit "not_parsed" then .notApplicable else .miss
  | .notParsed, _ => .notApplicable

def durationsFit (r : FileResultRecord) : Bool :=
  decide (r.primaryDurationMs < 2 ^ 63) && decide (r.fallbackDurationMs < 2 ^ 63) &&
    decide (r.parseDurationMs < 2 ^ 63)

def cacheConsistent (r : FileResultRecord) : Bool :=
  match r.cacheStatus, r.cacheMissReason with
  | .fresh, .none | .miss, .newFile | .miss, .sourceVersionChanged | .miss, .parserIdentityChanged
  | .miss, .entryAbsentOrEvicted => true
  | _, _ => false

def errorConsistent (r : FileResultRecord) : Bool :=
  match r.parseStatus with
  | .success | .notParsed => r.error.isNone
  | .error | .timeout => r.error.isSome

/-- Nothing was run. -/
def zeroExecution (r : FileResultRecord) : Bool :=
  decide (r.parseAttemptCount = 0) && decide (r.primaryDurationMs = 0) &&
    decide (r.fallbackDurationMs = 0) && decide (r.parseDurationMs = 0)

/-- The execution of a file of a snapshot. -/
def snapshotExecution (r : FileResultRecord) : Bool :=
  !(decide (r.parseStatus = .error) || decide (r.parseStatus = .timeout)) &&
    decide (r.parseTransport = .snapshot) && r.zeroExecution

/-- The execution of a file that the run looked at. -/
def freshExecution (r : FileResultRecord) : Bool :=
  match r.parseCacheStatus with
  | .fresh =>
    decide (r.parseStatus = .success) && decide (r.parseTransport = .notApplicable) &&
      r.zeroExecution
  | .miss =>
    !decide (r.parseStatus = .notParsed) &&
      decide (r.parseTransport ∈ [.session, .oneShot, .rustInProcess]) &&
      decide (1 ≤ r.parseAttemptCount) && decide (r.parseAttemptCount ≤ 3)
  | .notApplicable => decide (r.parseTransport = .notApplicable) && r.zeroExecution
  | .snapshot => false

def executionConsistent (r : FileResultRecord) (snapshotRows : Bool) : Bool :=
  if snapshotRows then r.snapshotExecution else r.freshExecution

/-- The route of the file and its parse-cache status are in the frozen matrix. -/
def provenanceConsistent (r : FileResultRecord) (snapshotRows : Bool) : Bool :=
  decide (validateV2ParseProvenance r.parseStatus r.parserBackend r.workerLane
    (if snapshotRows then .snapshot else r.parseCacheStatus)
    (r.pdfClassification.map PdfClassificationAuditV1.status) = .ok ())

def audit (r : FileResultRecord) : FileAudit where
  relativePath := r.relativePath
  fileIdentity := r.fileIdentity
  sourceVersion := r.sourceVersion
  parseStatus := r.parseStatus
  parserBackend := r.parserBackend
  workerLane := r.workerLane
  cacheStatus := r.cacheStatus
  cacheMissReason := r.cacheMissReason
  truncated := r.truncated
  contentSha256 := r.contentSha256
  parseDurationMs := r.parseDurationMs
  failureClass := r.failureClass
  fallbackBackend := r.fallbackBackend
  fallbackReasonCode := r.fallbackReasonCode

/-- A row that may be stored. -/
structure Persistable (r : FileResultRecord) (snapshotRows : Bool) : Prop where
  identity : r.fileIdentity ≠ []
  path : r.relativePath ≠ []
  version : r.sourceVersion ≠ []
  profileHash : isSha256Hex r.parseProfileHash = true
  backend : r.parserBackend ≠ []
  contentHash : isSha256Hex r.contentSha256 = true
  durations : r.durationsFit = true
  cache : r.cacheConsistent = true
  error : r.errorConsistent = true
  attempts : r.parseAttemptCount ≤ 3
  execution : r.executionConsistent snapshotRows = true
  provenance : r.provenanceConsistent snapshotRows = true
  classification : ∀ a ∈ r.pdfClassification, a.validate = .ok ()
  fileAudit : r.audit.validate = .ok ()
  diagnostic : ∀ d ∈ r.error, d.validate = .ok ()

instance (r : FileResultRecord) (snapshotRows : Bool) : Decidable (r.Persistable snapshotRows) :=
  decidable_of_iff
    (r.fileIdentity ≠ [] ∧ r.relativePath ≠ [] ∧ r.sourceVersion ≠ [] ∧
      isSha256Hex r.parseProfileHash = true ∧ r.parserBackend ≠ [] ∧
      isSha256Hex r.contentSha256 = true ∧ r.durationsFit = true ∧ r.cacheConsistent = true ∧
      r.errorConsistent = true ∧ r.parseAttemptCount ≤ 3 ∧
      r.executionConsistent snapshotRows = true ∧ r.provenanceConsistent snapshotRows = true ∧
      (∀ a ∈ r.pdfClassification, a.validate = .ok ()) ∧ r.audit.validate = .ok () ∧
      ∀ d ∈ r.error, d.validate = .ok ())
    ⟨fun ⟨h1, h2, h3, h4, h5, h6, h7, h8, h9, h10, h11, h12, h13, h14, h15⟩ =>
      ⟨h1, h2, h3, h4, h5, h6, h7, h8, h9, h10, h11, h12, h13, h14, h15⟩,
     fun h => ⟨h.identity, h.path, h.version, h.profileHash, h.backend, h.contentHash, h.durations,
      h.cache, h.error, h.attempts, h.execution, h.provenance, h.classification, h.fileAudit,
      h.diagnostic⟩⟩

def validateForPersistence (r : FileResultRecord) (snapshotRows : Bool) : Checked :=
  if r.Persistable snapshotRows then .ok () else .error (lit "invalid scan file result")

@[simp] theorem validateForPersistence_eq_ok {r : FileResultRecord} {snapshotRows : Bool} :
    r.validateForPersistence snapshotRows = .ok () ↔ r.Persistable snapshotRows := by
  unfold validateForPersistence
  split_ifs with h <;> simp [h]

end FileResultRecord

end DailyReport
