import DailyReport.Contract.Artifact
import DailyReport.Lib.Except
import DailyReport.Lib.Rows

/-!
# The tables of the scanner database

The tables that a run, its lease and its context live in, with the foreign keys between them: a run
that is deleted takes its attempts and its context along (`Db.deleteRuns`), and a context that is
deleted leaves the contexts that reuse it without a source (`Db.deleteContexts`).

The tables of inventory, file results, diagnostics and metrics are left out: nothing below reads
them, and a write to them that fails only refuses its transaction.
-/

namespace DailyReport.Store

open Lib

/-- Largest value of a signed 64-bit integer. -/
def i64Max : ℕ := 9223372036854775807

inductive StoreError
  | invalidRequest (message : Text)
  | cacheWrite (detail : Text)
  | scanAlreadyRunning
  | requestInProgress
  | requestIdConflict
  | runCorrupt (message : Text)
  | runNotFound
  | leaseLost
  | artifactMismatch (message : Text)
  deriving DecidableEq

/-- A value that a column can hold. -/
def checkedI64 (value : ℕ) (field : Text) : Except StoreError ℤ :=
  if value ≤ i64Max then .ok value
  else .error (.invalidRequest (field ++ lit " exceeds SQLite integer range"))

/-- Go on if the condition holds. -/
def require (p : Prop) [Decidable p] (error : StoreError) : Except StoreError Unit :=
  if p then .ok () else .error error

@[simp] theorem require_eq_ok {p : Prop} [Decidable p] {error : StoreError} {u : Unit} :
    require p error = .ok u ↔ p := by
  unfold require
  split_ifs with h <;> simp [h]

theorem checkedI64_eq_ok {value : ℕ} {field : Text} {now : ℤ} :
    checkedI64 value field = .ok now ↔ value ≤ i64Max ∧ now = value := by
  unfold checkedI64
  split_ifs with h
  · simp [h, eq_comm]
  · simp [h]

/-! ### Rows -/

inductive RunStatus
  | running
  | success
  | partialSuccess
  | error
  | abandoned
  deriving DecidableEq, Repr

/-- The run was committed by a finalization. -/
def RunStatus.isTerminal : RunStatus → Bool
  | .success | .partialSuccess | .error => true
  | .running | .abandoned => false

structure ScanRunRow where
  scanRunId : ℕ
  requestId : Text
  canonicalRequestJson : Text
  requestHash : Text
  ownerId : Text
  status : RunStatus
  createdAtMs : ℤ
  startedAtMs : ℤ
  updatedAtMs : ℤ
  finishedAtMs : Option ℤ
  finalEnvelopeJson : Option Text
  finalEnvelopeMetadataJson : Option Text
  auditSizeBytes : Option ℕ
  deriving DecidableEq

structure AttemptRuntime where
  normalizedScanDbPath : Text
  normalizedOfficeWorkerPath : Text
  normalizedPdfWorkerPath : Text
  engineFingerprint : Text
  deriving DecidableEq

structure WorkerFingerprint where
  contract : Text
  version : Text
  build : Text
  deriving DecidableEq

structure AttemptRow where
  scanRunId : ℕ
  attemptNumber : ℕ
  ownerId : Text
  runtime : AttemptRuntime
  office : Option WorkerFingerprint
  pdf : Option WorkerFingerprint
  startedAtMs : ℤ
  finishedAtMs : Option ℤ
  status : RunStatus
  deriving DecidableEq

structure LeaseRow where
  ownerId : Text
  acquiredAtMs : ℤ
  heartbeatAtMs : ℤ
  expiresAtMs : ℤ
  deriving DecidableEq

/-- A row of `context_artifact_files`, with the enumerations as texts. -/
structure ContextArtifactFileRow where
  fileIdentity : Text
  relativePath : Text
  sourceVersion : Text
  sourceGuardKind : Option Text
  sourceGuardSha256 : Option Text
  parseProfileHash : Text
  parseStatus : Text
  parserBackend : Text
  workerLane : Text
  truncated : Bool
  contentSha256 : Text
  classifierStatus : Option Text
  classifierPageCount : Option ℕ
  classifierResultExaminedPages : Option ℕ
  classifierNominalChargedPages : Option ℕ
  classifierBuild : Option Text
  classifierProfileHash : Option Text
  deriving DecidableEq

/-- A row of `context_artifact_decisions`. -/
structure ContextArtifactDecisionRow where
  fileIdentity : Text
  relativePath : Text
  action : Text
  reason : Text
  priority : ℕ
  inputChars : ℕ
  outputChars : ℕ
  truncated : Bool
  errorCode : Text
  deriving DecidableEq

/-- A row of `context_artifacts` with the file and decision rows it owns. -/
structure ContextArtifactRow where
  artifactId : ℕ
  snapshotEligible : Bool
  snapshotKeySha256 : Option Text
  snapshotKeyJson : Option Text
  finalContext : Text
  contextSha256 : Text
  semanticSummaryJson : Text
  artifactSizeBytes : ℕ
  createdAtMs : ℤ
  files : List ContextArtifactFileRow
  decisions : List ContextArtifactDecisionRow
  deriving DecidableEq

/-- A row of `context_runs`.  Its id is the id of its run. -/
structure ContextRunRow where
  scanRunId : ℕ
  contextProfileHash : Text
  status : RunStatus
  finalContext : Text
  contextSha256 : Text
  summary : ContextSummary
  createdAtMs : ℤ
  artifactId : Option ℕ
  reusedFromContextRunId : Option ℕ
  snapshotHit : Bool
  deriving DecidableEq

/-- The database.  `nextRun` and `nextArtifact` are the ids that `AUTOINCREMENT` gives next: an id
is never given twice. -/
structure Db where
  runs : List ScanRunRow
  attempts : List AttemptRow
  lease : Option LeaseRow
  artifacts : List ContextArtifactRow
  contexts : List ContextRunRow
  nextRun : ℕ
  nextArtifact : ℕ
  deriving DecidableEq

/-- The database as it is created. -/
def Db.empty : Db where
  runs := []
  attempts := []
  lease := none
  artifacts := []
  contexts := []
  nextRun := 1
  nextArtifact := 1

namespace Db

/-! ### Deletions -/

/-- `DELETE FROM context_runs`: a context that reuses a deleted one loses its source. -/
def deleteContexts (victims : List ℕ) (db : Db) : Db :=
  { db with
    contexts := updateWhere (fun row => row.reusedFromContextRunId.any fun id => decide (id ∈ victims))
      (fun row => { row with reusedFromContextRunId := none })
      (deleteWhere (fun row => decide (row.scanRunId ∈ victims)) db.contexts) }

/-- `DELETE FROM scan_runs`: attempts and contexts go with their run. -/
def deleteRuns (victims : List ℕ) (db : Db) : Db :=
  { db.deleteContexts victims with
    runs := deleteWhere (fun row => decide (row.scanRunId ∈ victims)) db.runs
    attempts := deleteWhere (fun row => decide (row.scanRunId ∈ victims)) db.attempts }

/-- `DELETE FROM context_artifacts`. -/
def deleteArtifacts (victims : List ℕ) (db : Db) : Db :=
  { db with artifacts := deleteWhere (fun row => decide (row.artifactId ∈ victims)) db.artifacts }

/-- Some context refers to the artifact. -/
def referenced (db : Db) (artifactId : ℕ) : Bool :=
  db.contexts.any fun row => decide (row.artifactId = some artifactId)

/-- The artifact is stored. -/
def hasArtifact (db : Db) (artifactId : ℕ) : Bool :=
  db.artifacts.any fun row => decide (row.artifactId = artifactId)

def hasContext (db : Db) (scanRunId : ℕ) : Bool :=
  db.contexts.any fun row => decide (row.scanRunId = scanRunId)

variable {db : Db} {victims : List ℕ}

@[simp] theorem deleteContexts_runs : (db.deleteContexts victims).runs = db.runs := rfl
@[simp] theorem deleteContexts_attempts : (db.deleteContexts victims).attempts = db.attempts := rfl
@[simp] theorem deleteContexts_lease : (db.deleteContexts victims).lease = db.lease := rfl
@[simp] theorem deleteContexts_artifacts :
    (db.deleteContexts victims).artifacts = db.artifacts := rfl
@[simp] theorem deleteContexts_nextRun : (db.deleteContexts victims).nextRun = db.nextRun := rfl
@[simp] theorem deleteRuns_lease : (db.deleteRuns victims).lease = db.lease := rfl
@[simp] theorem deleteRuns_artifacts : (db.deleteRuns victims).artifacts = db.artifacts := rfl
@[simp] theorem deleteRuns_nextRun : (db.deleteRuns victims).nextRun = db.nextRun := rfl
@[simp] theorem deleteRuns_nextArtifact :
    (db.deleteRuns victims).nextArtifact = db.nextArtifact := rfl
@[simp] theorem deleteRuns_contexts :
    (db.deleteRuns victims).contexts = (db.deleteContexts victims).contexts := rfl
@[simp] theorem deleteArtifacts_runs : (db.deleteArtifacts victims).runs = db.runs := rfl
@[simp] theorem deleteArtifacts_attempts : (db.deleteArtifacts victims).attempts = db.attempts := rfl
@[simp] theorem deleteArtifacts_lease : (db.deleteArtifacts victims).lease = db.lease := rfl
@[simp] theorem deleteArtifacts_contexts : (db.deleteArtifacts victims).contexts = db.contexts := rfl
@[simp] theorem deleteArtifacts_nextRun : (db.deleteArtifacts victims).nextRun = db.nextRun := rfl

@[simp] theorem mem_deleteRuns_runs {row : ScanRunRow} :
    row ∈ (db.deleteRuns victims).runs ↔ row ∈ db.runs ∧ row.scanRunId ∉ victims := by
  simp [deleteRuns]

@[simp] theorem mem_deleteRuns_attempts {row : AttemptRow} :
    row ∈ (db.deleteRuns victims).attempts ↔ row ∈ db.attempts ∧ row.scanRunId ∉ victims := by
  simp [deleteRuns]

@[simp] theorem mem_deleteArtifacts {row : ContextArtifactRow} :
    row ∈ (db.deleteArtifacts victims).artifacts ↔ row ∈ db.artifacts ∧ row.artifactId ∉ victims := by
  simp [deleteArtifacts]

/-- A context that stays is the old one, but for a source that was deleted. -/
theorem mem_deleteContexts {row : ContextRunRow} :
    row ∈ (db.deleteContexts victims).contexts ↔ ∃ old ∈ db.contexts, old.scanRunId ∉ victims ∧
      row = if old.reusedFromContextRunId.any (fun id => decide (id ∈ victims)) then
        { old with reusedFromContextRunId := none } else old := by
  simp only [deleteContexts, updateWhere, List.mem_map, mem_deleteWhere, decide_eq_false_iff_not]
  constructor
  · rintro ⟨old, ⟨hold, hkeep⟩, rfl⟩
    exact ⟨old, hold, hkeep, rfl⟩
  · rintro ⟨old, hold, hkeep, rfl⟩
    exact ⟨old, ⟨hold, hkeep⟩, rfl⟩

theorem hasContext_eq_true {scanRunId : ℕ} :
    db.hasContext scanRunId = true ↔ ∃ row ∈ db.contexts, row.scanRunId = scanRunId := by
  simp [hasContext]

theorem hasArtifact_eq_true {artifactId : ℕ} :
    db.hasArtifact artifactId = true ↔ ∃ row ∈ db.artifacts, row.artifactId = artifactId := by
  simp [hasArtifact]

theorem referenced_eq_false {artifactId : ℕ} :
    db.referenced artifactId = false ↔ ∀ row ∈ db.contexts, row.artifactId ≠ some artifactId := by
  simp [referenced]

/-- The runs with a context are the old ones, less the victims. -/
theorem map_deleteContexts : (db.deleteContexts victims).contexts.map ContextRunRow.scanRunId =
    (deleteWhere (fun row => decide (row.scanRunId ∈ victims)) db.contexts).map
      ContextRunRow.scanRunId :=
  map_updateWhere _ fun _ => rfl

theorem hasContext_deleteContexts {scanRunId : ℕ} :
    (db.deleteContexts victims).hasContext scanRunId = true ↔
      db.hasContext scanRunId = true ∧ scanRunId ∉ victims := by
  have hkeys : (db.deleteContexts victims).hasContext scanRunId = true ↔
      scanRunId ∈ (db.deleteContexts victims).contexts.map ContextRunRow.scanRunId := by
    rw [hasContext_eq_true, List.mem_map]
  rw [hkeys, map_deleteContexts, List.mem_map, hasContext_eq_true]
  constructor
  · rintro ⟨row, hrow, rfl⟩
    obtain ⟨hmem, hkeep⟩ := mem_deleteWhere.1 hrow
    exact ⟨⟨row, hmem, rfl⟩, by simpa using hkeep⟩
  · rintro ⟨⟨row, hmem, rfl⟩, hkeep⟩
    exact ⟨row, mem_deleteWhere.2 ⟨hmem, by simpa using hkeep⟩, rfl⟩

end Db

end DailyReport.Store
