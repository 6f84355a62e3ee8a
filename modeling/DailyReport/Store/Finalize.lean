import DailyReport.Scheduler.Warnings
import DailyReport.Store.Inventory
import DailyReport.Store.Retention
import DailyReport.Store.Runs

/-!
# Finalizing a run

A process finalizes its run in two steps.  `prepareFinalization` checks the batch and reads the
database: it looks for an artifact to share, plans the retention and rebuilds the envelope from what
will be stored.  `commitFinalization` is the terminal transaction.  Other processes may change the
database in between, so the transaction checks what it relies on again.

The rows of inventory, file results, diagnostics and metrics are not stored in the model; a write of
them that fails refuses the transaction.
-/

namespace DailyReport.Store

open Lib

structure ContextDecisionRecord where
  fileIdentity : Text
  decision : ContextDecision
  deriving DecidableEq

structure ContextRunRecord where
  contextProfileHash : Text
  status : RunStatus
  finalContext : Text
  contextSha256 : Text
  summary : ContextSummary
  decisions : List ContextDecisionRecord
  deriving DecidableEq

/-- The artifact that a run reuses, and the run it takes it from. -/
structure SnapshotHitRef where
  artifactId : ℕ
  reusedFromContextRunId : ℕ
  deriving DecidableEq

/-- What a run hands over to be stored.  `auditSizeBytes` is the size of its rows. -/
structure FinalizationBatch [Sha256] where
  status : RunStatus
  envelopeJson : Text
  inventory : List InventoryRecord
  fileResults : List FileResultRecord
  diagnostics : List RunDiagnosticRecord
  context : Option ContextRunRecord
  artifact : Option NewArtifact
  snapshotKey : Option SnapshotKeyParts
  snapshotHit : Option SnapshotHitRef
  refillAudit : Option Json
  pdfPageAudits : Option Json
  auditSizeBytes : ℕ

/-! ### Validating the batch -/

def checked (result : Checked) : Except StoreError Unit :=
  match result with
  | .ok () => .ok ()
  | .error message => .error (.invalidRequest message)

@[simp] theorem checked_eq_ok {result : Checked} {u : Unit} :
    checked result = .ok u ↔ result = .ok () := by
  cases result <;> simp [checked]

def invalid (message : String) : StoreError := .invalidRequest (lit message)

def requireTerminalStatus (status : RunStatus) : Except StoreError Unit :=
  require (status.isTerminal = true) (invalid "final status must be success, partial, or error")

/-- Every file result belongs to a file of the inventory, in the version that was found. -/
def fileResultMatches (inventory : List InventoryRecord) (r : FileResultRecord) : Bool :=
  inventory.any fun item =>
    decide (item.fileIdentity = r.fileIdentity) && decide (item.sourceVersion = r.sourceVersion)

def diagnosticsOf (severity : DiagnosticSeverity) (records : List RunDiagnosticRecord) :
    List Diagnostic :=
  (records.filter fun record => decide (record.severity = severity)).map
    RunDiagnosticRecord.diagnostic

/-- The numbers of a summary fit into their columns. -/
def summaryFitsSqlite (s : ContextSummary) : Bool :=
  [s.sourceFileCount, s.successCount, s.timeoutCount, s.includedFileCount, s.omittedFileCount,
    s.errorFileCount, s.inputChars, s.outputChars, s.totalDurationMs, s.discoveryDurationMs,
    s.parseDurationMs, s.compressionDurationMs].all fun n => decide (n ≤ i64Max)

def countStatus (fileResults : List FileResultRecord) (status : ParseStatus) : ℕ :=
  fileResults.countP fun r => decide (r.parseStatus = status)

def countAction (decisions : List ContextDecisionRecord) (actions : List ContextAction) : ℕ :=
  decisions.countP fun record => decide (record.decision.action ∈ actions)

/-- The counts of the summary are those of the file results and the decisions. -/
def countsAgree (context : ContextRunRecord) (fileResults : List FileResultRecord) : Bool :=
  let included := countAction context.decisions [.keep, .compress, .metadataOnly]
  let omitted := countAction context.decisions [.omit]
  let failed := countAction context.decisions [.error]
  let succeeded := countStatus fileResults .success
  let timedOut := countStatus fileResults .timeout
  let errors := countStatus fileResults .error
  decide (context.summary.successCount = succeeded) &&
    decide (context.summary.timeoutCount = timedOut) &&
    decide (context.summary.errorFileCount = errors) &&
    decide (context.summary.includedFileCount = included) &&
    decide (context.summary.omittedFileCount = omitted) &&
    decide (included = succeeded) &&
    decide (omitted = fileResults.length - succeeded - timedOut - errors) &&
    decide (failed = errors + timedOut) &&
    decide (included + omitted + failed = context.decisions.length) &&
    decide (context.summary.inputChars =
      (context.decisions.map fun record => record.decision.inputChars).sum) &&
    decide (context.summary.outputChars = countChars context.finalContext)

/-- A decision is valid, and its numbers fit into their columns. -/
def validateDecision (record : ContextDecisionRecord) : Except StoreError Unit := do
  checked record.decision.validate
  require (record.fileIdentity ≠ []) (invalid "context decision identity is invalid or duplicate")
  require (record.decision.priority ≤ i64Max ∧ record.decision.inputChars ≤ i64Max ∧
    record.decision.outputChars ≤ i64Max) (invalid "context decision exceeds SQLite integer range")

/-- The path of a decision is the path of its file. -/
def decisionPathAgrees (inventory : List InventoryRecord) (record : ContextDecisionRecord) : Bool :=
  inventory.any fun item => decide (item.fileIdentity = record.fileIdentity) &&
    decide (item.relativePath = record.decision.relativePath)

def finalStatusMatches : RunStatus → EngineStatus → Bool := envelopeStatusMatches

/-! ### Fingerprints -/

/-- The engine that an attempt was started with. -/
structure EngineFingerprint where
  contract : Text
  protocolVersion : ℕ
  binaryName : Text
  engineVersion : Text
  engineBuild : Text
  targetTriple : Text
  deriving DecidableEq

def EngineFingerprint.ofJson (v : Json) : Option EngineFingerprint := do
  let contract ← (← v.get (lit "contract")).asStr
  let protocolVersion ← (← v.get (lit "protocol_version")).asU64
  let binaryName ← (← v.get (lit "binary_name")).asStr
  let engineVersion ← (← v.get (lit "engine_version")).asStr
  let engineBuild ← (← v.get (lit "engine_build")).asStr
  let targetTriple ← (← v.get (lit "target_triple")).asStr
  guard (v.size = 6)
  some { contract, protocolVersion, binaryName, engineVersion, engineBuild, targetTriple }

/-- The running attempt of an active run. -/
def findAttempt (db : Db) (active : ActiveRun) : Except StoreError AttemptRow :=
  match db.attempts.find? (ownAttempt active) with
  | some attempt => .ok attempt
  | none => .error .leaseLost

def parseFingerprint (json : Text) : Except StoreError EngineFingerprint :=
  match (Json.parse json).bind EngineFingerprint.ofJson with
  | some fingerprint => .ok fingerprint
  | none => .error (corrupt "attempt engine fingerprint is invalid")

/-- The envelope was made by the engine that the attempt was started with. -/
def ensureEngineFingerprint (db : Db) (active : ActiveRun) (envelope : ContextEnvelope) :
    Except StoreError Unit := do
  let attempt ← findAttempt db active
  let fingerprint ← parseFingerprint attempt.runtime.engineFingerprint
  require (fingerprint.contract = envelope.contract ∧
      fingerprint.protocolVersion = envelope.protocolVersion ∧
      fingerprint.engineVersion = envelope.engineVersion ∧
      fingerprint.engineBuild = envelope.engineBuild)
    (corrupt "final envelope engine identity changed during the run")

def ensureWorkerFingerprints (db : Db) (active : ActiveRun) : Except StoreError Unit := do
  let attempt ← findAttempt db active
  require (attempt.office.isSome = true ∧ attempt.pdf.isSome = true)
    (corrupt "terminal attempt is missing required worker handshakes")

/-- A worker did not shake hands. -/
def handshakeFailed (diagnostics : List RunDiagnosticRecord) : Bool :=
  diagnostics.any fun record => decide (record.severity = .error) &&
    decide (record.diagnostic.errorCode ∈ [.workerHandshakeFailed, .workerVersionMismatch])

/-! ### The row of a context -/

/-- `INSERT INTO context_runs`. -/
def insertContext (db : Db) (scanRunId : ℕ) (context : ContextRunRecord) (artifactId : Option ℕ)
    (snapshotHit : Bool) (reusedFromContextRunId : Option ℕ) (now : ℤ) : Except StoreError Db := do
  require (context.status.isTerminal = true ∧ (context.status = .error ↔ artifactId = none))
    checkFailed
  require (snapshotHit = true ∨ reusedFromContextRunId = none) checkFailed
  require (db.hasContext scanRunId = false) uniqueFailed
  require (∀ id ∈ artifactId, db.hasArtifact id = true) foreignKeyFailed
  require (∀ id ∈ reusedFromContextRunId, id = scanRunId ∨ db.hasContext id = true)
    foreignKeyFailed
  .ok { db with
    contexts := db.contexts ++
      [{ scanRunId
         contextProfileHash := context.contextProfileHash
         status := context.status
         finalContext := context.finalContext
         contextSha256 := context.contextSha256
         summary := context.summary
         createdAtMs := now
         artifactId, reusedFromContextRunId, snapshotHit }] }

variable [Sha256]

/-- A run that has an outcome, or rows, or whose workers answered, has recorded its workers. -/
def ensureRequiredFingerprints (db : Db) (active : ActiveRun) (batch : FinalizationBatch) :
    Except StoreError Unit :=
  if batch.status = .success ∨ batch.status = .partialSuccess ∨ batch.inventory ≠ [] ∨
      batch.fileResults ≠ [] ∨ handshakeFailed batch.diagnostics = false then
    ensureWorkerFingerprints db active
  else .ok ()

def validateContext (context : ContextRunRecord) : Except StoreError Unit := do
  requireTerminalStatus context.status
  require (context.decisions.length ≤ 1000000)
    (invalid "context decision count exceeds the v1 limit")
  checked context.summary.validate
  require (isSha256Hex context.contextProfileHash = true ∧ isSha256Hex context.contextSha256 = true ∧
      Sha256.hex context.finalContext = context.contextSha256 ∧
      summaryFitsSqlite context.summary = true)
    (invalid "context fingerprint is invalid")
  context.decisions.forM validateDecision
  require (context.decisions.map ContextDecisionRecord.fileIdentity).Nodup
    (invalid "context decision identity is invalid or duplicate")

/-- The context agrees with the envelope and with the rows of the batch. -/
def validateContextRows (batch : FinalizationBatch) (context : ContextRunRecord)
    (envelope : ContextEnvelope) : Except StoreError Unit := do
  validateContext context
  require (context.status = batch.status ∧ context.finalContext = envelope.fileContext ∧
      context.summary = envelope.summary ∧
      context.summary.sourceFileCount = batch.inventory.length ∧
      (∀ record ∈ context.decisions,
        record.fileIdentity ∈ batch.inventory.map InventoryRecord.fileIdentity) ∧
      (∀ item ∈ batch.inventory,
        item.fileIdentity ∈ context.decisions.map ContextDecisionRecord.fileIdentity) ∧
      batch.fileResults.length = batch.inventory.length)
    (invalid "context rows disagree with the final envelope")
  require (context.decisions.all (decisionPathAgrees batch.inventory) = true)
    (invalid "decision path disagrees with inventory")
  require (countsAgree context batch.fileResults = true)
    (invalid "context summary disagrees with file or decision rows")

/-- The batch has a context exactly when its envelope names one, which is the run's own. -/
def validateContextOf (active : ActiveRun) (batch : FinalizationBatch)
    (envelope : ContextEnvelope) : Except StoreError Unit :=
  match batch.context, envelope.contextRunId with
  | some context, some contextRunId =>
    if contextRunId = active.scanRunId then validateContextRows batch context envelope
    else .error (invalid "context run identity is inconsistent")
  | none, none => .ok ()
  | _, _ => .error (invalid "context run identity is inconsistent")

def parseEnvelope (json : Text) : Except StoreError ContextEnvelope :=
  match ContextEnvelope.ofText json with
  | some envelope => .ok envelope
  | none => .error (invalid "final envelope JSON is invalid")

/-- The envelope of the batch, once the batch was checked. -/
def validateFinalization (active : ActiveRun) (batch : FinalizationBatch) :
    Except StoreError ContextEnvelope := do
  requireTerminalStatus batch.status
  require (batch.inventory.length ≤ 1000000 ∧ batch.fileResults.length ≤ 1000000 ∧
    batch.diagnostics.length ≤ 100001) (invalid "finalization batch exceeds the v1 row limits")
  require (batch.inventory.map InventoryRecord.fileIdentity).Nodup
    (invalid "inventory identities must be unique")
  batch.fileResults.forM fun r => checked (r.validateForPersistence batch.snapshotHit.isSome)
  require (batch.fileResults.all (fileResultMatches batch.inventory) = true ∧
      (batch.fileResults.map FileResultRecord.fileIdentity).Nodup)
    (invalid "file results must uniquely match inventory source versions")
  batch.diagnostics.forM fun record => checked record.diagnostic.validate
  let envelope ← parseEnvelope batch.envelopeJson
  checked envelope.validate
  require (envelope.json.print = batch.envelopeJson)
    (invalid "final envelope JSON must use canonical serialization")
  require (envelope.requestId = active.requestId ∧ envelope.scanRunId = some active.scanRunId ∧
      finalStatusMatches batch.status envelope.status = true)
    (invalid "final envelope does not match the active run")
  require (diagnosticsOf .warning batch.diagnostics = envelope.warnings ∧
      diagnosticsOf .error batch.diagnostics = envelope.error.toList)
    (invalid "final envelope diagnostics disagree with run diagnostics")
  validateContextOf active batch envelope
  .ok envelope

/-! ### Preparing -/

/-- What a process has prepared for its terminal transaction. -/
structure PreparedFinalization where
  active : ActiveRun
  batch : FinalizationBatch
  now : ℤ
  envelope : ContextEnvelope
  metadataJson : Text
  dedupArtifactId : Option ℕ
  artifactSize : ℕ
  protectedRuns : List ℕ
  protectedArtifacts : List ℕ
  plan : FinalizationRetentionPlan

def loadSnapshot (db : Db) (batch : FinalizationBatch) : Except StoreError (Option ArtifactDraft) :=
  match batch.snapshotHit with
  | some hit => (loadArtifact db hit.artifactId).map some
  | none => .ok none

/-- The artifact that the envelope is rebuilt from. -/
def artifactForRebuild (batch : FinalizationBatch) (snapshot : Option ArtifactDraft) :
    Option ArtifactDraft :=
  snapshot.or (batch.artifact.map Subtype.val)

/-- A context comes with an artifact that has the same counts. -/
def checkSemantics (batch : FinalizationBatch) (artifact : Option ArtifactDraft) :
    Except StoreError Unit :=
  match batch.context with
  | none => .ok ()
  | some context =>
    if batch.status = .error then .ok ()
    else
      match artifact with
      | none => .error (corrupt "success/partial run must carry artifact semantics")
      | some artifact =>
        require (artifact.semanticSummary.toContextCounts = context.summary.toContextCounts)
          (corrupt "artifact semantic summary disagrees with the current summary")

/-- The stored artifact that the batch's artifact is the same as. -/
def dedupBatch (db : Db) (batch : FinalizationBatch) : Except StoreError (Option ℕ) :=
  match batch.artifact, batch.snapshotKey with
  | some draft, some key => dedupArtifact db draft.val key
  | _, _ => .ok none

/-- The size of the batch's artifact. -/
def batchArtifactSize (batch : FinalizationBatch) : Option ℕ :=
  batch.artifact.map fun draft =>
    artifactSizeBytes draft.val draft.val.semanticSummary.json.print batch.snapshotKey

def protectedRunsOf (active : ActiveRun) (batch : FinalizationBatch) : List ℕ :=
  active.scanRunId :: (batch.snapshotHit.map SnapshotHitRef.reusedFromContextRunId).toList

def protectedArtifactsOf (batch : FinalizationBatch) (dedupArtifactId : Option ℕ) : List ℕ :=
  (batch.snapshotHit.map SnapshotHitRef.artifactId).toList ++ dedupArtifactId.toList

/-- Check the batch, read the database and plan the transaction. -/
def prepareFinalization (db : Db) (active : ActiveRun) (batch : FinalizationBatch) (nowMs : ℕ) :
    Except StoreError PreparedFinalization := do
  let envelope ← validateFinalization active batch
  let now ← checkedI64 nowMs (lit "finalization timestamp")
  let metadataJson := (envelopeMetadata envelope batch.refillAudit batch.pdfPageAudits).print
  let metadata ← parseMetadata metadataJson
  let snapshot ← loadSnapshot db batch
  checkSemantics batch (artifactForRebuild batch snapshot)
  let dedupArtifactId ← dedupBatch db batch
  let protectedRuns := protectedRunsOf active batch
  let protectedArtifacts := protectedArtifactsOf batch dedupArtifactId
  let plan ← prepareFinalizationRetentionPlan db active.scanRunId protectedRuns protectedArtifacts
    (if dedupArtifactId = none then batchArtifactSize batch else none) now batch.auditSizeBytes
  let rebuiltEnvelope ←
    rebuilt (rebuildEnvelope metadata envelope.summary (artifactForRebuild batch snapshot))
  let rebuiltJson ← canonicalEnvelopeJson rebuiltEnvelope
  require (rebuiltJson = batch.envelopeJson)
    (corrupt "rebuilt envelope disagrees with the committed envelope")
  .ok
    { active, batch, now, envelope, metadataJson, dedupArtifactId
      artifactSize := (batchArtifactSize batch).getD 0
      protectedRuns, protectedArtifacts, plan }

/-! ### The terminal transaction -/

/-- The artifact of the context: the one that is reused, the one that is shared, or a new one, for
which the plan makes room. -/
def storeArtifact (db : Db) (p : PreparedFinalization) : Except StoreError (Db × ℕ) :=
  match p.batch.snapshotHit with
  | some hit => do
    require (db.hasArtifact hit.artifactId = true)
      (corrupt "snapshot artifact disappeared before terminal commit")
    .ok (db, hit.artifactId)
  | none =>
    match p.batch.artifact with
    | none => .error (corrupt "success/partial run must carry an artifact draft")
    | some draft => do
      require (draft.val.snapshotEligible = p.batch.snapshotKey.isSome)
        (corrupt "artifact eligibility disagrees with the snapshot key")
      match p.dedupArtifactId with
      | some artifactId => .ok (db, artifactId)
      | none => do
        let db ← applyArtifactRetentionPlan db p.plan p.protectedRuns p.protectedArtifacts
        insertArtifact db draft.val p.batch.snapshotKey draft.val.semanticSummary.json.print
          p.artifactSize p.now

/-- Store the context of the batch.  The context of a failed run has no artifact. -/
def storeContext (db : Db) (p : PreparedFinalization) : Except StoreError Db :=
  match p.batch.context with
  | none => .ok db
  | some context =>
    if p.batch.status = .error then
      insertContext db p.active.scanRunId context none false none p.now
    else do
      let (db, artifactId) ← storeArtifact db p
      insertContext db p.active.scanRunId context (some artifactId) p.batch.snapshotHit.isSome
        (p.batch.snapshotHit.map SnapshotHitRef.reusedFromContextRunId) p.now

/-- The finished row of a run. -/
def ScanRunRow.finish (status : RunStatus) (now : ℤ) (metadataJson : Text) (auditSizeBytes : ℕ)
    (row : ScanRunRow) : ScanRunRow :=
  { row with
    status, updatedAtMs := now, finishedAtMs := some now
    -- the body of the envelope is in the artifact: both columns hold the metadata
    finalEnvelopeJson := some metadataJson
    finalEnvelopeMetadataJson := some metadataJson
    auditSizeBytes := some auditSizeBytes }

def AttemptRow.finish (status : RunStatus) (now : ℤ) (row : AttemptRow) : AttemptRow :=
  { row with status, finishedAtMs := some now }

/-- The run and its attempt get the status of the batch. -/
def finishRows (db : Db) (p : PreparedFinalization) : Except StoreError Db := do
  require (db.runs.countP (ownRun p.active) = 1) .leaseLost
  require (db.attempts.countP (ownAttempt p.active) = 1) .leaseLost
  .ok { db with
    runs := updateWhere (ownRun p.active)
      (ScanRunRow.finish p.batch.status p.now p.metadataJson p.batch.auditSizeBytes) db.runs
    attempts := updateWhere (ownAttempt p.active) (AttemptRow.finish p.batch.status p.now)
      db.attempts }

/-- The terminal transaction. -/
def commitFinalization (db : Db) (p : PreparedFinalization) : Except StoreError Db := do
  let db ← heartbeatInTransaction db p.active p.now
  ensureEngineFingerprint db p.active p.envelope
  ensureRequiredFingerprints db p.active p.batch
  let db ← storeContext db p
  let db ← finishRows db p
  let db ← applyTerminalRetentionPlan db p.plan p.protectedRuns
  require (leaseOwned db p.active.ownerId = true) .leaseLost
  .ok { db with lease := none }

end DailyReport.Store
