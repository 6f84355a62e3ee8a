import DailyReport.Store.Replay

/-!
# Runs and the lease

The operations of a process on its run: it begins the run, or gets the envelope that the run was
answered with (`beginRun`), keeps its lease alive (`heartbeat`), records the workers it talks to
(`recordWorkerFingerprints`) and may give the run up (`abandonActiveRun`).  Every operation is one
transaction: an error leaves the database as it was.

A read that an operation makes before its transaction is made again inside and is modelled once.
-/

namespace DailyReport.Store

open Lib

/-- How long a lease lives without a heartbeat. -/
def leaseGraceMs : ℤ := 20000

/-- A process's handle on a run it began. -/
structure ActiveRun where
  scanRunId : ℕ
  attemptNumber : ℕ
  ownerId : Text
  requestId : Text
  deriving DecidableEq

structure CanonicalRequest where
  requestId : Text
  json : Text
  hashAlgorithm : Text
  hash : Text
  deriving DecidableEq

inductive BeginRunOutcome
  | started (active : ActiveRun)
  | stored (envelope : StoredEnvelope)
  deriving DecidableEq

/-! ### The lease -/

/-- The lease has not expired, or its last heartbeat is recent. -/
def leaseIsLive (lease : LeaseRow) (now : ℤ) : Bool :=
  decide (lease.expiresAtMs > now) || decide (lease.heartbeatAtMs > now - leaseGraceMs)

def leaseExpiry (now : ℤ) : Except StoreError ℤ :=
  if now + leaseGraceMs ≤ i64Max then .ok (now + leaseGraceMs)
  else .error (.invalidRequest (lit "lease timestamp overflows"))

/-- The running rows of an owner. -/
def runningRun (ownerId : Text) (row : ScanRunRow) : Bool :=
  decide (row.ownerId = ownerId) && decide (row.status = .running)

def runningAttempt (ownerId : Text) (row : AttemptRow) : Bool :=
  decide (row.ownerId = ownerId) && decide (row.status = .running)

def ScanRunRow.abandon (now : ℤ) (row : ScanRunRow) : ScanRunRow :=
  { row with status := .abandoned, updatedAtMs := now, finishedAtMs := some now }

def AttemptRow.abandon (now : ℤ) (row : AttemptRow) : AttemptRow :=
  { row with status := .abandoned, finishedAtMs := some now }

/-- Abandon what the owner of an expired lease left running. -/
def reclaimExpiredLease (db : Db) (lease : LeaseRow) (now : ℤ) : Except StoreError Db := do
  require (leaseIsLive lease now = false) .scanAlreadyRunning
  .ok { db with
    runs := updateWhere (runningRun lease.ownerId) (ScanRunRow.abandon now) db.runs
    attempts := updateWhere (runningAttempt lease.ownerId) (AttemptRow.abandon now) db.attempts
    lease := none }

/-- The running row of an active run. -/
def ownRun (active : ActiveRun) (row : ScanRunRow) : Bool :=
  decide (row.scanRunId = active.scanRunId) && runningRun active.ownerId row

/-- The running row of the attempt of an active run. -/
def ownAttempt (active : ActiveRun) (row : AttemptRow) : Bool :=
  decide (row.scanRunId = active.scanRunId) &&
    decide (row.attemptNumber = active.attemptNumber) && runningAttempt active.ownerId row

/-- The lease belongs to an owner. -/
def leaseOwned (db : Db) (ownerId : Text) : Bool :=
  db.lease.any fun lease => decide (lease.ownerId = ownerId)

def ensureOwner (db : Db) (active : ActiveRun) : Except StoreError Unit :=
  require (db.runs.any (ownRun active) = true ∧ leaseOwned db active.ownerId = true) .leaseLost

/-- The live lease of an owner. -/
def liveLease (db : Db) (ownerId : Text) (now : ℤ) : Except StoreError LeaseRow :=
  match db.lease with
  | some lease =>
    if lease.ownerId = ownerId ∧ leaseIsLive lease now = true then .ok lease else .error .leaseLost
  | none => .error .leaseLost

def heartbeatInTransaction (db : Db) (active : ActiveRun) (now : ℤ) : Except StoreError Db := do
  ensureOwner db active
  let expiresAtMs ← leaseExpiry now
  let lease ← liveLease db active.ownerId now
  -- the table refuses a heartbeat from before the lease
  require (lease.acquiredAtMs ≤ now) checkFailed
  .ok { db with
    lease := some { lease with heartbeatAtMs := now, expiresAtMs }
    runs := updateWhere (ownRun active) (fun row => { row with updatedAtMs := now }) db.runs }

def heartbeat (db : Db) (active : ActiveRun) (nowMs : ℕ) : Except StoreError Db := do
  let now ← checkedI64 nowMs (lit "heartbeat timestamp")
  heartbeatInTransaction db active now

/-! ### Beginning a run -/

/-- `is_contract_absolute_text`. -/
def isContractAbsoluteText (value : Text) : Bool :=
  isAbsolute value && !(value.contains (Char.ofNat 0)) && decide (countChars value ≤ 32767)

def AttemptRuntime.validate (runtime : AttemptRuntime) : Except StoreError Unit :=
  require (isContractAbsoluteText runtime.normalizedScanDbPath = true ∧
      isContractAbsoluteText runtime.normalizedOfficeWorkerPath = true ∧
      isContractAbsoluteText runtime.normalizedPdfWorkerPath = true ∧
      runtime.engineFingerprint ≠ [] ∧ countChars runtime.engineFingerprint ≤ 4096)
    (.invalidRequest (lit "attempt runtime fingerprint is incomplete"))

def requestHashAlgorithm : Text := lit "sha256-request-v1"

def findRun (db : Db) (requestId : Text) : Option ScanRunRow :=
  db.runs.find? fun row => decide (row.requestId = requestId)

variable [Sha256]

/-- What `beginRun` checks before it looks at the database. -/
def validateBegin (requestId : Text) (canonical : CanonicalRequest) (runtime : AttemptRuntime)
    (storePath : Text) (nowMs : ℕ) : Except StoreError ℤ := do
  runtime.validate
  let now ← checkedI64 nowMs (lit "run timestamp")
  require (canonical.hashAlgorithm = requestHashAlgorithm ∧ canonical.requestId = requestId ∧
      isSha256Hex canonical.hash = true ∧ canonical.json ≠ [] ∧
      requestHash canonical.json = canonical.hash)
    (.invalidRequest (lit "canonical request fingerprint is invalid"))
  require (storePath = runtime.normalizedScanDbPath)
    (.invalidRequest (lit "attempt scan database path does not match the opened store"))
  .ok now

/-- The stored request of a run is the request that is made again. -/
def ensureRequestHash (run : ScanRunRow) (canonical : CanonicalRequest) :
    Except StoreError Unit := do
  require (requestHash run.canonicalRequestJson = run.requestHash) storedRequestInvalid
  require (run.requestHash = canonical.hash ∧ run.canonicalRequestJson = canonical.json)
    .requestIdConflict

def ensureExistingRequest (existing : Option ScanRunRow) (canonical : CanonicalRequest) :
    Except StoreError Unit :=
  match existing with
  | some run => ensureRequestHash run canonical
  | none => .ok ()

/-- The run of the request is running. -/
def requestRunning (existing : Option ScanRunRow) : Bool :=
  existing.any fun run => decide (run.status = .running)

/-- Make sure that nobody holds the lease, reclaiming it where it has expired. -/
def releaseLease (db : Db) (existing : Option ScanRunRow) (now : ℤ) : Except StoreError Db :=
  match db.lease with
  | some lease =>
    if leaseIsLive lease now then
      .error (if requestRunning existing then .requestInProgress else .scanAlreadyRunning)
    else reclaimExpiredLease db lease now
  | none =>
    if requestRunning existing then .error (.runCorrupt (lit "running row has no engine lease"))
    else .ok db

/-- The abandoned row of a run that is begun again. -/
def abandonedRun (scanRunId : ℕ) (row : ScanRunRow) : Bool :=
  decide (row.scanRunId = scanRunId) && decide (row.status = .abandoned)

def ScanRunRow.restart (ownerId : Text) (now : ℤ) (row : ScanRunRow) : ScanRunRow :=
  { row with
    ownerId, status := .running, startedAtMs := now, updatedAtMs := now, finishedAtMs := none
    finalEnvelopeJson := none }

/-- Begin an abandoned run again: what it had staged is cleared first. -/
def restartRun (db : Db) (run : ScanRunRow) (ownerId : Text) (now : ℤ) :
    Except StoreError (Db × ℕ) := do
  -- the status is the one read before the lease was reclaimed, but for a run that was running
  require (run.status = .abandoned ∨ run.status = .running)
    (.runCorrupt (lit "nonterminal run cannot be restarted"))
  require (db.runs.countP (abandonedRun run.scanRunId) = 1)
    (.runCorrupt (lit "abandoned run could not be reactivated"))
  .ok
    ({ db.deleteContexts [run.scanRunId] with
        runs := updateWhere (abandonedRun run.scanRunId) (ScanRunRow.restart ownerId now) db.runs },
      run.scanRunId)

def createRun (db : Db) (requestId : Text) (canonical : CanonicalRequest) (ownerId : Text)
    (now : ℤ) : Except StoreError (Db × ℕ) := do
  require (db.nextRun ≤ i64Max) databaseFull
  .ok
    ({ db with
        runs := db.runs ++
          [{ scanRunId := db.nextRun
             requestId
             canonicalRequestJson := canonical.json
             requestHash := canonical.hash
             ownerId
             status := .running
             createdAtMs := now
             startedAtMs := now
             updatedAtMs := now
             finishedAtMs := none
             finalEnvelopeJson := none
             finalEnvelopeMetadataJson := none
             auditSizeBytes := none }]
        nextRun := db.nextRun + 1 },
      db.nextRun)

/-- Begin the run of the request again, or a new one. -/
def startRun (db : Db) (existing : Option ScanRunRow) (requestId : Text)
    (canonical : CanonicalRequest) (ownerId : Text) (now : ℤ) : Except StoreError (Db × ℕ) :=
  match existing with
  | some run => restartRun db run ownerId now
  | none => createRun db requestId canonical ownerId now

/-- `coalesce(max(attempt_number), 0) + 1`. -/
def nextAttempt (db : Db) (scanRunId : ℕ) : ℕ :=
  ((db.attempts.filter fun row => decide (row.scanRunId = scanRunId)).map
    AttemptRow.attemptNumber).foldr max 0 + 1

/-- Take the lease and begin an attempt of the run. -/
def startAttempt (db : Db) (existing : Option ScanRunRow) (requestId : Text)
    (canonical : CanonicalRequest) (runtime : AttemptRuntime) (ownerId : Text) (now : ℤ) :
    Except StoreError (Db × BeginRunOutcome) := do
  let released ← releaseLease db existing now
  let expiresAtMs ← leaseExpiry now
  let leased :=
    { released with lease := some { ownerId, acquiredAtMs := now, heartbeatAtMs := now, expiresAtMs } }
  let (started, scanRunId) ← startRun leased existing requestId canonical ownerId now
  let attemptNumber := nextAttempt started scanRunId
  .ok
    ({ started with
        attempts := started.attempts ++
          [{ scanRunId, attemptNumber, ownerId, runtime, office := none, pdf := none
             startedAtMs := now, finishedAtMs := none, status := .running }] },
      .started { scanRunId, attemptNumber, ownerId, requestId })

/-- Begin the run of a request, or return the envelope it was answered with.  The owner id is drawn
at random. -/
def beginRun (db : Db) (requestId : Text) (canonical : CanonicalRequest) (runtime : AttemptRuntime)
    (storePath ownerId : Text) (nowMs : ℕ) : Except StoreError (Db × BeginRunOutcome) := do
  let now ← validateBegin requestId canonical runtime storePath nowMs
  let existing := findRun db requestId
  ensureExistingRequest existing canonical
  match existing.filter fun run => run.status.isTerminal with
  | some run => do
    let stored ← loadStoredEnvelope db run requestId
    .ok (db, .stored stored)
  | none => startAttempt db existing requestId canonical runtime ownerId now

/-! ### Keeping and giving up a run -/

def WorkerFingerprint.validate (fingerprint : WorkerFingerprint) : Except StoreError Unit :=
  require (fingerprint.contract ≠ [] ∧ countChars fingerprint.contract ≤ 1024 ∧
      fingerprint.version ≠ [] ∧ countChars fingerprint.version ≤ 1024 ∧
      fingerprint.build ≠ [] ∧ countChars fingerprint.build ≤ 4096)
    (.invalidRequest (lit "worker fingerprint is incomplete"))

def validateFingerprint (fingerprint : Option WorkerFingerprint) : Except StoreError Unit :=
  match fingerprint with
  | some fingerprint => fingerprint.validate
  | none => .ok ()

def recordWorkerFingerprints (db : Db) (active : ActiveRun) (office pdf : Option WorkerFingerprint)
    (nowMs : ℕ) : Except StoreError Db := do
  validateFingerprint office
  validateFingerprint pdf
  let now ← checkedI64 nowMs (lit "worker fingerprint timestamp")
  ensureOwner db active
  require (db.attempts.countP (ownAttempt active) = 1) .leaseLost
  heartbeatInTransaction
    { db with
      attempts := updateWhere (ownAttempt active) (fun row => { row with office, pdf }) db.attempts }
    active now

def abandonActiveRun (db : Db) (active : ActiveRun) (nowMs : ℕ) : Except StoreError Db := do
  let now ← checkedI64 nowMs (lit "abandon timestamp")
  ensureOwner db active
  require (db.runs.countP (ownRun active) = 1 ∧ db.attempts.countP (ownAttempt active) = 1 ∧
    leaseOwned db active.ownerId = true) .leaseLost
  .ok { db with
    runs := updateWhere (ownRun active) (ScanRunRow.abandon now) db.runs
    attempts := updateWhere (ownAttempt active) (AttemptRow.abandon now) db.attempts
    lease := none }

end DailyReport.Store
