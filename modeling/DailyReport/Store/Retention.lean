import DailyReport.Lib.Chunk
import DailyReport.Store.Artifacts
import Mathlib.Data.Prod.Lex
import Mathlib.Order.WithBot

/-!
# Retention

Three caps bound the database: the bytes of the artifacts, the number of finished runs and the bytes
of their audits.  Before a run is finalized, `prepareFinalizationRetentionPlan` simulates the
deletions that make room for it; inside the transaction `applyArtifactRetentionPlan` and
`applyTerminalRetentionPlan` delete the planned rows and refuse if any row has changed.
`runOpportunisticGc` deletes old rows between runs.

The simulation follows the program: reference counts per artifact, the unreferenced ones in order of
age (`orphans`), finished runs in order of age, and victims in batches.
-/

namespace DailyReport.Store

open Lib

def retentionDeleteBatchSize : ℕ := 64
def contextArtifactsMaxBytes : ℕ := 536870912
def terminalAuditMaxBytes : ℕ := 2147483648
def terminalRunMaxCount : ℕ := 500

/-- Ninety days. -/
def terminalRunMaxAgeMs : ℤ := 90 * 86400000

def corrupt (message : String) : StoreError := .runCorrupt (lit message)

inductive PreparedRetentionDelete
  | artifacts (ids : List ℕ)
  | runs (ids : List ℕ)
  deriving DecidableEq

structure FinalizationRetentionPlan where
  artifactRoom : List PreparedRetentionDelete
  terminalRunBatches : List (List ℕ)
  newArtifactSize : Option ℕ
  deriving DecidableEq

structure ArtifactRetentionState where
  artifactId : ℕ
  artifactSizeBytes : ℕ
  createdAtMs : ℤ
  remainingReferences : ℕ
  removed : Bool
  deriving DecidableEq

structure TerminalRetentionState where
  scanRunId : ℕ
  finishedAtMs : ℤ
  auditSizeBytes : ℕ
  deriving DecidableEq

/-! ### Reading the tables -/

/-- Add a size to a total that a column can hold. -/
def addBytes (message : String) (total size : ℕ) : Except StoreError ℕ :=
  if total + size ≤ i64Max then .ok (total + size) else .error (corrupt message)

/-- The contexts of an artifact. -/
def references (contexts : List ContextRunRow) (artifactId : ℕ) : ℕ :=
  contexts.countP fun row => decide (row.artifactId = some artifactId)

/-- The artifacts with their references, in order of id. -/
def artifactStates (db : Db) : List ArtifactRetentionState :=
  (sortByKey ContextArtifactRow.artifactId db.artifacts).map fun row =>
    { artifactId := row.artifactId
      artifactSizeBytes := row.artifactSizeBytes
      createdAtMs := row.createdAtMs
      remainingReferences := references db.contexts row.artifactId
      removed := false }

/-- The bytes of the artifacts. -/
def artifactTotal (db : Db) : Except StoreError ℕ :=
  (artifactStates db).foldlM
    (fun total state =>
      addBytes "artifact retention byte total overflowed" total state.artifactSizeBytes) 0

/-- Every context refers to an artifact that is there. -/
def checkReferences (db : Db) : Except StoreError Unit :=
  require (∀ row ∈ db.contexts, ∀ id ∈ row.artifactId, db.hasArtifact id = true)
    (corrupt "context run references a missing artifact during retention planning")

/-- The order in which finished runs are deleted. -/
def finishedKey (row : ScanRunRow) : WithBot ℤ ×ₗ ℕ :=
  toLex ((row.finishedAtMs : WithBot ℤ), row.scanRunId)

/-- The runs that are not running, the first finished first. -/
def finishedRuns (db : Db) : List ScanRunRow :=
  sortByKey finishedKey (db.runs.filter fun row => decide (row.status ≠ .running))

def finishedTime (row : ScanRunRow) : Except StoreError ℤ :=
  match row.finishedAtMs with
  | some finished => .ok finished
  | none => .error (corrupt "terminal retention row has no finished timestamp")

/-- The audit size of a run.  An abandoned run has stored no audit. -/
def auditSize (row : ScanRunRow) : Except StoreError ℕ :=
  match row.auditSizeBytes with
  | some size => .ok size
  | none =>
    if row.status = .abandoned then .ok 0
    else .error (.cacheWrite (lit "Invalid column type"))

def terminalState (currentRunId : ℕ) (row : ScanRunRow) :
    Except StoreError TerminalRetentionState := do
  require (row.scanRunId ≠ currentRunId)
    (corrupt "active run became terminal before finalization")
  let finishedAtMs ← finishedTime row
  let auditSizeBytes ← auditSize row
  .ok { scanRunId := row.scanRunId, finishedAtMs, auditSizeBytes }

def terminalStates (db : Db) (currentRunId : ℕ) :
    Except StoreError (List TerminalRetentionState) :=
  (finishedRuns db).mapM (terminalState currentRunId)

/-! ### Making room for an artifact -/

/-- The state of the simulation: the artifacts with their simulated references, the unreferenced
ones in order of age, the bytes that are left, and the finished runs that were not looked at yet. -/
structure RoomState where
  artifacts : List ArtifactRetentionState
  orphans : List (ℤ ×ₗ ℕ)
  artifactBytes : ℕ
  runs : List TerminalRetentionState

def ArtifactRetentionState.age (state : ArtifactRetentionState) : ℤ ×ₗ ℕ :=
  toLex (state.createdAtMs, state.artifactId)

/-- Put an artifact among the orphans. -/
def pushOrphan (state : ArtifactRetentionState) (orphans : List (ℤ ×ₗ ℕ)) : List (ℤ ×ₗ ℕ) :=
  orphans.orderedInsert (· ≤ ·) state.age

def initialOrphans (protectedArtifacts : List ℕ) (artifacts : List ArtifactRetentionState) :
    List (ℤ ×ₗ ℕ) :=
  (artifacts.filter fun state =>
    decide (state.remainingReferences = 0) && decide (state.artifactId ∉ protectedArtifacts)).foldl
      (fun orphans state => pushOrphan state orphans) []

def findState (artifacts : List ArtifactRetentionState) (artifactId : ℕ) :
    Option ArtifactRetentionState :=
  artifacts.find? fun state => decide (state.artifactId = artifactId)

def setState (artifacts : List ArtifactRetentionState) (artifactId : ℕ)
    (f : ArtifactRetentionState → ArtifactRetentionState) : List ArtifactRetentionState :=
  updateWhere (fun state => decide (state.artifactId = artifactId)) f artifacts

/-- The artifact may go: it is there, unreferenced and not protected. -/
def removable (protectedArtifacts : List ℕ) (state : ArtifactRetentionState) : Bool :=
  !state.removed && decide (state.remainingReferences = 0) &&
    decide (state.artifactId ∉ protectedArtifacts)

/-- Take up to `room` orphans, the oldest first. -/
def selectOrphans (protectedArtifacts : List ℕ) : ℕ → List (ℤ ×ₗ ℕ) →
    List ArtifactRetentionState → ℕ →
    List ℕ × List (ℤ ×ₗ ℕ) × List ArtifactRetentionState × ℕ
  | _, [], artifacts, bytes => ([], [], artifacts, bytes)
  | 0, orphans, artifacts, bytes => ([], orphans, artifacts, bytes)
  | room + 1, age :: orphans, artifacts, bytes =>
    match (findState artifacts (ofLex age).2).filter (removable protectedArtifacts) with
    | none => selectOrphans protectedArtifacts (room + 1) orphans artifacts bytes
    | some state =>
      let rest := selectOrphans protectedArtifacts room orphans
        (setState artifacts state.artifactId fun state => { state with removed := true })
        (bytes - state.artifactSizeBytes)
      (state.artifactId :: rest.1, rest.2)

def selectOrphanArtifactBatch (protectedArtifacts : List ℕ) (state : RoomState) :
    List ℕ × RoomState :=
  let (batch, orphans, artifacts, artifactBytes) :=
    selectOrphans protectedArtifacts retentionDeleteBatchSize state.orphans state.artifacts
      state.artifactBytes
  (batch, { state with orphans, artifacts, artifactBytes })

/-- A context of an artifact goes.  The artifact may become an orphan. -/
def dropReference (protectedArtifacts : List ℕ) (state : RoomState) (artifactId : ℕ) :
    Except StoreError RoomState :=
  match findState state.artifacts artifactId with
  | none => .ok state
  | some artifact =>
    if artifact.remainingReferences = 0 then
      .error (corrupt "artifact reference simulation underflowed")
    else
      let artifact :=
        { artifact with remainingReferences := artifact.remainingReferences - 1 }
      .ok
        { state with
          artifacts := setState state.artifacts artifactId fun _ => artifact
          orphans :=
            if removable protectedArtifacts artifact then pushOrphan artifact state.orphans
            else state.orphans }

/-- The artifacts of the contexts of a run. -/
def runArtifacts (contexts : List ContextRunRow) (scanRunId : ℕ) : List ℕ :=
  (contexts.filter fun row => decide (row.scanRunId = scanRunId)).filterMap
    ContextRunRow.artifactId

/-- Take up to `room` unprotected runs, the first finished first. -/
def selectRuns (db : Db) (protectedRuns protectedArtifacts : List ℕ) : ℕ →
    List TerminalRetentionState → RoomState → Except StoreError (List ℕ × RoomState)
  | 0, runs, state => .ok ([], { state with runs })
  | _ + 1, [], state => .ok ([], { state with runs := [] })
  | room + 1, run :: runs, state =>
    if run.scanRunId ∈ protectedRuns then
      selectRuns db protectedRuns protectedArtifacts (room + 1) runs state
    else do
      let state ← (runArtifacts db.contexts run.scanRunId).foldlM
        (dropReference protectedArtifacts) state
      let (batch, state) ← selectRuns db protectedRuns protectedArtifacts room runs state
      .ok (run.scanRunId :: batch, state)

def selectRunBatch (db : Db) (protectedRuns protectedArtifacts : List ℕ) (state : RoomState) :
    Except StoreError (List ℕ × RoomState) :=
  selectRuns db protectedRuns protectedArtifacts retentionDeleteBatchSize state.runs state

def noRoom : StoreError :=
  corrupt "context artifact retention could not make room for the current artifact"

/-- Delete orphans, and runs where there are no orphans, until the new artifact fits.  Every round
deletes an artifact or a run, so there are at most as many rounds as rows. -/
def makeRoom (db : Db) (protectedRuns protectedArtifacts : List ℕ) (newSize : ℕ) : ℕ → RoomState →
    Except StoreError (List PreparedRetentionDelete)
  | 0, state =>
    if state.artifactBytes + newSize ≤ contextArtifactsMaxBytes then .ok [] else .error noRoom
  | rounds + 1, state =>
    if state.artifactBytes + newSize ≤ contextArtifactsMaxBytes then .ok []
    else
      let (orphanBatch, orphanState) := selectOrphanArtifactBatch protectedArtifacts state
      if orphanBatch ≠ [] then do
        let rest ← makeRoom db protectedRuns protectedArtifacts newSize rounds orphanState
        .ok (.artifacts orphanBatch :: rest)
      else do
        let (runBatch, runState) ← selectRunBatch db protectedRuns protectedArtifacts orphanState
        if runBatch = [] then .error noRoom
        else do
          let rest ← makeRoom db protectedRuns protectedArtifacts newSize rounds runState
          .ok (.runs runBatch :: rest)

/-! ### The finished runs -/

/-- The runs that the artifact room deletes. -/
def roomRuns (room : List PreparedRetentionDelete) : List ℕ :=
  room.flatMap fun deletion =>
    match deletion with
    | .artifacts _ => []
    | .runs ids => ids

/-- The runs that are too old. -/
def agedRuns (protectedRuns : List ℕ) (cutoff : ℤ) (runs : List TerminalRetentionState) :
    List TerminalRetentionState :=
  runs.filter fun run => decide (run.scanRunId ∉ protectedRuns) && decide (run.finishedAtMs < cutoff)

/-- The number of finished runs and the bytes of their audits, the current run included. -/
def terminalTotals (auditBytes : ℕ) (runs : List TerminalRetentionState) :
    Except StoreError (ℕ × ℕ) :=
  runs.foldlM
    (fun totals run => do
      let count ← addBytes "terminal retention row count overflowed" totals.1 1
      let bytes ← addBytes "terminal retention byte total overflowed" totals.2 run.auditSizeBytes
      .ok (count, bytes))
    (1, auditBytes)

/-- The caps on finished runs hold. -/
def terminalFits (count bytes : ℕ) : Bool :=
  decide (count ≤ terminalRunMaxCount) && decide (bytes ≤ terminalAuditMaxBytes)

/-- Delete the first finished runs until the caps hold. -/
def capRuns (protectedRuns : List ℕ) : List TerminalRetentionState → ℕ → ℕ →
    List TerminalRetentionState × ℕ × ℕ
  | [], count, bytes => ([], count, bytes)
  | run :: runs, count, bytes =>
    if terminalFits count bytes then ([], count, bytes)
    else if run.scanRunId ∈ protectedRuns then capRuns protectedRuns runs count bytes
    else
      let rest := capRuns protectedRuns runs (count - 1) (bytes - run.auditSizeBytes)
      (run :: rest.1, rest.2)

def batches (runs : List TerminalRetentionState) : List (List ℕ) :=
  chunks retentionDeleteBatchSize (runs.map TerminalRetentionState.scanRunId)

/-- The runs that the age and the caps delete, in batches. -/
def planTerminalRuns (protectedRuns : List ℕ) (auditBytes : ℕ) (now : ℤ)
    (runs : List TerminalRetentionState) : Except StoreError (List (List ℕ)) := do
  let aged := agedRuns protectedRuns (now - terminalRunMaxAgeMs) runs
  let kept := runs.filter fun run => decide (run ∉ aged)
  let (count, bytes) ← terminalTotals auditBytes kept
  let (capped, count, bytes) := capRuns protectedRuns kept count bytes
  require (terminalFits count bytes = true)
    (corrupt "terminal audit retention could not make room for the current record")
  .ok (batches aged ++ batches capped)

/-! ### The plan -/

/-- Room for the new artifact, where there is one. -/
def planArtifactRoom (db : Db) (protectedRuns protectedArtifacts : List ℕ)
    (newArtifactSize : Option ℕ) (artifactBytes : ℕ) (runs : List TerminalRetentionState) :
    Except StoreError (List PreparedRetentionDelete) :=
  match newArtifactSize with
  | none => .ok []
  | some newSize =>
    makeRoom db protectedRuns protectedArtifacts newSize (db.artifacts.length + runs.length)
      { artifacts := artifactStates db
        orphans := initialOrphans protectedArtifacts (artifactStates db)
        artifactBytes, runs }

def prepareFinalizationRetentionPlan (db : Db) (currentRunId : ℕ)
    (protectedRuns protectedArtifacts : List ℕ) (newArtifactSize : Option ℕ) (now : ℤ)
    (auditBytes : ℕ) : Except StoreError FinalizationRetentionPlan := do
  require (auditBytes ≤ terminalAuditMaxBytes)
    (corrupt "current terminal audit exceeds the 2 GiB retention cap")
  require (∀ size ∈ newArtifactSize, size ≤ contextArtifactsMaxBytes)
    (corrupt "current artifact exceeds the 512 MiB context artifact cap")
  let artifactBytes ← artifactTotal db
  checkReferences db
  let runs ← terminalStates db currentRunId
  let artifactRoom ←
    planArtifactRoom db protectedRuns protectedArtifacts newArtifactSize artifactBytes runs
  let left := runs.filter fun run => decide (run.scanRunId ∉ roomRuns artifactRoom)
  let terminalRunBatches ← planTerminalRuns protectedRuns auditBytes now left
  .ok { artifactRoom, terminalRunBatches, newArtifactSize }

/-! ### Applying the plan -/

/-- Delete artifacts that no context refers to.  Every one of them must still be there. -/
def deletePreparedArtifacts (db : Db) (ids protectedArtifacts : List ℕ) : Except StoreError Db := do
  let victims := db.artifacts.filter fun row => decide (row.artifactId ∈ ids) &&
    !db.referenced row.artifactId && decide (row.artifactId ∉ protectedArtifacts)
  require (victims.length = ids.length)
    (corrupt "prepared artifact retention victims changed before terminal apply")
  .ok (db.deleteArtifacts (victims.map ContextArtifactRow.artifactId))

/-- Delete finished runs.  Every one of them must still be there. -/
def deletePreparedTerminalRuns (db : Db) (ids protectedRuns : List ℕ) : Except StoreError Db := do
  let victims := db.runs.filter fun row => decide (row.scanRunId ∈ ids) &&
    decide (row.status ≠ .running) && decide (row.scanRunId ∉ protectedRuns)
  require (victims.length = ids.length)
    (corrupt "prepared terminal retention victims changed before terminal apply")
  .ok (db.deleteRuns (victims.map ScanRunRow.scanRunId))

def applyDeletion (protectedRuns protectedArtifacts : List ℕ) (db : Db) :
    PreparedRetentionDelete → Except StoreError Db
  | .artifacts ids => deletePreparedArtifacts db ids protectedArtifacts
  | .runs ids => deletePreparedTerminalRuns db ids protectedRuns

/-- The bytes of the artifacts. -/
def artifactBytes (db : Db) : ℕ := (db.artifacts.map ContextArtifactRow.artifactSizeBytes).sum

def applyArtifactRetentionPlan (db : Db) (plan : FinalizationRetentionPlan)
    (protectedRuns protectedArtifacts : List ℕ) : Except StoreError Db := do
  let db ← plan.artifactRoom.foldlM (applyDeletion protectedRuns protectedArtifacts) db
  require (∀ size ∈ plan.newArtifactSize, artifactBytes db + size ≤ contextArtifactsMaxBytes)
    (corrupt "prepared artifact retention plan no longer makes room")
  .ok db

/-- The bytes of the audits of the finished runs. -/
def auditBytes (db : Db) : ℕ :=
  ((finishedRuns db).map fun row => row.auditSizeBytes.getD 0).sum

def applyTerminalRetentionPlan (db : Db) (plan : FinalizationRetentionPlan)
    (protectedRuns : List ℕ) : Except StoreError Db := do
  let db ← plan.terminalRunBatches.foldlM
    (fun db ids => deletePreparedTerminalRuns db ids protectedRuns) db
  require (terminalFits (finishedRuns db).length (auditBytes db) = true)
    (corrupt "prepared terminal retention plan no longer satisfies the hard caps")
  .ok db

/-! ### Opportunistic deletion -/

/-- The first artifacts without a context, the oldest first. -/
def gcArtifacts (db : Db) : List ℕ :=
  ((sortByKey (fun row : ContextArtifactRow => toLex (row.createdAtMs, row.artifactId))
    (db.artifacts.filter fun row => !db.referenced row.artifactId)).take 64).map
      ContextArtifactRow.artifactId

/-- The first runs that are too old. -/
def gcRuns (db : Db) (now : ℤ) : List ℕ :=
  (((finishedRuns db).filter fun row =>
    row.finishedAtMs.any fun finished => decide (finished < now - terminalRunMaxAgeMs)).take 64).map
      ScanRunRow.scanRunId

/-- Delete artifacts without a context and old runs.  Each statement is left out when the time
budget is spent before it. -/
def runOpportunisticGc (db : Db) (nowMs : ℕ) (artifactsStatement runsStatement : Bool) :
    Except StoreError Db := do
  let now ← checkedI64 nowMs (lit "opportunistic gc timestamp")
  let db := if artifactsStatement then db.deleteArtifacts (gcArtifacts db) else db
  .ok (if runsStatement then db.deleteRuns (gcRuns db now) else db)

end DailyReport.Store
