import DailyReport.Lib.Transitions
import DailyReport.Store.Finalize

/-!
# Processes over one database

Any number of processes work on one database.  A process holds the runs it began and the
finalizations it prepared; an `Event` is one operation of one process, at a time that its own clock
says.  `step` takes an event or refuses it, and `runEvents` is a whole run.

A crash is an event that does not happen: every operation is one transaction.
-/

namespace DailyReport.Store

open Lib

variable [Sha256]

/-- The database, and what the processes hold. -/
structure System where
  db : Db
  actives : List ActiveRun
  prepared : List PreparedFinalization

def System.init : System where
  db := .empty
  actives := []
  prepared := []

/-- An operation of a process.  `handle` is the position of the run, or of the prepared
finalization, among those that were begun or prepared so far. -/
inductive Event
  | beginRun (requestId : Text) (canonical : CanonicalRequest) (runtime : AttemptRuntime)
      (storePath ownerId : Text) (nowMs : ℕ)
  | heartbeat (handle : ℕ) (nowMs : ℕ)
  | recordWorkerFingerprints (handle : ℕ) (office pdf : Option WorkerFingerprint) (nowMs : ℕ)
  | abandon (handle : ℕ) (nowMs : ℕ)
  | prepare (handle : ℕ) (batch : FinalizationBatch) (nowMs : ℕ)
  | commit (handle : ℕ)
  | gc (nowMs : ℕ) (artifactsStatement runsStatement : Bool)

/-- The owner that a process draws when it begins a run. -/
def Event.owner? : Event → Option Text
  | .beginRun _ _ _ _ ownerId _ => some ownerId
  | _ => none

/-- The handle that a begun run gives. -/
def BeginRunOutcome.active : BeginRunOutcome → List ActiveRun
  | .started active => [active]
  | .stored _ => []

/-- What is held at a position. -/
def held {α : Type} (items : List α) (handle : ℕ) : Except StoreError α :=
  match items[handle]? with
  | some item => .ok item
  | none => .error .runNotFound

def step (s : System) : Event → Except StoreError System
  | .beginRun requestId canonical runtime storePath ownerId nowMs => do
    let (db, outcome) ← beginRun s.db requestId canonical runtime storePath ownerId nowMs
    .ok { s with db, actives := s.actives ++ outcome.active }
  | .heartbeat handle nowMs => do
    let active ← held s.actives handle
    let db ← heartbeat s.db active nowMs
    .ok { s with db }
  | .recordWorkerFingerprints handle office pdf nowMs => do
    let active ← held s.actives handle
    let db ← recordWorkerFingerprints s.db active office pdf nowMs
    .ok { s with db }
  | .abandon handle nowMs => do
    let active ← held s.actives handle
    let db ← abandonActiveRun s.db active nowMs
    .ok { s with db }
  | .prepare handle batch nowMs => do
    let active ← held s.actives handle
    let prepared ← prepareFinalization s.db active batch nowMs
    .ok { s with prepared := s.prepared ++ [prepared] }
  | .commit handle => do
    let prepared ← held s.prepared handle
    let db ← commitFinalization s.db prepared
    .ok { s with db }
  | .gc nowMs artifactsStatement runsStatement => do
    let db ← runOpportunisticGc s.db nowMs artifactsStatement runsStatement
    .ok { s with db }

omit [Sha256] in
theorem held_eq_ok {α : Type} {items : List α} {handle : ℕ} {item : α} :
    held items handle = .ok item ↔ items[handle]? = some item := by
  unfold held
  cases items[handle]? <;> simp

/-- The state after a run. -/
def runEvents (events : List Event) : System := applyAll step System.init events

end DailyReport.Store
