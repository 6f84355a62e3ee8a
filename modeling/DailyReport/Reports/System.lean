import DailyReport.Lib.Transitions
import DailyReport.Reports.Compaction

/-!
# Runs of the report store

Any number of processes apply the operations of the store in any order.  An operation is a
transaction, but for the compaction, which is a loop over small transactions and runs under the lock
of the reports, so that no other operation comes between.  The system keeps a log of what was
created, staged and published.
-/

namespace DailyReport.Reports

open Lib

/-- A run of a date, made from the run that was published before. -/
structure Revision where
  runId : Text
  date : Text
  previous : Option Text
  deriving DecidableEq

/-- The run as a revision of its date. -/
def RunRecord.revision (run : RunRecord) : Revision where
  runId := run.runId
  date := run.targetDate
  previous := run.previousRunId

/-- The database, and the runs that were created, staged and published so far. -/
structure System where
  db : Db
  created : List Text
  stagings : List Revision
  publications : List Revision

def System.init : System where
  db := .empty
  created := []
  stagings := []
  publications := []

inductive Event
  | create (context : RunContext) (kind generationId : Text) (reason : Option Text) (now : ℤ)
  | createPersonal (context : RunContext) (kind generationId : Text) (reason : Option Text) (now : ℤ)
  | registerPersonalRun (id : Text)
  | setScanning (id : Text) (now : ℤ)
  | saveScanFailure (id : Text) (snapshot : SnapshotRef) (sources : List SourceDocument)
  | prepare (id : Text) (snapshot : SnapshotRef) (fingerprint : Text) (sources : List SourceDocument)
      (now : ℤ)
  | reserveCall (input : CallReservation)
  | resume (id : Text) (now : ℤ)
  | fail (id code : Text) (cancelled : Bool) (now : ℤ)
  | recoverInterrupted (now : ℤ)
  | stageReport (id : Text) (staged : StagedReport) (now : ℤ)
  | markPublished (id verified : Text) (now : ℤ) (databaseNow : Text)
  | finishPreview (id : Text) (report : ReportDocument) (markdown : Text) (now : ℤ)
  | finishObservation (id : Text) (current : RunRecord) (now : ℤ)
  | finishScanPreview (id quality : Text) (now : ℤ)
  | finishModelCheck (id : Text) (result : ReportDocument) (now : ℤ)
  | compact (now : ℤ) (present : Text → Bool) (ticks : ℕ)

/-- The run that an event creates. -/
def Event.createdRun? : Event → Option Text
  | .create context .. | .createPersonal context .. => some context.runId
  | _ => none

/-- The run that an event stages. -/
def Event.stagedRun? : Event → Option Text
  | .stageReport id .. => some id
  | _ => none

/-- The run that an event publishes. -/
def Event.publishedRun? : Event → Option Text
  | .markPublished id .. => some id
  | _ => none

/-- The revision of a run that an event is about. -/
def Db.revision (db : Db) (id : Option Text) : List Revision :=
  ((id.bind db.findRun).map RunRecord.revision).toList

variable [Chrono] [ReportRules] [Sha256]

/-- What an event makes of the database. -/
def operate (db : Db) : Event → Except ReportError Db
  | .create context kind generationId reason now => create db context kind generationId reason now
  | .createPersonal context kind generationId reason now =>
    createPersonal db context kind generationId reason now
  | .registerPersonalRun id => registerPersonalRun db id
  | .setScanning id now => setScanning db id now
  | .saveScanFailure id snapshot sources => saveScanFailure db id snapshot sources
  | .prepare id snapshot fingerprint sources now => prepare db id snapshot fingerprint sources now
  | .reserveCall input => reserveCall db input
  | .resume id now => resume db id now
  | .fail id code cancelled now => .ok (fail db id code cancelled now)
  | .recoverInterrupted now => .ok (recoverInterrupted db now)
  | .stageReport id staged now => stageReport db id staged now
  | .markPublished id verified now databaseNow => markPublished db id verified now databaseNow
  | .finishPreview id report markdown now => finishPreview db id report markdown now
  | .finishObservation id current now => finishObservation db id current now
  | .finishScanPreview id quality now => finishScanPreview db id quality now
  | .finishModelCheck id result now => finishModelCheck db id result now
  | .compact now present ticks => .ok (compactPersonal db now present ticks)

def step (s : System) (e : Event) : Except ReportError System := do
  let db ← operate s.db e
  .ok
    { db
      created := s.created ++ e.createdRun?.toList
      stagings := s.stagings ++ db.revision e.stagedRun?
      publications := s.publications ++ db.revision e.publishedRun? }

/-- The state after a run. -/
def runEvents (events : List Event) : System := applyAll step System.init events

/-- What was published for a date, with what each publication replaced. -/
def System.publishedFor (s : System) (date : Text) : List (Option Text × Text) :=
  (s.publications.filter fun p => decide (p.date = date)).map fun p => (p.previous, p.runId)

end DailyReport.Reports
