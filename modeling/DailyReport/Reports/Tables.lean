import DailyReport.Contract.Artifact
import DailyReport.Lib.Rows

/-!
# The tables of the report store

The report application keeps its runs, the published report of each date, the model calls and the
sources of a run, and a few counters and marks in one database.  A row has the columns that the
operations read or write; a column that holds a JSON document holds what the store reads of it.
-/

namespace DailyReport.Reports

open Lib

structure ReportError where
  code : Text
  message : Text
  deriving DecidableEq

/-- `ReportError::new`. -/
def reportError (code message : String) : ReportError := ⟨lit code, lit message⟩

/-- Any error of the database. -/
def databaseFailed : ReportError := reportError "REPORT_DATABASE_FAILED" "报告数据库操作失败"

/-- Go on if the condition holds. -/
def ensure (p : Prop) [Decidable p] (error : ReportError) : Except ReportError Unit :=
  if p then .ok () else .error error

@[simp] theorem ensure_eq_ok {p : Prop} [Decidable p] {error : ReportError} {u : Unit} :
    ensure p error = .ok u ↔ p := by
  unfold ensure
  split_ifs with h <;> simp [h]

/-! ### Time -/

/-- The formats of the date library; an instant is its number of microseconds. -/
class Chrono where
  /-- The timestamp that the store writes. -/
  timestamp : ℤ → Text
  /-- The text that a cutoff is compared as. -/
  rfc3339 : ℤ → Text
  /-- `DateTime::parse_from_rfc3339`. -/
  parse : Text → Option ℤ
  /-- The UTC window of a date of Shanghai. -/
  utcWindow : Text → Except ReportError (ℤ × ℤ)

/-! ### Runs -/

inductive RunPhase
  | created
  | scanning
  | prepared
  | generating
  | dbCommitted
  | published
  | preview
  | observed
  deriving DecidableEq, Repr

inductive RunStatus
  | running
  | succeeded
  | failed
  | cancelled
  deriving DecidableEq, Repr

/-- The frozen context of a run. -/
structure RunContext where
  runId : Text
  scopeId : Text
  targetDate : Text
  timezone : Text
  windowStartUtc : ℤ
  windowEndUtc : ℤ
  startedAt : ℤ
  configFingerprint : Text
  deriving DecidableEq

structure SnapshotRef where
  path : Text
  sha256 : Text
  deriving DecidableEq

/-- A source of a report: its identity, if it has one, and its JSON text. -/
structure SourceDocument where
  sourceId : Option Text
  text : Text
  deriving DecidableEq

/-- A report: its JSON text, and what the store reads in it. -/
structure ReportDocument where
  text : Text
  date : Option Text
  windowStartUtc : Option Text
  schemaVersion : Option ℤ
  quality : Option Text
  sources : Option (List SourceDocument)
  reportKind : Option Text
  /-- The codes of the gaps. -/
  gapCodes : List Text := []
  /-- `selection.omissions.read_failed`. -/
  readFailed : ℕ := 0
  /-- The list of items is there and empty. -/
  noItems : Bool := false
  observedFiles : ℕ := 0
  userNotes : Text := []
  deriving DecidableEq

structure RunRecord where
  runId : Text
  scopeId : Text
  targetDate : Text
  timezone : Text
  runKind : Text
  context : RunContext
  configFingerprint : Text
  inputFingerprint : Option Text
  publicationFingerprint : Option Text
  generationId : Text
  regenerationReason : Option Text
  phase : RunPhase
  status : RunStatus
  quality : Option Text
  snapshotPath : Option Text
  snapshotSha256 : Option Text
  reportJson : Option ReportDocument
  markdown : Option Text
  outputPath : Option Text
  expectedSha256 : Option Text
  previousSha256 : Option Text
  previousRunId : Option Text
  errorCode : Option Text
  createdAt : Text
  updatedAt : Text
  finishedAt : Option Text
  deriving DecidableEq

/-! ### The other tables -/

structure DailyReportRow where
  date : Text
  rawJson : ReportDocument
  schemaVersion : ℤ
  reportKind : Text
  currentRunId : Option Text
  updatedAt : Text
  deriving DecidableEq

/-- A weekly or monthly report. -/
structure PeriodReportRow where
  kind : Text
  label : Text
  rawJson : ReportDocument
  updatedAt : Text
  deriving DecidableEq

inductive CallStatus
  | reserved
  | succeeded
  | failed
  | unknown
  deriving DecidableEq, Repr

/-- The largest id of a row. -/
def maxRowId : ℕ := 9223372036854775807

structure ModelCallRow where
  callId : ℕ
  runId : Text
  generationId : Text
  requestFingerprint : Text
  logicalStep : Text
  attempt : ℕ
  status : CallStatus
  request : Option SnapshotRef
  response : Option SnapshotRef
  usageJson : Option Text
  errorCode : Option Text
  startedAt : Text
  finishedAt : Option Text
  deriving DecidableEq

structure RunSourceRow where
  runId : Text
  sourceId : Text
  metadataJson : Text
  deriving DecidableEq

/-- The last run of a scope and date that compaction saw. -/
structure LastRun where
  runId : Text
  status : RunStatus
  quality : Option Text
  finishedAt : Option Text
  elapsedMs : Option ℕ
  deriving DecidableEq

/-- What compaction keeps of the runs of a scope and date. -/
structure PersonalSummary where
  scopeId : Text
  targetDate : Text
  calls : ℕ
  runs : ℕ
  elapsedMsTotal : ℕ
  failures : ℕ
  lastFailureAt : Option Text
  /-- The run that failed last, and its error. -/
  lastFailure : Option (Text × Text)
  lastCreatedAt : Option Text
  lastRun : Option LastRun
  published : Option LastRun
  deriving DecidableEq

/-- How many calls were reserved for a scope and date, and by which run last. -/
structure PersonalCalls where
  scopeId : Text
  targetDate : Text
  used : ℕ
  lastRunId : Text
  deriving DecidableEq

/-- The database.  The rows of `report_metadata` are kept by the kind of their key: the current run
of a period, the personal runs, the compacted runs, the call counters, the summaries and the
completed backfill jobs. -/
structure Db where
  runs : List RunRecord
  dailyReports : List DailyReportRow
  periodReports : List PeriodReportRow
  currentPeriods : List ((Text × Text) × Text)
  calls : List ModelCallRow
  nextCall : ℕ
  sources : List RunSourceRow
  personalRuns : List Text
  compacted : List Text
  personalCalls : List PersonalCalls
  summaries : List PersonalSummary
  completedJobs : List Text

def Db.empty : Db where
  runs := []
  dailyReports := []
  periodReports := []
  currentPeriods := []
  calls := []
  nextCall := 1
  sources := []
  personalRuns := []
  compacted := []
  personalCalls := []
  summaries := []
  completedJobs := []

/-- The row is the row of the run. -/
def ofRun (id : Text) (run : RunRecord) : Bool := decide (run.runId = id)

@[simp] theorem ofRun_eq_true {id : Text} {run : RunRecord} : ofRun id run = true ↔ run.runId = id :=
  decide_eq_true_iff

def Db.findRun (db : Db) (id : Text) : Option RunRecord := db.runs.find? (ofRun id)

/-- `read_run`. -/
def readRun (db : Db) (id : Text) : Except ReportError RunRecord :=
  match db.findRun id with
  | some run => .ok run
  | none => .error (reportError "RUN_NOT_FOUND" "运行记录不存在")

theorem readRun_eq_ok {db : Db} {id : Text} {run : RunRecord} :
    readRun db id = .ok run ↔ db.findRun id = some run := by
  unfold readRun
  cases db.findRun id <;> simp

theorem findRun_eq_some {db : Db} {id : Text} {run : RunRecord} (h : db.findRun id = some run) :
    run ∈ db.runs ∧ run.runId = id :=
  ⟨List.mem_of_find?_eq_some h, by simpa using List.find?_some h⟩

/-- The published run of a date. -/
def Db.currentRunId (db : Db) (date : Text) : Option Text :=
  (db.dailyReports.find? fun row => decide (row.date = date)).bind DailyReportRow.currentRunId

/-- A date has one row, which tells its published run. -/
theorem currentRunId_of_mem {db : Db} (hnodup : (db.dailyReports.map DailyReportRow.date).Nodup)
    {row : DailyReportRow} (hrow : row ∈ db.dailyReports) :
    db.currentRunId row.date = row.currentRunId := by
  unfold Db.currentRunId
  rw [← List.head?_filter, filter_key_eq_singleton hnodup hrow]
  rfl

theorem currentRunId_eq_some {db : Db} {date id : Text} (h : db.currentRunId date = some id) :
    ∃ row ∈ db.dailyReports, row.date = date ∧ row.currentRunId = some id := by
  obtain ⟨row, hfind, hid⟩ := Option.bind_eq_some_iff.1 h
  exact ⟨row, List.mem_of_find?_eq_some hfind, by simpa using List.find?_some hfind, hid⟩

/-- A run has one row. -/
theorem findRun_of_mem {db : Db} (hnodup : (db.runs.map RunRecord.runId).Nodup) {run : RunRecord}
    (hrun : run ∈ db.runs) : db.findRun run.runId = some run := by
  unfold Db.findRun ofRun
  rw [← List.head?_filter, filter_key_eq_singleton hnodup hrun]
  rfl

/-- Whether the run is the published run of a date. -/
def Db.isCurrent (db : Db) (id : Text) : Bool :=
  db.dailyReports.any fun row => decide (row.currentRunId = some id)

/-- An update of the rows of the run in its table. -/
def Db.updateRun (db : Db) (id : Text) (f : RunRecord → RunRecord) : Db :=
  { db with runs := updateWhere (ofRun id) f db.runs }

@[simp] theorem Db.updateRun_dailyReports (db : Db) (id : Text) (f : RunRecord → RunRecord) :
    (db.updateRun id f).dailyReports = db.dailyReports := rfl

end DailyReport.Reports
