import DailyReport.Lib.Except
import DailyReport.Lib.Json
import DailyReport.Reports.Tables

/-!
# The life of a run before its publication

A run is created, scans, freezes its input (`prepare`), calls the model (`reserveCall`) and may fail
and be resumed.  Every operation is one transaction: an error leaves the database as it was.
-/

namespace DailyReport.Reports

open Lib

variable [Chrono]

/-- `changed_one` after an update of the rows that satisfy `p`. -/
def updateOne (db : Db) (p : RunRecord → Bool) (f : RunRecord → RunRecord) (code : String) :
    Except ReportError Db := do
  ensure (db.runs.countP p = 1) (reportError code "运行状态不允许此操作")
  .ok { db with runs := updateWhere p f db.runs }

/-! ### Creating -/

/-- The run kinds, and those of personal runs. -/
def runKinds : List Text :=
  [lit "report", lit "preview", lit "model_check", lit "weekly", lit "monthly"]

def personalKinds : List Text := [lit "report", lit "preview", lit "model_check"]

def personalWork : Text := lit "personal_work"

def reportTimezone : Text := lit "Asia/Shanghai"

def contextInvalid : ReportError :=
  reportError "RUN_CONTEXT_INVALID" "运行身份、业务范围或日期窗口不一致"

def RunContext.validate (context : RunContext) : Except ReportError Unit := do
  ensure (context.runId.length = 32 ∧ context.runId.all isLowerHex = true ∧
    context.scopeId = personalWork ∧ context.timezone = reportTimezone) contextInvalid
  let window ← Chrono.utcWindow context.targetDate
  ensure ((context.windowStartUtc, context.windowEndUtc) = window) contextInvalid

/-- The row of a run that is created. -/
def RunRecord.new (context : RunContext) (kind generationId : Text) (reason : Option Text) (now : ℤ) :
    RunRecord where
  runId := context.runId
  scopeId := context.scopeId
  targetDate := context.targetDate
  timezone := context.timezone
  runKind := kind
  context := context
  configFingerprint := context.configFingerprint
  inputFingerprint := none
  publicationFingerprint := none
  generationId := generationId
  regenerationReason := reason
  phase := .created
  status := .running
  quality := none
  snapshotPath := none
  snapshotSha256 := none
  reportJson := none
  markdown := none
  outputPath := none
  expectedSha256 := none
  previousSha256 := none
  previousRunId := none
  errorCode := none
  createdAt := Chrono.timestamp now
  updatedAt := Chrono.timestamp now
  finishedAt := none

def createRun (db : Db) (context : RunContext) (kind generationId : Text) (reason : Option Text)
    (now : ℤ) (personal : Bool) : Except ReportError Db := do
  context.validate
  ensure (kind ∈ runKinds) (reportError "RUN_KIND_INVALID" "不支持的运行类型")
  ensure (context.runId ∉ db.runs.map RunRecord.runId) databaseFailed
  ensure (personal = true → context.runId ∉ db.personalRuns) databaseFailed
  .ok { db with
    runs := db.runs ++ [RunRecord.new context kind generationId reason now]
    personalRuns := if personal then db.personalRuns ++ [context.runId] else db.personalRuns }

def create (db : Db) (context : RunContext) (kind generationId : Text) (reason : Option Text)
    (now : ℤ) : Except ReportError Db :=
  createRun db context kind generationId reason now false

def createPersonal (db : Db) (context : RunContext) (kind generationId : Text) (reason : Option Text)
    (now : ℤ) : Except ReportError Db := do
  ensure (kind ∈ personalKinds) (reportError "RUN_KIND_INVALID" "个人运行类型无效")
  createRun db context kind generationId reason now true

def registerPersonalRun (db : Db) (id : Text) : Except ReportError Db := do
  let _ ← readRun db id
  .ok { db with personalRuns := if id ∈ db.personalRuns then db.personalRuns else db.personalRuns ++ [id] }

/-! ### Scanning and preparing -/

def setScanning (db : Db) (id : Text) (now : ℤ) : Except ReportError Db :=
  updateOne db
    (fun run => ofRun id run && decide (run.phase = .created) && decide (run.status = .running))
    (fun run => { run with phase := .scanning, updatedAt := Chrono.timestamp now })
    "RUN_PHASE_INVALID"

/-- Insert a source of a run. -/
def insertSource (id : Text) (missing : ReportError) (db : Db) (source : SourceDocument) :
    Except ReportError Db :=
  match source.sourceId with
  | none => .error missing
  | some sourceId => do
    ensure (¬ db.sources.any fun row => decide (row.runId = id ∧ row.sourceId = sourceId))
      databaseFailed
    .ok { db with sources := db.sources ++ [{ runId := id, sourceId, metadataJson := source.text }] }

def insertSources (db : Db) (id : Text) (sources : List SourceDocument) (missing : ReportError) :
    Except ReportError Db := sources.foldlM (insertSource id missing) db

def prepare (db : Db) (id : Text) (snapshot : SnapshotRef) (fingerprint : Text)
    (sources : List SourceDocument) (now : ℤ) : Except ReportError Db := do
  let db ← updateOne db
    (fun run => ofRun id run && decide (run.phase ∈ [.created, .scanning]) &&
      decide (run.status = .running))
    (fun run => { run with
      phase := .prepared, snapshotPath := some snapshot.path, snapshotSha256 := some snapshot.sha256
      inputFingerprint := some fingerprint, updatedAt := Chrono.timestamp now })
    "RUN_INPUT_ALREADY_FROZEN"
  insertSources db id sources (reportError "SOURCE_INVALID" "来源缺少身份")

def saveScanFailure (db : Db) (id : Text) (snapshot : SnapshotRef) (sources : List SourceDocument) :
    Except ReportError Db := do
  let db ← updateOne db (fun run => ofRun id run && decide (run.phase = .scanning))
    (fun run => { run with
      snapshotPath := some snapshot.path, snapshotSha256 := some snapshot.sha256
      quality := some (lit "unavailable") })
    "RUN_PHASE_INVALID"
  insertSources db id sources (reportError "SOURCE_INVALID" "缺少来源身份")

/-! ### Calling the model -/

structure CallReservation where
  runId : Text
  fingerprint : Text
  logicalStep : Text
  request : SnapshotRef
  jobId : Option Text
  audit : Text
  maxAttempts : ℕ
  now : ℤ

/-- A name that a backfill job may have. -/
def validJob (job : Text) : Bool :=
  decide (job ≠ []) && decide (byteLength job ≤ 128) &&
    job.all fun c => c.isAlphanum || c == '_' || c == '-'

def checkJob (db : Db) (job : Option Text) : Except ReportError Unit :=
  match job with
  | none => .ok ()
  | some job => do
    ensure (validJob job = true) (reportError "MODEL_JOB_INVALID" "模型调用作业身份无效")
    ensure (job ∉ db.completedJobs)
      (reportError "BACKFILL_ALREADY_COMPLETE" "已完成的补跑作业不能新增模型调用")

/-- `json!({"job_id": .., "request_audit": ..}).to_string()`. -/
def usageText (job : Option Text) (audit : Text) : Text :=
  lit "\x7b\"job_id\":" ++ (Json.ofNullable Json.str job).print ++ lit ",\"request_audit\":" ++ audit ++
    lit "\x7d"

def counterOf (run : RunRecord) (row : PersonalCalls) : Bool :=
  decide (row.scopeId = run.scopeId ∧ row.targetDate = run.targetDate)

/-- Count a call of a personal run. -/
def recordCall (db : Db) (run : RunRecord) : Db :=
  if run.runId ∉ db.personalRuns then db
  else if db.personalCalls.any (counterOf run) then
    { db with
      personalCalls := updateWhere (counterOf run)
        (fun row => { row with used := saturatingAdd row.used 1, lastRunId := run.runId })
        db.personalCalls }
  else
    { db with
      personalCalls := db.personalCalls ++
        [{ scopeId := run.scopeId, targetDate := run.targetDate, used := 1, lastRunId := run.runId }] }

/-- The run calls the model. -/
def isGenerating (run : RunRecord) : Bool :=
  decide (run.status = .running) && decide (run.phase ∈ [.prepared, .generating])

/-- How often a step of a generation was tried. -/
def attemptsOf (db : Db) (generationId logicalStep : Text) : ℕ :=
  db.calls.countP fun call =>
    decide (call.generationId = generationId ∧ call.logicalStep = logicalStep)

/-- The row of a call that is reserved. -/
def CallReservation.row (input : CallReservation) (callId : ℕ) (generationId : Text) (attempt : ℕ) :
    ModelCallRow where
  callId := callId
  runId := input.runId
  generationId := generationId
  requestFingerprint := input.fingerprint
  logicalStep := input.logicalStep
  attempt := attempt
  status := .reserved
  request := some input.request
  response := none
  usageJson := some (usageText input.jobId input.audit)
  errorCode := none
  startedAt := Chrono.timestamp input.now
  finishedAt := none

/-- The run that calls the model. -/
def generatingRun (db : Db) (id : Text) : Except ReportError RunRecord :=
  match (db.findRun id).filter isGenerating with
  | some run => .ok run
  | none => .error (reportError "RUN_NOT_GENERATING" "运行尚未准备好模型输入")

/-- Reserve the next attempt of a step.  The ids of calls are never used again, up to the largest. -/
def reserveCall (db : Db) (input : CallReservation) : Except ReportError Db := do
  let run ← generatingRun db input.runId
  checkJob db input.jobId
  let attempt := attemptsOf db run.generationId input.logicalStep
  ensure (1 ≤ input.maxAttempts ∧ input.maxAttempts ≤ 3 ∧ attempt < input.maxAttempts)
    (reportError "MODEL_STEP_ATTEMPTS_EXHAUSTED" "当前步骤已达到总尝试上限")
  ensure (db.nextCall ≤ maxRowId) databaseFailed
  let counted := recordCall db run
  .ok { counted with
    runs := updateWhere (ofRun input.runId)
      (fun run => { run with phase := .generating, updatedAt := Chrono.timestamp input.now })
      counted.runs
    calls := counted.calls ++ [input.row db.nextCall run.generationId (attempt + 1)]
    nextCall := db.nextCall + 1 }

/-! ### Failing and resuming -/

/-- The result of a call that was on its way is unknown. -/
def ModelCallRow.lose (now : ℤ) (call : ModelCallRow) : ModelCallRow :=
  { call with
    status := .unknown, errorCode := some (lit "CALL_RESULT_UNKNOWN")
    finishedAt := some (Chrono.timestamp now) }

def unfinishedPhases : List RunPhase := [.prepared, .generating, .dbCommitted]

def outputConflictCaptured : Text := lit "OUTPUT_CONFLICT_CAPTURED"

def runSuperseded : Text := lit "RUN_SUPERSEDED"

def recoverable (run : RunRecord) : Bool :=
  decide (run.phase ∈ unfinishedPhases) && decide (run.status ≠ .succeeded) &&
    decide (run.errorCode ≠ some runSuperseded)

def resume (db : Db) (id : Text) (now : ℤ) : Except ReportError Db := do
  let db ← updateOne db (fun run => ofRun id run && recoverable run)
    (fun run => { run with
      status := .running
      errorCode := run.errorCode.filter fun code => decide (code = outputConflictCaptured)
      finishedAt := none, updatedAt := Chrono.timestamp now })
    "RUN_NOT_RECOVERABLE"
  .ok { db with
    calls := updateWhere (fun call => decide (call.runId = id ∧ call.status = .reserved))
      (ModelCallRow.lose now) db.calls }

/-- Mark a run that has not succeeded. -/
def fail (db : Db) (id code : Text) (cancelled : Bool) (now : ℤ) : Db :=
  { db with
    runs := updateWhere (fun run => ofRun id run && decide (run.status ≠ .succeeded))
      (fun run => { run with
        status := if cancelled then .cancelled else .failed
        errorCode := some code, updatedAt := Chrono.timestamp now
        finishedAt := some (Chrono.timestamp now) })
      db.runs }

/-- A personal run that a process left behind. -/
def interrupted (db : Db) (run : RunRecord) : Bool :=
  decide (run.status = .running) && decide (run.runId ∈ db.personalRuns) &&
    (decide (run.phase ∈ [.created, .scanning]) || decide (run.runKind ≠ lit "report"))

def recoverInterrupted (db : Db) (now : ℤ) : Db :=
  { db with
    calls := updateWhere
      (fun call => decide (call.status = .reserved ∧ call.runId ∈ db.personalRuns))
      (ModelCallRow.lose now) db.calls
    runs := updateWhere (interrupted db)
      (fun run => { run with
        status := .failed, errorCode := some (lit "RUN_INTERRUPTED")
        updatedAt := Chrono.timestamp now, finishedAt := some (Chrono.timestamp now) })
      db.runs }

end DailyReport.Reports
