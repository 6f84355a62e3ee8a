import DailyReport.Reports.Lifecycle

/-!
# Staging and publishing

A run that has its report is staged on the published run of its date (`stageReport`), its file is
written, and it becomes the published run itself, provided that the date still has the run it was
staged on (`markPublished`).  A preview, a check and an observation end without a publication.
-/

namespace DailyReport.Reports

open Lib

/-- The validators of report documents. -/
class ReportRules where
  /-- A document of version 5 is a valid personal report, which with its text is not too large and
  links its attachment. -/
  personal : ReportDocument → Text → Except ReportError Unit
  /-- The label of the period that a weekly or monthly report is about. -/
  periodLabel : Text → ReportDocument → Except ReportError Text

variable [Chrono] [ReportRules]

/-! ### Staging -/

structure StagedReport where
  report : ReportDocument
  markdown : Text
  outputPath : Text
  publicationFingerprint : Text

def validMarkdown (markdown : Text) : Bool :=
  decide (markdown ≠ []) && !markdown.contains (Char.ofNat 13) &&
    decide (markdown.head? ≠ some (Char.ofNat 0xFEFF))

def reportQualities : List Text := [lit "complete", lit "partial", lit "no_changes"]

/-- The report is about the frozen date, in a format of now. -/
def matchesContext (context : RunContext) (report : ReportDocument) : Bool :=
  decide (report.date = some context.targetDate) &&
    decide (report.windowStartUtc.bind Chrono.parse = some context.windowStartUtc) &&
    report.schemaVersion.any (fun version => decide (2 ≤ version ∧ version ≤ 5)) &&
    report.quality.any (fun quality => decide (quality ∈ reportQualities)) &&
    report.sources.isSome

def validateReport (context : RunContext) (report : ReportDocument) (markdown : Text) :
    Except ReportError Unit := do
  ensure (validMarkdown markdown = true)
    (reportError "REPORT_MARKDOWN_INVALID" "正文须为非空 UTF-8 文本、LF 换行且无 BOM")
  context.validate
  ensure (matchesContext context report = true)
    (reportError "REPORT_CONTEXT_MISMATCH" "报告与冻结日期或格式不一致")
  if report.schemaVersion = some 5 then ReportRules.personal report markdown

/-- The published run of a date and its digest. -/
def previousRevision (db : Db) (date : Text) : Except ReportError (Option (Text × Text)) :=
  match (db.currentRunId date).bind db.findRun with
  | none => .ok none
  | some run =>
    match run.expectedSha256 with
    | some sha256 => .ok (some (run.runId, sha256))
    | none => .error databaseFailed

variable [Sha256]

def RunRecord.stage (staged : StagedReport) (previous : Option (Text × Text)) (now : ℤ)
    (run : RunRecord) : RunRecord :=
  { run with
    phase := .dbCommitted
    quality := staged.report.quality
    reportJson := some staged.report
    markdown := some staged.markdown
    expectedSha256 := some (Sha256.hex staged.markdown)
    previousSha256 := previous.map Prod.snd
    previousRunId := previous.map Prod.fst
    outputPath := some staged.outputPath
    publicationFingerprint := some staged.publicationFingerprint
    updatedAt := Chrono.timestamp now }

def stageReport (db : Db) (id : Text) (staged : StagedReport) (now : ℤ) : Except ReportError Db := do
  let run ← readRun db id
  ensure (run.runKind = lit "report" ∧ run.phase ∈ [.prepared, .generating] ∧ run.status = .running)
    (reportError "RUN_PHASE_INVALID" "报告尚未准备好提交")
  validateReport run.context staged.report staged.markdown
  let previous ← previousRevision db run.targetDate
  let committed := db.updateRun id (RunRecord.stage staged previous now)
  insertSources
    { committed with sources := deleteWhere (fun row => decide (row.runId = id)) committed.sources }
    id (staged.report.sources.getD []) (reportError "SOURCE_INVALID" "报告来源缺少身份")

/-! ### Publishing -/

def RunRecord.publish (now : ℤ) (run : RunRecord) : RunRecord :=
  { run with
    phase := .published, status := .succeeded, errorCode := none
    updatedAt := Chrono.timestamp now, finishedAt := some (Chrono.timestamp now) }

/-- The staged text of the run, verified on the disk. -/
def ensureVerified (run : RunRecord) (verified : Text) (message : String) : Except ReportError Unit :=
  ensure (run.phase = .dbCommitted ∧ run.expectedSha256 = some verified)
    (reportError "PUBLICATION_NOT_VERIFIED" message)

def stagedReport (run : RunRecord) (message : String) : Except ReportError ReportDocument :=
  match run.reportJson with
  | some report => .ok report
  | none => .error (reportError "REPORT_NOT_STAGED" message)

/-- Insert the row of a date, or replace it.  A row that is inserted has the time of the database. -/
def upsertDaily (row : DailyReportRow) (databaseNow updatedAt : Text) (rows : List DailyReportRow) :
    List DailyReportRow :=
  if rows.any fun other => decide (other.date = row.date) then
    updateWhere (fun other => decide (other.date = row.date)) (fun _ => { row with updatedAt }) rows
  else rows ++ [{ row with updatedAt := databaseNow }]

/-- An unfinished run that a regeneration replaces. -/
def supersededBy (run other : RunRecord) : Bool :=
  decide (other.runKind = lit "report") && decide (other.scopeId = run.scopeId) &&
    decide (other.targetDate = run.targetDate) && decide (other.phase ∈ unfinishedPhases) &&
    decide (other.status ≠ .succeeded) && decide (other.runId ≠ run.runId) &&
    decide (other.createdAt ≤ run.createdAt)

def RunRecord.supersede (now : ℤ) (run : RunRecord) : RunRecord :=
  { run with
    status := .cancelled, errorCode := some runSuperseded
    updatedAt := Chrono.timestamp now, finishedAt := some (Chrono.timestamp now) }

/-- The row that a run is published with. -/
def RunRecord.dailyRow (run : RunRecord) (report : ReportDocument) (version : ℤ) : DailyReportRow where
  date := run.targetDate
  rawJson := report
  schemaVersion := version
  reportKind := report.reportKind.getD (lit "file_evidence")
  currentRunId := some run.runId
  updatedAt := []

/-- The published run of a period, whose report is the one of the period. -/
def currentPeriod (db : Db) (kind label : Text) : Except ReportError (Option RunRecord) :=
  match db.currentPeriods.find? fun entry => decide (entry.1 = (kind, label)) with
  | none => .ok none
  | some entry => do
    let run ← readRun db entry.2
    let raw := (db.periodReports.find? fun row => decide (row.kind = kind ∧ row.label = label)).map
      PeriodReportRow.rawJson
    ensure (run.runKind = kind ∧ run.phase = .published ∧ run.reportJson = raw)
      (reportError "PUBLICATION_VERSION_CHANGED" "周月报数据库正文与正式版本不一致")
    .ok (some run)

def markPeriodPublished (db : Db) (id verified : Text) (now : ℤ) : Except ReportError Db := do
  let run ← readRun db id
  ensureVerified run verified "周月报正文未通过发布校验"
  let report ← stagedReport run "周月报正文缺失"
  let label ← ReportRules.periodLabel run.runKind report
  let current ← currentPeriod db run.runKind label
  ensure (current.map RunRecord.runId = run.previousRunId)
    (reportError "PUBLICATION_VERSION_CHANGED" "正式周月报版本已经改变")
  .ok { db with
    periodReports :=
      deleteWhere (fun row => decide (row.kind = run.runKind ∧ row.label = label)) db.periodReports ++
        [{ kind := run.runKind, label, rawJson := report, updatedAt := Chrono.timestamp now }]
    currentPeriods :=
      deleteWhere (fun entry => decide (entry.1 = (run.runKind, label))) db.currentPeriods ++
        [((run.runKind, label), id)]
    runs := updateWhere (ofRun id) (RunRecord.publish now) db.runs }

/-- Publish a run in place of the run that it was staged on. -/
def markDailyPublished (db : Db) (id verified : Text) (now : ℤ) (databaseNow : Text) :
    Except ReportError Db := do
  let run ← readRun db id
  ensureVerified run verified "正文发布校验未通过"
  ensure (db.currentRunId run.targetDate = run.previousRunId)
    (reportError "PUBLICATION_VERSION_CHANGED" "正式版本在发布期间改变")
  let report ← stagedReport run "缺少已提交正文"
  let version ← match report.schemaVersion with
    | some version => .ok version
    | none => .error (reportError "REPORT_SCHEMA_UNSUPPORTED" "报告格式无效")
  let published := updateWhere (ofRun id) (RunRecord.publish now) db.runs
  .ok { db with
    dailyReports :=
      upsertDaily (run.dailyRow report version) databaseNow (Chrono.timestamp now) db.dailyReports
    runs :=
      if run.regenerationReason.isSome then
        updateWhere (supersededBy run) (RunRecord.supersede now) published
      else published }

def markPublished (db : Db) (id verified : Text) (now : ℤ) (databaseNow : Text) :
    Except ReportError Db := do
  let run ← readRun db id
  if run.runKind ∈ [lit "weekly", lit "monthly"] then markPeriodPublished db id verified now
  else markDailyPublished db id verified now databaseNow

/-! ### Ending without a publication -/

def finishPreview (db : Db) (id : Text) (report : ReportDocument) (markdown : Text) (now : ℤ) :
    Except ReportError Db := do
  let run ← readRun db id
  ensure (run.runKind = lit "preview") (reportError "RUN_PHASE_INVALID" "当前运行不是报告预览")
  validateReport run.context report markdown
  updateOne db (fun run => ofRun id run && decide (run.status = .running))
    (fun run => { run with
      phase := .preview, status := .succeeded, quality := report.quality, reportJson := some report
      markdown := some markdown, expectedSha256 := some (Sha256.hex markdown)
      updatedAt := Chrono.timestamp now, finishedAt := some (Chrono.timestamp now) })
    "RUN_PHASE_INVALID"

def finishObservation (db : Db) (id : Text) (current : RunRecord) (now : ℤ) : Except ReportError Db :=
  updateOne db
    (fun run => ofRun id run && decide (run.phase = .prepared) && decide (run.status = .running))
    (fun run => { run with
      status := .succeeded, quality := current.quality, previousRunId := some current.runId
      updatedAt := Chrono.timestamp now, finishedAt := some (Chrono.timestamp now) })
    "RUN_PHASE_INVALID"

def finishScanPreview (db : Db) (id quality : Text) (now : ℤ) : Except ReportError Db :=
  updateOne db
    (fun run => ofRun id run && decide (run.runKind = lit "preview") && decide (run.phase = .prepared) &&
      decide (run.status = .running))
    (fun run => { run with
      status := .succeeded, quality := some quality
      updatedAt := Chrono.timestamp now, finishedAt := some (Chrono.timestamp now) })
    "RUN_PHASE_INVALID"

def finishModelCheck (db : Db) (id : Text) (result : ReportDocument) (now : ℤ) :
    Except ReportError Db :=
  updateOne db
    (fun run => ofRun id run && decide (run.runKind = lit "model_check") &&
      decide (run.phase ∈ [.prepared, .generating]) && decide (run.status = .running))
    (fun run => { run with
      phase := .preview, status := .succeeded, quality := some (lit "complete")
      reportJson := some result
      updatedAt := Chrono.timestamp now, finishedAt := some (Chrono.timestamp now) })
    "RUN_PHASE_INVALID"

end DailyReport.Reports
