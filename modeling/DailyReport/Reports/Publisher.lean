import DailyReport.Lib.Calendar
import DailyReport.Lib.Interleaved
import DailyReport.Reports.Publication

/-!
# Publishing a file

A staged run is published by writing its text to the file of its date or period.  Another program
may write that file at any time, so the file is looked at before it is replaced, and what is replaced
is moved to the directory of conflicts and looked at again there; a text that nobody has recorded is
a conflict.  The process may be stopped between any two operations.

The files are a map from paths to texts.  A file that is written completely under a temporary name
and then linked or moved appears at once, and so does the copy of a conflict.  Paths are those of
Windows, where replacing a file with a backup is one operation.
-/

namespace DailyReport.Reports

open Lib

/-! ### Files -/

/-- The database and the files. -/
structure World where
  db : Db
  files : Text → Option Text

abbrev Publishing := Fallible World ReportError

/-- `dir\name`. -/
def joinPath (dir name : Text) : Text := dir ++ '\\' :: name

/-- The number that some digits write. -/
def digitsValue (t : Text) : ℕ := t.foldl (fun n c => n * 10 + (c.toNat - '0'.toNat)) 0

/-- The date is written as `YYYY-MM-DD`, and the next day has a date. -/
def isDate (value : Text) : Bool :=
  let year := value.take 4
  let month := (value.drop 5).take 2
  let day := value.drop 8
  decide (value.length = 10) && (year ++ month ++ day).all Char.isDigit &&
    decide (dateText (civilDays (digitsValue year) (digitsValue month) (digitsValue day)) = value) &&
    decide (1 ≤ digitsValue year) && decide (value ≠ lit "9999-12-31")

/-- A file that a report is published in. -/
structure ReportFile where
  dir : Text
  name : Text
  deriving DecidableEq

def ReportFile.path (output : ReportFile) : Text := joinPath output.dir output.name

variable [Sha256]

/-- What the evidence of a report is written to, which has passed its validation. -/
structure EvidenceAttachment where
  markdown : Text
  sha256 : Text
  digest : Sha256.hex markdown = sha256

/-- What a report document says about its evidence. -/
class AttachmentRules where
  /-- The date of the report and its attachment, if it has one. -/
  attachment : ReportDocument → Except ReportError (Option (Text × EvidenceAttachment))

/-- The names of temporary files. -/
class FreshNames where
  /-- The random part of a name for which there is no file yet, if one is found. -/
  fresh : (Text → Option Text) → (Text → Text) → Option Text
  unused : ∀ {files : Text → Option Text} {path : Text → Text} {name : Text},
    fresh files path = some name → files (path name) = none

/-! ### Operations -/

section

variable (path : Text)

def outputHash : Publishing (Option Text) := Fallible.atomic fun w => ((w.files path).map Sha256.hex, w)

/-- Write a new file, if there is none; the flag says whether there was none. -/
def createNew (content : Text) : Publishing Bool :=
  Fallible.atomic fun w =>
    if (w.files path).isNone then
      (true, { w with files := Function.update w.files path (some content) })
    else (false, w)

end

def readStore {α : Type} (f : Db → Except ReportError α) : Publishing α :=
  Fallible.atomicExcept fun w => (f w.db, w)

def writeStore (f : Db → Except ReportError Db) : Publishing Unit :=
  Fallible.atomicExcept fun w =>
    match f w.db with
    | .ok db => (.ok (), { w with db })
    | .error error => (.error error, w)

def refuse {α : Type} (code message : String) : Publishing α := throw (reportError code message)

def demand (p : Prop) [Decidable p] (code message : String) : Publishing Unit :=
  Fallible.ofExcept (ensure p (reportError code message))

/-- The file is moved to the backup, and the new text takes its place. -/
def replaceWithBackup (target content backup : Text) : Publishing Unit :=
  Fallible.atomicExcept fun w =>
    match w.files target with
    | none => (.error (reportError "OUTPUT_REPLACE_FAILED" "报告替换失败，数据库正文仍可恢复"), w)
    | some old =>
      (.ok (), { w with
        files := Function.update (Function.update w.files backup (some old)) target (some content) })

/-! ### Paths -/

section

variable (root : Text)

def outputPath (date : Text) : Except ReportError ReportFile := do
  ensure (isDate date = true) (reportError "DATE_INVALID" "日期须为 YYYY-MM-DD")
  .ok ⟨joinPath root (date.take 7), date ++ lit ".md"⟩

def periodPath [ReportRules] (kind : Text) (report : ReportDocument) : Except ReportError ReportFile := do
  let label ← ReportRules.periodLabel kind report
  .ok ⟨joinPath root kind, label ++ lit ".md"⟩

/-- The file of the run. -/
def targetOf [ReportRules] (run : RunRecord) : Except ReportError ReportFile :=
  if run.runKind ∈ [lit "weekly", lit "monthly"] then
    match run.reportJson with
    | some report => periodPath root run.runKind report
    | none => .error (reportError "REPORT_NOT_STAGED" "周月报正文缺失")
  else outputPath root run.targetDate

def conflictsDir : Text := joinPath root (lit "conflicts")

def conflictPath (run : RunRecord) : Text :=
  joinPath (conflictsDir root) (run.targetDate ++ '.' :: run.runId ++ lit ".md")

def backupPath (run : RunRecord) (random : Text) : Text :=
  joinPath (conflictsDir root) (run.targetDate ++ '.' :: run.runId ++ '.' :: random ++ lit ".replaced.md")

end

/-! ### Publishing -/

variable [Chrono] [ReportRules] [AttachmentRules] [FreshNames]

/-- The published run of the date or of the period. -/
def publicationCurrent (db : Db) (run : RunRecord) : Except ReportError (Option RunRecord) :=
  if run.runKind ∈ [lit "weekly", lit "monthly"] then
    match run.reportJson with
    | some report => do currentPeriod db run.runKind (← ReportRules.periodLabel run.runKind report)
    | none => .error (reportError "REPORT_NOT_STAGED" "周月报正文缺失")
  else .ok ((db.currentRunId run.targetDate).bind db.findRun)

/-- Keep the text of the run beside the file that is in its way. -/
def conflict (root : Text) (run : RunRecord) (body : Text) : Publishing Unit := do
  if ← createNew (conflictPath root run) body then pure ()
  else
    let saved ← outputHash (conflictPath root run)
    demand (saved = run.expectedSha256) "OUTPUT_CONFLICT_COPY_MODIFIED" "已保存的冲突副本发生修改"

def attachmentLink (date sha256 : Text) : Text := lit "attachments/" ++ date ++ '.' :: sha256 ++ lit ".md"

def attachmentOf (run : RunRecord) :
    Except ReportError (Option (Text × EvidenceAttachment)) :=
  match run.reportJson with
  | some report => AttachmentRules.attachment report
  | none => .ok none

/-- The evidence is linked under its digest, unless it is there. -/
def publishAttachment (run : RunRecord) (output : ReportFile) : Publishing Unit := do
  match ← Fallible.ofExcept (attachmentOf run) with
  | none => pure ()
  | some (date, evidence) =>
    let path := joinPath output.dir (attachmentLink date evidence.sha256)
    match ← outputHash path with
    | some hash =>
      demand (hash = evidence.sha256) "REPORT_EVIDENCE_CONFLICT" "已有依据附件被修改，保留原文件"
    | none =>
      let _ ← createNew path evidence.markdown
      let linked ← outputHash path
      demand (linked = some evidence.sha256) "REPORT_EVIDENCE_MISMATCH" "依据附件缺失或内容已改变"

/-- A run that is not yet published becomes the published one. -/
def finishPublication (run : RunRecord) (verified : Text) (now : ℤ) (databaseNow : Text) :
    Publishing Unit :=
  if run.phase = .dbCommitted then writeStore fun db => markPublished db run.runId verified now databaseNow
  else pure ()

/-- The first publication of a file. -/
def linkFile (root : Text) (run : RunRecord) (target body : Text) : Publishing Unit := do
  if ← createNew target body then pure ()
  else
    conflict root run body
    refuse "OUTPUT_CONFLICT" "发布期间出现新的报告文件"

/-- Find a name for the backup.  The file that holds it is gone again when the backup is made. -/
def reserveBackup (root : Text) (run : RunRecord) : Publishing Text :=
  Fallible.atomicExcept fun w =>
    match FreshNames.fresh w.files (backupPath root run) with
    | some random => (.ok (backupPath root run random), w)
    | none => (.error (reportError "OUTPUT_BACKUP_FAILED" "无法预留替换备份"), w)

/-- A later publication of a file; `existing` is the digest of the version to be replaced. -/
def replaceFile (root : Text) (run : RunRecord) (target body : Text) (existing : Option Text) (now : ℤ) :
    Publishing Unit := do
  let backup ← reserveBackup root run
  replaceWithBackup target body backup
  let moved ← outputHash backup
  if moved = existing then pure ()
  else
    conflict root run body
    writeStore fun db => .ok (fail db run.runId outputConflictCaptured false now)
    throw ⟨outputConflictCaptured, lit "替换期间的外部修改已保留到备份"⟩

def writeFile (root : Text) (run : RunRecord) (target body : Text) (existing : Option Text) (now : ℤ) :
    Publishing Unit :=
  if existing.isNone then linkFile root run target body else replaceFile root run target body existing now

/-- The version that the text of the run may replace. -/
def allowedVersion (run : RunRecord) : Option Text :=
  if run.phase = .published then run.expectedSha256 else run.previousSha256

/-- Put the text of the run in the place of the version that is there. -/
def placeFile (root : Text) (run : RunRecord) (output : ReportFile) (body : Text) (existing : Option Text)
    (now : ℤ) (databaseNow : Text) : Publishing Text := do
  if existing.isSome ∧ existing ≠ allowedVersion run then
    conflict root run body
    refuse "OUTPUT_CONFLICT" "已有报告被外部修改，候选正文已保存到冲突目录"
  else
    -- A report that can be seen has its evidence.
    publishAttachment run output
    let again ← outputHash output.path
    if again ≠ existing then
      conflict root run body
      refuse "OUTPUT_CONFLICT" "发布期间发现外部修改"
    else
      writeFile root run output.path body existing now
      let actual ← outputHash output.path
      if actual ≠ run.expectedSha256 then
        conflict root run body
        refuse "OUTPUT_CONFLICT" "发布后文件哈希不符"
      else
        finishPublication run (Sha256.hex body) now databaseNow
        pure output.path

/-- Publish a staged run, or repair the file of a published one. -/
def publish (root id : Text) (now : ℤ) (databaseNow : Text) : Publishing Text := do
  let run ← readStore fun db => readRun db id
  let body := run.markdown.getD []
  demand ((run.phase = .dbCommitted ∨ run.phase = .published) ∧ body ≠ [])
    "REPORT_NOT_STAGED" "报告正文尚未提交数据库"
  let output ← Fallible.ofExcept (targetOf root run)
  demand (run.outputPath = some output.path) "OUTPUT_LOCATION_CHANGED" "报告目录与已提交记录不一致"
  demand (some (Sha256.hex body) = run.expectedSha256)
    "STAGED_REPORT_HASH_MISMATCH" "已提交报告正文的哈希不符"
  let current ← readStore fun db => publicationCurrent db run
  demand (current.map RunRecord.runId =
      if run.phase = .published then some run.runId else run.previousRunId)
    "PUBLICATION_VERSION_CHANGED" "正式报告版本已经变化"
  let existing ← outputHash output.path
  demand (¬ (run.errorCode = some outputConflictCaptured ∧ existing = run.expectedSha256))
    "OUTPUT_CONFLICT_CAPTURED" "替换期间的外部修改已保存，需先处理冲突"
  if existing = run.expectedSha256 then
    publishAttachment run output
    finishPublication run (Sha256.hex body) now databaseNow
    pure output.path
  else placeFile root run output body existing now databaseNow

end DailyReport.Reports
