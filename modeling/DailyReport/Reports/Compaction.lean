import DailyReport.Lib.Sort
import DailyReport.Reports.Publication
import Mathlib.Data.Prod.Lex

/-!
# Compaction

`compactPersonal` bounds what personal runs leave behind: it gives up inputs that are a week old or
whose file is gone, and after a month, or when there is too much detail, it keeps a summary of a run
and deletes its calls, its sources and, unless it is the published run of its date, its row.  It goes
over the runs from old to new in batches and stops at its deadline.
-/

namespace DailyReport.Reports

open Lib

variable [Chrono]

/-! ### Sizes -/

def textSize (text : Option Text) : ℕ := (text.map byteLength).getD 0

def callSize (call : ModelCallRow) : ℕ := (call.usageJson.map fun usage => byteLength usage + 1024).getD 0

/-- The stored size of a run that is not current. -/
def runSize (run : RunRecord) : ℕ :=
  textSize (run.reportJson.map ReportDocument.text) + textSize run.markdown + 2048

/-- The size of the details of the personal runs. -/
def detailBytes (db : Db) : ℕ :=
  ((db.calls.filter fun call => decide (call.runId ∈ db.personalRuns)).map callSize).sum +
  ((db.sources.filter fun row => decide (row.runId ∈ db.personalRuns)).map fun row =>
    byteLength row.metadataJson).sum +
  ((db.runs.filter fun run => decide (run.runId ∈ db.personalRuns) && !db.isCurrent run.runId).map
    runSize).sum

/-- What deleting the details of a run frees. -/
def removedBytes (db : Db) (run : RunRecord) : ℕ :=
  ((db.calls.filter fun call => decide (call.runId = run.runId)).map callSize).sum +
  ((db.sources.filter fun row => decide (row.runId = run.runId)).map fun row =>
    byteLength row.metadataJson).sum +
  if db.isCurrent run.runId then 0 else runSize run

def maxDetailBytes : ℕ := 8 * 1024 * 1024

def dayMicros : ℤ := 86400 * 1000000

/-! ### Giving up an input -/

/-- Whether the input of the run is old or its file is gone. -/
def inputExpired (now : ℤ) (present : Text → Bool) (run : RunRecord) : Bool :=
  decide (run.createdAt < Chrono.rfc3339 (now - 7 * dayMicros)) ||
    run.snapshotPath.any fun path => !present path

/-- Running, but with nothing that can be published. -/
def stillRunning (run : RunRecord) : Bool :=
  decide (run.status = .running) &&
    decide (run.phase ∉ [.published, .preview, .dbCommitted])

def RunRecord.dropInput (run : RunRecord) : RunRecord :=
  { run with snapshotPath := none, snapshotSha256 := none }

def RunRecord.expire (now : ℤ) (run : RunRecord) : RunRecord :=
  { run with
    status := .failed, errorCode := some (lit "PERSONAL_INPUT_EXPIRED")
    finishedAt := some (Chrono.rfc3339 now) }

def expireInput (now : ℤ) (present : Text → Bool) (db : Db) (run : RunRecord) : Db :=
  if inputExpired now present run then
    let dropped := { db.updateRun run.runId RunRecord.dropInput with
      calls := updateWhere (fun call => decide (call.runId = run.runId))
        (fun call => { call with request := none, response := none }) db.calls }
    if stillRunning run then dropped.updateRun run.runId (RunRecord.expire now) else dropped
  else db

/-! ### Summaries -/

/-- `num_milliseconds` of the time between two timestamps, if it is not negative. -/
def elapsedMs (run : RunRecord) : Option ℕ := do
  let finished ← run.finishedAt
  let start ← Chrono.parse run.createdAt
  let stop ← Chrono.parse finished
  let elapsed := Int.tdiv (stop - start) 1000
  if 0 ≤ elapsed then some elapsed.toNat else none

def summaryOf (run : RunRecord) (summary : PersonalSummary) : Bool :=
  decide (summary.scopeId = run.scopeId ∧ summary.targetDate = run.targetDate)

def PersonalSummary.new (run : RunRecord) : PersonalSummary where
  scopeId := run.scopeId
  targetDate := run.targetDate
  calls := 0
  runs := 0
  elapsedMsTotal := 0
  failures := 0
  lastFailureAt := none
  lastFailure := none
  lastCreatedAt := none
  lastRun := none
  published := none

def lastRunOf (run : RunRecord) : LastRun where
  runId := run.runId
  status := run.status
  quality := run.quality
  finishedAt := run.finishedAt
  elapsedMs := elapsedMs run

/-- Count a run that was not compacted before. -/
def PersonalSummary.count (run : RunRecord) (summary : PersonalSummary) : PersonalSummary :=
  let counted := { summary with
    runs := summary.runs + 1
    elapsedMsTotal := saturatingAdd summary.elapsedMsTotal ((elapsedMs run).getD 0) }
  match run.errorCode with
  | none => counted
  | some code =>
    if summary.lastFailureAt.all fun last => decide (last ≤ run.createdAt) then
      { counted with
        failures := summary.failures + 1, lastFailureAt := some run.createdAt
        lastFailure := some (run.runId, code) }
    else { counted with failures := summary.failures + 1 }

/-- Keep the run if it is the latest one. -/
def PersonalSummary.keepLast (run : RunRecord) (summary : PersonalSummary) : PersonalSummary :=
  if summary.lastCreatedAt.all fun last => decide (last ≤ run.createdAt) then
    { summary with lastCreatedAt := some run.createdAt, lastRun := some (lastRunOf run) }
  else summary

/-- The summary before the run, with the number of calls of now. -/
def priorSummary (db : Db) (run : RunRecord) : PersonalSummary :=
  { (db.summaries.find? (summaryOf run)).getD (PersonalSummary.new run) with
    calls := ((db.personalCalls.find? (counterOf run)).map PersonalCalls.used).getD 0 }

/-- The summary with the run in it. -/
def summarize (db : Db) (run : RunRecord) : PersonalSummary :=
  let counted :=
    if run.runId ∈ db.compacted then priorSummary db run else (priorSummary db run).count run
  if db.isCurrent run.runId then { counted.keepLast run with published := some (lastRunOf run) }
  else counted.keepLast run

/-! ### Compacting -/

/-- Replace the details of a run by its summary. -/
def compactDetails (db : Db) (run : RunRecord) : Db :=
  let rest :=
    { db with
      summaries := deleteWhere (summaryOf run) db.summaries ++ [summarize db run]
      calls := deleteWhere (fun call => decide (call.runId = run.runId)) db.calls
      sources := deleteWhere (fun row => decide (row.runId = run.runId)) db.sources }
  if db.isCurrent run.runId then
    { rest.updateRun run.runId RunRecord.dropInput with
      compacted := if run.runId ∈ db.compacted then db.compacted else db.compacted ++ [run.runId] }
  else
    { rest with
      runs := deleteWhere (ofRun run.runId) db.runs
      personalRuns := db.personalRuns.filter (· ≠ run.runId)
      compacted := db.compacted.filter (· ≠ run.runId) }

/-- A compaction on its way: the database, the details it still has, and the last run it saw. -/
structure Compaction where
  db : Db
  detail : ℕ
  cursor : Text × Text

/-- The run is young and there is little detail, or it is not finished. -/
def sparesRun (now : ℤ) (detail : ℕ) (run : RunRecord) : Bool :=
  (decide (Chrono.rfc3339 (now - 30 * dayMicros) ≤ run.createdAt) && decide (detail ≤ maxDetailBytes)) ||
    decide (run.status = .running) || decide (run.phase = .dbCommitted)

def compactRun (now : ℤ) (present : Text → Bool) (c : Compaction) (run : RunRecord) : Compaction :=
  let db := expireInput now present c.db run
  let run := (db.findRun run.runId).getD run
  if sparesRun now c.detail run then { c with db }
  else { c with db := compactDetails db run, detail := c.detail - removedBytes db run }

/-- The position of a run in the order of the compaction. -/
def compactionKey (run : RunRecord) : Text ×ₗ Text := toLex (run.createdAt, run.runId)

/-- A personal run that has something to compact. -/
def compactable (db : Db) (run : RunRecord) : Bool :=
  decide (run.runId ∈ db.personalRuns) &&
    (decide (run.runId ∉ db.compacted) || !db.isCurrent run.runId)

/-- The next runs after the cursor. -/
def nextBatch (c : Compaction) : List Text :=
  ((sortByKey compactionKey (c.db.runs.filter fun run =>
    compactable c.db run && decide (toLex c.cursor < compactionKey run))).take 128).map RunRecord.runId

/-- Compact the runs of a batch, until the time is over: `ticks` is the number of looks at the clock
before the deadline.  The result says how many are left. -/
def compactBatch (now : ℤ) (present : Text → Bool) :
    ℕ → List Text → Compaction → Option ℕ × Compaction
  | ticks, [], c => (some ticks, c)
  | 0, _ :: _, c => (none, c)
  | ticks + 1, id :: ids, c =>
    match c.db.findRun id with
    | none => (none, c)
    | some run =>
      compactBatch now present ticks ids
        (compactRun now present { c with cursor := (run.createdAt, run.runId) } run)

/-- One batch after the other; every batch moves the cursor over a run of the start. -/
def compactLoop (now : ℤ) (present : Text → Bool) : ℕ → ℕ → Compaction → Db
  | 0, _, c => c.db
  | _, 0, c => c.db
  | fuel + 1, ticks + 1, c =>
    match nextBatch c with
    | [] => c.db
    | id :: ids =>
      match compactBatch now present ticks (id :: ids) c with
      | (some ticks, c) => compactLoop now present fuel ticks c
      | (none, c) => c.db

/-- `compact_personal_until`.  `present` tells whether the file of a snapshot is there. -/
def compactPersonal (db : Db) (now : ℤ) (present : Text → Bool) (ticks : ℕ) : Db :=
  compactLoop now present (db.runs.length + 1) ticks
    { db, detail := detailBytes db, cursor := ([], []) }

end DailyReport.Reports
