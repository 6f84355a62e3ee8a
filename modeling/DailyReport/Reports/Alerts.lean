import DailyReport.Reports.Accounts

/-!
# Outstanding reports

`issues` lists the dates whose report is missing or incomplete: from the newest report run of a date
that was never published, and from the summary that a compaction leaves of runs that have failed.

* `compactDetails_alerted` : what compacting one run does to the dates that are listed;
* `alerts_kept_iff` : a compaction loses no date, and adds none exactly when every failed run that it
  compacts is of a date that is published or listed;
* `alerts_added` : a preview that has failed makes its date appear.
-/

namespace DailyReport.Reports

open Lib

/-- Days of the calendar. -/
class Days where
  /-- The number of a date. -/
  day : Text → ℤ
  /-- The day of Shanghai at an instant. -/
  today : ℤ → ℤ

@[reducible] def shanghaiDays : Days where
  day date :=
    let (year, month, day) := calendarDate date
    civilDays year month day
  today now := (now + 8 * 3600 * secondMicros) / (daySeconds * secondMicros)

/-! ### Why a report is outstanding -/

structure Issue where
  targetDate : Text
  runId : Text
  missingSummary : Bool
  reasonCodes : List Text
  callsUsed : ℕ
  materialWindowOpen : Bool
  deriving DecidableEq

def personalSummaryUnavailable : Text := lit "PERSONAL_SUMMARY_UNAVAILABLE"

def parseUnavailable : Text := lit "PARSE_UNAVAILABLE"

/-- A gap that leaves the report outstanding. -/
def outstandingGap (code : Text) : Bool :=
  (lit "MODEL_").isPrefixOf code || decide (code ∈ [personalSummaryUnavailable,
    lit "PERSONAL_CALL_LIMIT", parseUnavailable, lit "ARCHIVE_INPUT_PENDING", lit "MEMORY_RESERVE",
    lit "PROCESSING_CACHE_FULL", lit "PROCESSING_DEADLINE", lit "RUN_BUDGET_DEFERRED"])

def reasons (report : ReportDocument) : List Text :=
  if report.schemaVersion ≠ some 5 then []
  else
    let unread := if 0 < report.readFailed then [parseUnavailable] else []
    let unsummarized :=
      if report.noItems ∧ (0 < report.observedFiles ∨ report.userNotes ≠ []) then
        [personalSummaryUnavailable]
      else []
    sortByKey id (report.gapCodes.filter outstandingGap ++ unread ++ unsummarized).dedup

/-! ### The newest runs -/

def Db.published (db : Db) (date : Text) : Bool :=
  db.dailyReports.any fun row => decide (row.date = date)

/-- A report of the same scope and date. -/
def sameReport (run other : RunRecord) : Bool :=
  decide (other.scopeId = run.scopeId ∧ other.targetDate = run.targetDate ∧
    other.runKind = lit "report")

/-- There is a report of a later time, or of the same time and in a later row. -/
def newerExists (all later : List RunRecord) (run : RunRecord) : Bool :=
  (all.any fun other => sameReport run other && decide (run.createdAt < other.createdAt)) ||
    later.any fun other => sameReport run other && decide (other.createdAt = run.createdAt)

/-- The runs than which no report of their date is newer. -/
def newest (all : List RunRecord) : List RunRecord → List RunRecord
  | [] => []
  | run :: later => if newerExists all later run then newest all later else run :: newest all later

/-- The personal reports that are looked at: the published run of a date, and the newest run of a date
that was not published. -/
def reportRuns (db : Db) (scope : Text) : List RunRecord :=
  db.runs.filter fun run =>
    decide (run.scopeId = scope) && decide (run.runKind = lit "report") &&
      decide (run.runId ∈ db.personalRuns) &&
      (db.isCurrent run.runId ||
        !db.published run.targetDate && decide (run.errorCode ≠ some runSuperseded) &&
          decide (run ∈ newest db.runs db.runs))

/-! ### The list -/

def runReasons (run : RunRecord) : List Text :=
  match run.reportJson with
  | some report => reasons report
  | none => [run.errorCode.getD (lit "REPORT_NOT_PUBLISHED")]

def lacksSummary (run : RunRecord) : Bool :=
  match run.reportJson with
  | some report => report.noItems && decide (report.quality ≠ some (lit "no_changes"))
  | none => true

/-- The files of the last days are there. -/
def retentionDays : ℤ := 7

def summaryPattern (scope : Text) : Text := lit "personal_summary:" ++ scope ++ lit ":" ++ ['%']

def summaryKey (scope date : Text) : Text := lit "personal_summary:" ++ scope ++ lit ":" ++ date

/-- The summaries of failures in dates that were not published. -/
def failureSummaries (db : Db) (scope : Text) : List PersonalSummary :=
  db.summaries.filter fun summary =>
    like (summaryPattern scope) (summaryKey summary.scopeId summary.targetDate) &&
      summary.lastFailure.isSome && !db.published summary.targetDate

/-- Add the failure of a date that is not in the list. -/
def addFailure (result : List Issue) (summary : PersonalSummary) : List Issue :=
  match summary.lastFailure with
  | none => result
  | some (runId, code) =>
    if summary.targetDate ∈ result.map Issue.targetDate then result
    else result ++ [{
      targetDate := summary.targetDate, runId, missingSummary := true, reasonCodes := [code]
      callsUsed := summary.calls, materialWindowOpen := false }]

section Listing

variable [Days]

def runIssue (db : Db) (now : ℤ) (run : RunRecord) : Issue where
  targetDate := run.targetDate
  runId := run.runId
  missingSummary := lacksSummary run
  reasonCodes := runReasons run
  callsUsed := db.used run.scopeId run.targetDate
  materialWindowOpen := decide (Days.day run.targetDate < Days.today now) &&
    decide (Days.today now - retentionDays ≤ Days.day run.targetDate)

def runIssues (db : Db) (scope : Text) (now : ℤ) : List Issue :=
  ((sortByKey (fun run => toLex (run.targetDate, run.runId)) (reportRuns db scope)).filter fun run =>
    decide (runReasons run ≠ [])).map (runIssue db now)

def issues (db : Db) (scope : Text) (now : ℤ) : List Issue :=
  sortByKey (fun issue => Days.day issue.targetDate)
    ((failureSummaries db scope).foldl addFailure (runIssues db scope now))

/-- The dates that are listed. -/
def alertDates (db : Db) (scope : Text) (now : ℤ) : List Text :=
  (issues db scope now).map Issue.targetDate

end Listing

/-! ### Dates -/

/-- The date is listed for a run. -/
def RunAlert (db : Db) (scope date : Text) : Prop :=
  ∃ run ∈ reportRuns db scope, runReasons run ≠ [] ∧ run.targetDate = date

/-- The date is listed for the summary of a failure. -/
def FailureAlert (db : Db) (scope date : Text) : Prop :=
  ∃ summary ∈ failureSummaries db scope, summary.targetDate = date

def Alerted (db : Db) (scope date : Text) : Prop := RunAlert db scope date ∨ FailureAlert db scope date

theorem mem_addFailure {result : List Issue} {summary : PersonalSummary}
    (hfailed : summary.lastFailure.isSome) (date : Text) :
    date ∈ (addFailure result summary).map Issue.targetDate ↔
      date ∈ result.map Issue.targetDate ∨ summary.targetDate = date := by
  obtain ⟨⟨runId, code⟩, hfailure⟩ := Option.isSome_iff_exists.1 hfailed
  unfold addFailure
  simp only [hfailure]
  split_ifs with hthere
  · constructor
    · exact .inl
    · rintro (hmem | rfl)
      · exact hmem
      · exact hthere
  · simp only [List.map_append, List.mem_append, List.map_singleton, List.mem_singleton, eq_comm]

theorem mem_foldl_addFailure {summaries : List PersonalSummary}
    (hfailed : ∀ summary ∈ summaries, summary.lastFailure.isSome) (result : List Issue) (date : Text) :
    date ∈ (summaries.foldl addFailure result).map Issue.targetDate ↔
      date ∈ result.map Issue.targetDate ∨ ∃ summary ∈ summaries, summary.targetDate = date := by
  induction summaries generalizing result with
  | nil => simp
  | cons summary summaries ih =>
    rw [List.foldl_cons, ih fun other hother => hfailed other (List.mem_cons_of_mem _ hother),
      mem_addFailure (hfailed summary (by simp))]
    simp only [List.mem_cons, exists_eq_or_imp, or_assoc]

/-- The dates that are listed. -/
theorem mem_alertDates [Days] {db : Db} {scope : Text} {now : ℤ} (date : Text) :
    date ∈ alertDates db scope now ↔ Alerted db scope date := by
  have hruns : date ∈ (runIssues db scope now).map Issue.targetDate ↔ RunAlert db scope date := by
    simp only [runIssues, List.map_map, List.mem_map, List.mem_filter, mem_sortByKey,
      decide_eq_true_eq, Function.comp_apply, runIssue, and_assoc]
    rfl
  have hfailed : ∀ summary ∈ failureSummaries db scope, summary.lastFailure.isSome := by
    intro summary hsummary
    simp only [failureSummaries, List.mem_filter, Bool.and_eq_true] at hsummary
    exact hsummary.2.1.2
  unfold alertDates issues
  rw [(sortByKey_perm _ _).map Issue.targetDate |>.mem_iff, mem_foldl_addFailure hfailed, hruns]
  rfl

/-! ### What the newest runs depend on -/

section Newest

variable {all all' later later' : List RunRecord} {run : RunRecord}

theorem sameReport_eq {run other : RunRecord} (h : sameReport run other = true) :
    sameReport other = sameReport run := by
  obtain ⟨hscope, hdate, -⟩ := of_decide_eq_true h
  funext third
  unfold sameReport
  rw [hscope, hdate]

theorem newest_subset (h : run ∈ newest all later) : run ∈ later := by
  induction later with
  | nil => exact h
  | cons other later ih =>
    rw [newest] at h
    split_ifs at h
    · exact List.mem_cons_of_mem _ (ih h)
    · rcases List.mem_cons.1 h with rfl | h
      · exact List.mem_cons_self
      · exact List.mem_cons_of_mem _ (ih h)

/-- Reports of other dates do not count. -/
theorem newest_filter (run : RunRecord) (all later : List RunRecord) :
    (newest all later).filter (sameReport run) =
      newest (all.filter (sameReport run)) (later.filter (sameReport run)) := by
  induction later with
  | nil => rfl
  | cons other later ih =>
    by_cases hsame : sameReport run other = true
    · have hnewer : newerExists (all.filter (sameReport run)) (later.filter (sameReport run)) other =
          newerExists all later other := by
        unfold newerExists
        rw [sameReport_eq hsame, List.any_filter, List.any_filter]
        simp only [← Bool.and_assoc, Bool.and_self]
      rw [List.filter_cons_of_pos hsame, newest, newest, hnewer]
      split_ifs
      · exact ih
      · rw [List.filter_cons_of_pos hsame, ih]
    · rw [List.filter_cons_of_neg hsame, newest]
      split_ifs
      · exact ih
      · rw [List.filter_cons_of_neg hsame, ih]

/-- Whether a report is the newest of its date is a matter of the reports of its date. -/
theorem mem_newest_congr (hkind : run.runKind = lit "report")
    (hfilter : all'.filter (sameReport run) = all.filter (sameReport run)) :
    run ∈ newest all' all' ↔ run ∈ newest all all := by
  have hself : sameReport run run = true := decide_eq_true ⟨rfl, rfl, hkind⟩
  have hmem : ∀ rows, run ∈ newest rows rows ↔
      run ∈ newest (rows.filter (sameReport run)) (rows.filter (sameReport run)) := by
    intro rows
    rw [← newest_filter, List.mem_filter, and_iff_left hself]
  rw [hmem, hmem all, hfilter]

end Newest

/-! ### Runs that can be listed -/

/-- What is known of a run: it is not superseded while it runs; a report with a text is staged; a report
that has ended has an error or is published; and the date of a published run is published. -/
structure AlertRow (db : Db) (run : RunRecord) : Prop where
  running : run.status = .running → run.errorCode ≠ some runSuperseded
  staged : run.runKind = lit "report" → run.reportJson.isSome → run.Committed
  ended : run.runKind = lit "report" → run.status ≠ .running →
    run.errorCode.isSome ∨ run.phase = .published
  published : run.phase = .published ∨ run.runId ∈ db.compacted → db.published run.targetDate = true

def PersonalSummary.key (summary : PersonalSummary) : Text × Text :=
  (summary.scopeId, summary.targetDate)

structure AlertInv (db : Db) : Prop where
  rows : ∀ run ∈ db.runs, AlertRow db run
  summaries_nodup : (db.summaries.map PersonalSummary.key).Nodup
  failures : ∀ summary ∈ db.summaries, summary.lastFailureAt.isSome → summary.lastFailure.isSome

section Rows

variable {db db' : Db} {run run' : RunRecord}

/-- A row that keeps what the invariant is about, in a store with the same dates. -/
theorem AlertRow.of_columns (h : AlertRow db run) (hdaily : db'.dailyReports = db.dailyReports)
    (hcompacted : db'.compacted = db.compacted) (hid : run'.runId = run.runId)
    (hdate : run'.targetDate = run.targetDate) (hkind : run'.runKind = run.runKind)
    (hphase : run'.phase = run.phase) (hreport : run'.reportJson = run.reportJson)
    (hrunning : run'.status = .running → run'.errorCode ≠ some runSuperseded)
    (hended : run'.status ≠ .running →
      run'.errorCode.isSome ∨ run.status ≠ .running ∧ run'.errorCode = run.errorCode) :
    AlertRow db' run' where
  running := hrunning
  staged hreportKind hjson := by
    unfold RunRecord.Committed
    rw [hphase]
    exact h.staged (hkind ▸ hreportKind) (hreport ▸ hjson)
  ended hreportKind hnot := by
    rcases hended hnot with herror | ⟨hbefore, herror⟩
    · exact .inl herror
    · rw [herror, hphase]
      exact h.ended (hkind ▸ hreportKind) hbefore
  published hpublished := by
    unfold Db.published
    rw [hdaily, hdate]
    rw [hphase, hid, hcompacted] at hpublished
    exact h.published hpublished

theorem AlertRow.congr (h : AlertRow db run) (hdaily : db'.dailyReports = db.dailyReports)
    (hcompacted : db'.compacted = db.compacted) : AlertRow db' run :=
  h.of_columns hdaily hcompacted rfl rfl rfl rfl rfl h.running fun hnot => .inr ⟨hnot, rfl⟩

/-- The dates that are published stay so. -/
theorem AlertRow.mono (h : AlertRow db run)
    (hdates : ∀ date, db.published date = true → db'.published date = true)
    (hcompacted : db'.compacted = db.compacted) : AlertRow db' run where
  running := h.running
  staged := h.staged
  ended := h.ended
  published hpublished := by
    rw [hcompacted] at hpublished
    exact hdates _ (h.published hpublished)

/-- A run that has ended and is no report. -/
theorem AlertRow.of_kind (h : AlertRow db run) (hid : run'.runId = run.runId)
    (hdate : run'.targetDate = run.targetDate) (hkind : run'.runKind ≠ lit "report")
    (hstatus : run'.status ≠ .running) (hphase : run'.phase ≠ .published) : AlertRow db run' where
  running hrunning := absurd hrunning hstatus
  staged hreportKind := absurd hreportKind hkind
  ended hreportKind := absurd hreportKind hkind
  published hpublished := by
    rw [hdate]
    rw [hid] at hpublished
    exact h.published (.inr (hpublished.resolve_left hphase))

/-- A running run in an early phase has no text. -/
theorem AlertRow.of_running (h : AlertRow db run) (hrun : ¬ run.Committed) (hrow : ¬ run'.Committed)
    (hid : run'.runId = run.runId) (hdate : run'.targetDate = run.targetDate)
    (hkind : run'.runKind = run.runKind) (hreport : run'.reportJson = run.reportJson)
    (hstatus : run.status = .running) (hstatus' : run'.status = .running)
    (herror : run'.errorCode = run.errorCode) : AlertRow db run' where
  running _ := by
    rw [herror]
    exact h.running hstatus
  staged hreportKind hjson := absurd (h.staged (hkind ▸ hreportKind) (hreport ▸ hjson)) hrun
  ended _ hnot := absurd hstatus' hnot
  published hpublished := by
    rw [hdate]
    rw [hid] at hpublished
    rcases hpublished with hpublished | hcompacted
    · exact absurd (.inr hpublished) hrow
    · exact h.published (.inr hcompacted)

theorem AlertInv.of_rows (h : AlertInv db) (hsummaries : db'.summaries = db.summaries)
    (hrows : ∀ run ∈ db'.runs, AlertRow db' run) : AlertInv db' where
  rows := hrows
  summaries_nodup := by
    rw [hsummaries]
    exact h.summaries_nodup
  failures := by
    rw [hsummaries]
    exact h.failures

/-- An operation that updates runs and leaves the dates alone. -/
theorem AlertInv.of_update (h : AlertInv db) {p : RunRecord → Bool} {f : RunRecord → RunRecord}
    (hruns : db'.runs = updateWhere p f db.runs) (hdaily : db'.dailyReports = db.dailyReports)
    (hcompacted : db'.compacted = db.compacted) (hsummaries : db'.summaries = db.summaries)
    (hf : ∀ run ∈ db.runs, p run = true → AlertRow db run → AlertRow db (f run)) : AlertInv db' := by
  refine h.of_rows hsummaries fun row hrow => ?_
  rw [hruns] at hrow
  rcases mem_updateWhere.1 hrow with ⟨hrow, -⟩ | ⟨run, hrun, hpass, rfl⟩
  · exact (h.rows row hrow).congr hdaily hcompacted
  · exact (hf run hrun hpass (h.rows run hrun)).congr hdaily hcompacted

theorem AlertInv.of_same (h : AlertInv db) (hruns : db'.runs = db.runs)
    (hdaily : db'.dailyReports = db.dailyReports) (hcompacted : db'.compacted = db.compacted)
    (hsummaries : db'.summaries = db.summaries) : AlertInv db' := by
  refine h.of_rows hsummaries fun row hrow => ?_
  rw [hruns] at hrow
  exact (h.rows row hrow).congr hdaily hcompacted

theorem AlertInv.updateOne (h : AlertInv db) {p : RunRecord → Bool} {f : RunRecord → RunRecord}
    {code : String} (hupdate : updateOne db p f code = .ok db')
    (hf : ∀ run ∈ db.runs, p run = true → AlertRow db run → AlertRow db (f run)) : AlertInv db' := by
  obtain ⟨-, rfl⟩ := updateOne_eq_ok.1 hupdate
  exact h.of_update rfl rfl rfl rfl hf

end Rows

/-! ### Operations -/

section Operations

variable [Chrono] {db db' : Db} {id : Text} {now : ℤ}

theorem createRun_alerts (h : AlertInv db) (hmarked : ∀ id ∈ db.compacted, id ∈ db.runIds)
    {context : RunContext} {kind generationId : Text} {reason : Option Text} {personal : Bool}
    (hop : createRun db context kind generationId reason now personal = .ok db') : AlertInv db' := by
  simp only [createRun, bind_eq_ok, ensure_eq_ok, Except.ok.injEq] at hop
  obtain ⟨-, -, -, -, -, hfresh, -, -, rfl⟩ := hop
  refine h.of_rows rfl fun row hrow => ?_
  rcases List.mem_append.1 hrow with hrow | hrow
  · exact (h.rows row hrow).congr rfl rfl
  · rw [List.mem_singleton.1 hrow]
    refine ⟨?_, fun _ hjson => (by cases hjson), fun _ hnot => absurd rfl hnot, ?_⟩
    · intro _ hcode
      cases hcode
    rintro (hphase | hcompacted)
    · cases hphase
    · exact absurd (hmarked _ hcompacted) hfresh

omit [Chrono] in
theorem registerPersonalRun_alerts (h : AlertInv db) (hop : registerPersonalRun db id = .ok db') :
    AlertInv db' := by
  simp only [registerPersonalRun, bind_eq_ok, Except.ok.injEq] at hop
  obtain ⟨-, -, rfl⟩ := hop
  exact h.of_same rfl rfl rfl rfl

theorem setScanning_alerts (h : AlertInv db) (hop : setScanning db id now = .ok db') :
    AlertInv db' := by
  refine h.updateOne hop fun run _ hpass hrow => ?_
  simp only [Bool.and_eq_true, decide_eq_true_eq] at hpass
  exact hrow.of_running (by simp [RunRecord.Committed, hpass.1.2]) (by simp [RunRecord.Committed]) rfl
    rfl rfl rfl hpass.2 hpass.2 rfl

omit [Chrono] in
theorem insertSources_alerts (h : AlertInv db) {sources : List SourceDocument} {missing : ReportError}
    (hop : insertSources db id sources missing = .ok db') : AlertInv db' := by
  obtain ⟨rows, rfl⟩ := insertSources_eq_ok hop
  exact h.of_same rfl rfl rfl rfl

omit [Chrono] in
theorem saveScanFailure_alerts (h : AlertInv db) {snapshot : SnapshotRef} {sources : List SourceDocument}
    (hop : saveScanFailure db id snapshot sources = .ok db') : AlertInv db' := by
  obtain ⟨updated, hupdate, hinsert⟩ := bind_eq_ok.1 hop
  refine insertSources_alerts (h.updateOne hupdate fun run _ _ hrow => ?_) hinsert
  exact hrow.of_columns rfl rfl rfl rfl rfl rfl rfl hrow.running fun hnot => .inr ⟨hnot, rfl⟩

theorem prepare_alerts (h : AlertInv db) {snapshot : SnapshotRef} {fingerprint : Text}
    {sources : List SourceDocument} (hop : prepare db id snapshot fingerprint sources now = .ok db') :
    AlertInv db' := by
  obtain ⟨updated, hupdate, hinsert⟩ := bind_eq_ok.1 hop
  refine insertSources_alerts (h.updateOne hupdate fun run _ hpass hrow => ?_) hinsert
  simp only [Bool.and_eq_true, decide_eq_true_eq] at hpass
  exact hrow.of_running (not_committed_of_mem hpass.1.2 (by decide) (by decide))
    (by simp [RunRecord.Committed]) rfl rfl rfl rfl hpass.2 hpass.2 rfl

theorem reserveCall_alerts (hids : (db.runs.map RunRecord.runId).Nodup) (h : AlertInv db)
    {input : CallReservation} (hop : reserveCall db input = .ok db') : AlertInv db' := by
  obtain ⟨found, hfind, hstatus, hphase, -, -, -, rfl⟩ := reserveCall_eq_ok hop
  obtain ⟨hmem, hid⟩ := findRun_eq_some hfind
  obtain ⟨hruns, hcompacted, hsummaries⟩ := recordCall_books db found
  refine h.of_update (congrArg (updateWhere _ _) hruns) (recordCall_dailyReports db found) hcompacted
    hsummaries fun run hrun hpass hrow => ?_
  have hsame : run = found :=
    List.inj_on_of_nodup_map hids hrun hmem ((ofRun_eq_true.1 hpass).trans hid.symm)
  subst hsame
  exact hrow.of_running (not_committed_of_mem hphase (by decide) (by decide))
    (by simp [RunRecord.Committed]) rfl rfl rfl rfl hstatus hstatus rfl

theorem resume_alerts (h : AlertInv db) (hop : resume db id now = .ok db') : AlertInv db' := by
  obtain ⟨updated, hupdate, hdb'⟩ := bind_eq_ok.1 hop
  cases hdb'
  refine AlertInv.of_same (h.updateOne hupdate fun run _ _ hrow => ?_) rfl rfl rfl rfl
  refine hrow.of_columns rfl rfl rfl rfl rfl rfl rfl (fun _ hcode => ?_) fun hnot => absurd rfl hnot
  have hcaptured := (Option.filter_eq_some_iff.1 hcode).2
  exact absurd (of_decide_eq_true hcaptured) (by decide +kernel)

theorem fail_alerts (h : AlertInv db) {code : Text} {cancelled : Bool} :
    AlertInv (fail db id code cancelled now) := by
  refine h.of_update rfl rfl rfl rfl fun run _ _ hrow => ?_
  refine hrow.of_columns rfl rfl rfl rfl rfl rfl rfl (fun hrunning => ?_) fun _ => .inl rfl
  cases cancelled <;> cases hrunning

theorem recoverInterrupted_alerts (h : AlertInv db) : AlertInv (recoverInterrupted db now) := by
  refine h.of_update rfl rfl rfl rfl fun run _ _ hrow => ?_
  exact hrow.of_columns rfl rfl rfl rfl rfl rfl rfl (fun hrunning => by cases hrunning) fun _ => .inl rfl

theorem stageReport_alerts [ReportRules] [Sha256] (hids : (db.runs.map RunRecord.runId).Nodup)
    (h : AlertInv db) {staged : StagedReport} (hop : stageReport db id staged now = .ok db') :
    AlertInv db' := by
  simp only [stageReport, bind_eq_ok, ensure_eq_ok, readRun_eq_ok] at hop
  obtain ⟨found, hfind, -, ⟨-, -, hstatus⟩, _, -, previous, -, hinsert⟩ := hop
  obtain ⟨hmem, hid⟩ := findRun_eq_some hfind
  refine insertSources_alerts ?_ hinsert
  refine h.of_update (f := RunRecord.stage staged previous now) rfl rfl rfl rfl
    fun run hrun hpass hrow => ?_
  have hsame : run = found :=
    List.inj_on_of_nodup_map hids hrun hmem ((ofRun_eq_true.1 hpass).trans hid.symm)
  subst hsame
  refine ⟨fun _ => hrow.running hstatus, fun _ _ => .inl rfl, fun _ hnot => absurd hstatus hnot, ?_⟩
  rintro (hphase | hcompacted)
  · cases hphase
  · exact hrow.published (.inr hcompacted)

omit [Chrono] in
/-- A date that has a row keeps one. -/
theorem published_upsertDaily (row : DailyReportRow) (databaseNow updatedAt : Text) {date : Text}
    {rows : List DailyReportRow}
    (h : date = row.date ∨ (rows.any fun other => decide (other.date = date)) = true) :
    ((upsertDaily row databaseNow updatedAt rows).any fun other => decide (other.date = date)) = true := by
  by_cases hdate : date = row.date
  · obtain ⟨time, hmem⟩ := exists_mem_upsertDaily row databaseNow updatedAt rows
    exact List.any_eq_true.2 ⟨_, hmem, decide_eq_true hdate.symm⟩
  · have hsome : (rows.find? fun other => decide (other.date = date)).isSome :=
      List.find?_isSome.2 (List.any_eq_true.1 (h.resolve_left hdate))
    rw [← find?_upsertDaily_of_ne databaseNow updatedAt rows hdate] at hsome
    exact List.any_eq_true.2 (List.find?_isSome.1 hsome)

theorem markDailyPublished_alerts (hids : (db.runs.map RunRecord.runId).Nodup) (h : AlertInv db)
    {verified databaseNow : Text} (hop : markDailyPublished db id verified now databaseNow = .ok db') :
    AlertInv db' := by
  obtain ⟨run, report, version, hfind, -, -, -, -, rfl⟩ := markDailyPublished_eq_ok hop
  obtain ⟨hmem, -⟩ := findRun_eq_some hfind
  -- the publication itself, without the runs that it supersedes
  have hpublish : AlertInv { db.updateRun run.runId (RunRecord.publish now) with
      dailyReports := upsertDaily (run.dailyRow report version) databaseNow (Chrono.timestamp now)
        db.dailyReports } := by
    refine h.of_rows rfl fun row hrow => ?_
    rcases mem_updateWhere.1 hrow with ⟨hrow, -⟩ | ⟨old, hold, hpass, rfl⟩
    · exact (h.rows row hrow).mono (fun date hdate => published_upsertDaily _ _ _ (.inr hdate)) rfl
    · have hsame : old = run := List.inj_on_of_nodup_map hids hold hmem (ofRun_eq_true.1 hpass)
      subst hsame
      refine ⟨fun hrunning => (by cases hrunning), fun _ _ => .inr rfl, fun _ _ => .inr rfl, fun _ => ?_⟩
      exact published_upsertDaily _ _ _ (.inl rfl)
  by_cases hreason : run.regenerationReason.isSome = true
  · refine hpublish.of_update (p := supersededBy run) (f := RunRecord.supersede now) ?_ rfl rfl rfl
      fun other _ _ hrow => ?_
    · exact if_pos hreason
    · exact hrow.of_columns rfl rfl rfl rfl rfl rfl rfl (fun hrunning => (by cases hrunning))
        fun _ => .inl rfl
  · exact hpublish.of_same (if_neg hreason) rfl rfl rfl

theorem finishPreview_alerts [ReportRules] [Sha256] (hids : (db.runs.map RunRecord.runId).Nodup)
    (h : AlertInv db) {report : ReportDocument} {markdown : Text}
    (hop : finishPreview db id report markdown now = .ok db') : AlertInv db' := by
  obtain ⟨found, hfound, hop⟩ := bind_eq_ok.1 hop
  obtain ⟨_, hkind, hop⟩ := bind_eq_ok.1 hop
  obtain ⟨_, -, hop⟩ := bind_eq_ok.1 hop
  have hkind := ensure_eq_ok.1 hkind
  obtain ⟨hmem, hid⟩ := findRun_eq_some (readRun_eq_ok.1 hfound)
  refine h.updateOne hop fun run hrun hpass hrow => ?_
  simp only [Bool.and_eq_true, ofRun_eq_true] at hpass
  have hsame : run = found := List.inj_on_of_nodup_map hids hrun hmem (hpass.1.trans hid.symm)
  subst hsame
  refine hrow.of_kind rfl rfl ?_ (by simp) (by simp)
  show run.runKind ≠ lit "report"
  rw [hkind]
  decide +kernel

theorem finishScanPreview_alerts (h : AlertInv db) {quality : Text}
    (hop : finishScanPreview db id quality now = .ok db') : AlertInv db' := by
  refine h.updateOne hop fun run _ hpass hrow => ?_
  simp only [Bool.and_eq_true, decide_eq_true_eq] at hpass
  obtain ⟨⟨⟨-, hkind⟩, hphase⟩, -⟩ := hpass
  refine hrow.of_kind rfl rfl ?_ (by simp) (by simp [hphase])
  show run.runKind ≠ lit "report"
  rw [hkind]
  decide +kernel

theorem finishModelCheck_alerts (h : AlertInv db) {result : ReportDocument}
    (hop : finishModelCheck db id result now = .ok db') : AlertInv db' := by
  refine h.updateOne hop fun run _ hpass hrow => ?_
  simp only [Bool.and_eq_true, decide_eq_true_eq] at hpass
  obtain ⟨⟨⟨-, hkind⟩, -⟩, -⟩ := hpass
  refine hrow.of_kind rfl rfl ?_ (by simp) (by simp)
  show run.runKind ≠ lit "report"
  rw [hkind]
  decide +kernel

end Operations

/-! ### Which runs stand for a date -/

section Standing

variable {db db' : Db} {scope date : Text}

/-- The run is a report of the scope and date. -/
def reportOf (scope date : Text) (run : RunRecord) : Bool :=
  decide (run.scopeId = scope ∧ run.targetDate = date ∧ run.runKind = lit "report")

/-- A personal report is looked at. -/
def Stands (db : Db) (run : RunRecord) : Prop :=
  run.runId ∈ db.personalRuns ∧
    (db.isCurrent run.runId = true ∨
      db.published run.targetDate = false ∧ run.errorCode ≠ some runSuperseded ∧
        run ∈ newest db.runs db.runs)

theorem runAlert_iff : RunAlert db scope date ↔
    ∃ run ∈ db.runs, reportOf scope date run = true ∧ Stands db run ∧ runReasons run ≠ [] := by
  simp only [RunAlert, reportRuns, List.mem_filter, Bool.and_eq_true, Bool.or_eq_true,
    decide_eq_true_eq, Bool.not_eq_true', reportOf, Stands]
  constructor
  · rintro ⟨run, ⟨hrun, ⟨⟨hscope, hkind⟩, hpersonal⟩, hstands⟩, hreasons, hdate⟩
    refine ⟨run, hrun, ⟨hscope, hdate, hkind⟩, ⟨hpersonal, ?_⟩, hreasons⟩
    exact hstands.imp (fun h => h) fun h => ⟨h.1.1, h.1.2, h.2⟩
  · rintro ⟨run, hrun, ⟨hscope, hdate, hkind⟩, ⟨hpersonal, hstands⟩, hreasons⟩
    refine ⟨run, ⟨hrun, ⟨⟨hscope, hkind⟩, hpersonal⟩, ?_⟩, hreasons, hdate⟩
    exact hstands.imp (fun h => h) fun h => ⟨⟨h.1, h.2.1⟩, h.2.2⟩

theorem isCurrent_congr (hdaily : db'.dailyReports = db.dailyReports) :
    db'.isCurrent = db.isCurrent := by
  funext id
  simp only [Db.isCurrent, hdaily]

theorem published_congr (hdaily : db'.dailyReports = db.dailyReports) :
    db'.published = db.published := by
  funext date
  simp only [Db.published, hdaily]

/-- A date is listed for the runs of the date. -/
theorem runAlert_congr (hdaily : db'.dailyReports = db.dailyReports)
    (hfilter : db'.runs.filter (reportOf scope date) = db.runs.filter (reportOf scope date))
    (hpersonal : ∀ run ∈ db.runs, reportOf scope date run = true →
      (run.runId ∈ db'.personalRuns ↔ run.runId ∈ db.personalRuns)) :
    RunAlert db' scope date ↔ RunAlert db scope date := by
  have hmem : ∀ run, run ∈ db'.runs ∧ reportOf scope date run = true ↔
      run ∈ db.runs ∧ reportOf scope date run = true := by
    intro run
    rw [← List.mem_filter, hfilter, List.mem_filter]
  have hstands : ∀ run ∈ db.runs, reportOf scope date run = true → (Stands db' run ↔ Stands db run) := by
    intro run hrun hreport
    obtain ⟨hscope, hdate, hkind⟩ := of_decide_eq_true hreport
    have hsame : sameReport run = reportOf scope date := by
      funext other
      unfold sameReport reportOf
      rw [hscope, hdate]
    unfold Stands
    rw [hpersonal run hrun hreport, isCurrent_congr hdaily, published_congr hdaily,
      mem_newest_congr hkind (hsame ▸ hfilter)]
  rw [runAlert_iff, runAlert_iff]
  constructor
  · rintro ⟨run, hrun, hreport, hstand, hreasons⟩
    have hrun := ((hmem run).1 ⟨hrun, hreport⟩).1
    exact ⟨run, hrun, hreport, (hstands run hrun hreport).1 hstand, hreasons⟩
  · rintro ⟨run, hrun, hreport, hstand, hreasons⟩
    exact ⟨run, ((hmem run).2 ⟨hrun, hreport⟩).1, hreport, (hstands run hrun hreport).2 hstand,
      hreasons⟩

/-- What a list of alerts keeps of a run. -/
structure SameAlert (run run' : RunRecord) : Prop where
  runId : run'.runId = run.runId
  scopeId : run'.scopeId = run.scopeId
  targetDate : run'.targetDate = run.targetDate
  runKind : run'.runKind = run.runKind
  createdAt : run'.createdAt = run.createdAt
  superseded : run'.errorCode = some runSuperseded ↔ run.errorCode = some runSuperseded
  reasons : runReasons run' ≠ [] ↔ runReasons run ≠ []

theorem newest_map {f : RunRecord → RunRecord} (all later : List RunRecord)
    (hall : ∀ run ∈ all, SameAlert run (f run)) (hlater : ∀ run ∈ later, SameAlert run (f run)) :
    newest (all.map f) (later.map f) = (newest all later).map f := by
  have hany : ∀ (rows : List RunRecord) (run : RunRecord) (c d : RunRecord → Bool),
      (∀ other ∈ rows, SameAlert other (f other)) → SameAlert run (f run) →
      (∀ other ∈ rows, c (f other) = d other) →
      ((rows.map f).any fun other => sameReport (f run) other && c other) =
        rows.any fun other => sameReport run other && d other := by
    intro rows run c d hrows hrun hcd
    rw [List.any_map, Bool.eq_iff_iff, List.any_eq_true, List.any_eq_true]
    refine exists_congr fun other => and_congr_right fun hother => ?_
    have hsame := hrows other hother
    simp only [Function.comp_apply, sameReport, hsame.scopeId, hsame.targetDate, hsame.runKind,
      hrun.scopeId, hrun.targetDate, hcd other hother]
  induction later with
  | nil => rfl
  | cons run later ih =>
    have hrun := hlater run (by simp)
    have hrest := fun other (hother : other ∈ later) => hlater other (List.mem_cons_of_mem _ hother)
    have hnewer : newerExists (all.map f) (later.map f) (f run) = newerExists all later run := by
      unfold newerExists
      rw [hany all run _ (fun other => decide (run.createdAt < other.createdAt)) hall hrun,
        hany later run _ (fun other => decide (other.createdAt = run.createdAt)) hrest hrun]
      · intro other hother
        rw [(hrest other hother).createdAt, hrun.createdAt]
      · intro other hother
        rw [(hall other hother).createdAt, hrun.createdAt]
    rw [List.map_cons, newest, newest, hnewer, ih hrest]
    split_ifs <;> rfl

/-- An update that keeps what the list of alerts looks at. -/
theorem runAlert_update (hids : (db.runs.map RunRecord.runId).Nodup) {p : RunRecord → Bool}
    {f : RunRecord → RunRecord} (hruns : db'.runs = updateWhere p f db.runs)
    (hdaily : db'.dailyReports = db.dailyReports) (hpersonal : db'.personalRuns = db.personalRuns)
    (hf : ∀ run ∈ db.runs, p run = true → SameAlert run (f run)) :
    RunAlert db' scope date ↔ RunAlert db scope date := by
  have hrows : db'.runs = db.runs.map fun run => if p run then f run else run := hruns
  have hsame : ∀ run ∈ db.runs, SameAlert run (if p run then f run else run) := by
    intro run hrun
    split_ifs with hpass
    · exact hf run hrun hpass
    · exact ⟨rfl, rfl, rfl, rfl, rfl, Iff.rfl, Iff.rfl⟩
  have hstands : ∀ run ∈ db.runs, (Stands db' (if p run then f run else run) ↔ Stands db run) := by
    intro run hrun
    have h := hsame run hrun
    unfold Stands
    rw [hpersonal, isCurrent_congr hdaily, published_congr hdaily, h.runId, h.targetDate, ne_eq,
      h.superseded, hrows, newest_map _ _ hsame hsame]
    -- a row of the update is the row of one run
    have hmem : (if p run then f run else run) ∈ (newest db.runs db.runs).map
        (fun run => if p run then f run else run) ↔ run ∈ newest db.runs db.runs := by
      constructor
      · intro hrow
        obtain ⟨other, hother, heq⟩ := List.mem_map.1 hrow
        have hthere : other ∈ db.runs := newest_subset hother
        have hid : other.runId = run.runId := by
          rw [← (hsame other hthere).runId, ← h.runId, heq]
        rwa [← List.inj_on_of_nodup_map hids hthere hrun hid]
      · exact fun hrow => List.mem_map_of_mem hrow
    rw [hmem]
  rw [runAlert_iff, runAlert_iff]
  constructor
  · rintro ⟨row, hrow, hreport, hstand, hreasons⟩
    rw [hrows] at hrow
    obtain ⟨run, hrun, rfl⟩ := List.mem_map.1 hrow
    have h := hsame run hrun
    refine ⟨run, hrun, ?_, (hstands run hrun).1 hstand, h.reasons.1 hreasons⟩
    simpa only [reportOf, h.scopeId, h.targetDate, h.runKind] using hreport
  · rintro ⟨run, hrun, hreport, hstand, hreasons⟩
    have h := hsame run hrun
    refine ⟨_, hrows ▸ List.mem_map_of_mem hrun, ?_, (hstands run hrun).2 hstand, h.reasons.2 hreasons⟩
    simpa only [reportOf, h.scopeId, h.targetDate, h.runKind] using hreport

end Standing

/-! ### Aging -/

/-- What a compaction relies on, from run to run. -/
structure AlertReady (db : Db) : Prop where
  ids_nodup : (db.runs.map RunRecord.runId).Nodup
  current : ∀ run ∈ db.runs, db.isCurrent run.runId = true → run.phase = .published
  inv : AlertInv db

theorem AlertReady.of_calms {db db' : Db} (h : AlertReady db) (hcalms : Calms db db')
    (hinv : AlertInv db') : AlertReady db' where
  ids_nodup := h.ids_nodup.sublist hcalms.ids
  current run' hrun' hcurrent := by
    obtain ⟨run, hrun, hquiet⟩ := hcalms.rows run' hrun'
    rw [hcalms.isCurrent_eq, hquiet.runId] at hcurrent
    have hphase := h.current run hrun hcurrent
    exact (hquiet.committed (.inr hphase)).1.trans hphase
  inv := hinv

section Aging

variable [Chrono] {db : Db} {run : RunRecord} {now : ℤ} {present : Text → Bool} {scope date : Text}

theorem AlertRow.aged (h : AlertRow db run) : AlertRow db (run.aged now present) := by
  unfold RunRecord.aged
  split_ifs
  · exact h.of_columns rfl rfl rfl rfl rfl rfl rfl (fun hrunning => by cases hrunning) fun _ => .inl rfl
  · exact h.of_columns rfl rfl rfl rfl rfl rfl rfl h.running fun hnot => .inr ⟨hnot, rfl⟩
  · exact h

/-- A run that gives up stays listed. -/
theorem AlertRow.sameAlert_aged (h : AlertRow db run) : SameAlert run (run.aged now present) := by
  unfold RunRecord.aged
  split_ifs with hexpired hrunning
  · simp only [stillRunning, Bool.and_eq_true, decide_eq_true_eq] at hrunning
    refine ⟨rfl, rfl, rfl, rfl, rfl, ?_, ?_⟩
    · have hcode : lit "PERSONAL_INPUT_EXPIRED" ≠ runSuperseded := by decide +kernel
      exact ⟨fun heq => absurd (Option.some.inj heq) hcode, fun heq => absurd heq (h.running hrunning.1)⟩
    · unfold runReasons
      have hreport : (run.dropInput.expire now).reportJson = run.reportJson := rfl
      rw [hreport]
      cases run.reportJson <;> simp
  · exact ⟨rfl, rfl, rfl, rfl, rfl, Iff.rfl, Iff.rfl⟩
  · exact ⟨rfl, rfl, rfl, rfl, rfl, Iff.rfl, Iff.rfl⟩

/-- Aging updates the row of the run. -/
theorem expireInput_runs (hids : (db.runs.map RunRecord.runId).Nodup) (hrun : run ∈ db.runs) :
    (expireInput now present db run).runs =
      updateWhere (ofRun run.runId) (RunRecord.aged now present) db.runs := by
  have hone : ∀ row ∈ db.runs, ofRun run.runId row = true → row = run := fun row hrow hid =>
    List.inj_on_of_nodup_map hids hrow hrun (ofRun_eq_true.1 hid)
  have hself : ofRun run.runId run = true := ofRun_eq_true.2 rfl
  have hdropped : ofRun run.runId run.dropInput = true := ofRun_eq_true.2 rfl
  unfold expireInput
  split_ifs with hexpired hrunning
  · simp only [Db.updateRun, updateWhere, List.map_map]
    refine List.map_congr_left fun row hrow => ?_
    by_cases hid : ofRun run.runId row = true
    · rw [hone row hrow hid]
      simp only [Function.comp_apply, hself, hdropped, if_true, RunRecord.aged, hexpired, hrunning]
    · simp only [Function.comp_apply, hid, Bool.false_eq_true, if_false]
  · simp only [Db.updateRun, updateWhere]
    refine List.map_congr_left fun row hrow => ?_
    by_cases hid : ofRun run.runId row = true
    · rw [hone row hrow hid]
      simp only [hself, if_true, RunRecord.aged, hexpired, hrunning, Bool.false_eq_true, if_false]
    · simp only [hid, Bool.false_eq_true, if_false]
  · refine Eq.symm ((List.map_congr_left fun row hrow => ?_).trans (List.map_id _))
    by_cases hid : ofRun run.runId row = true
    · rw [hone row hrow hid]
      simp only [hself, if_true, RunRecord.aged, hexpired, Bool.false_eq_true, if_false, id_eq]
    · simp only [hid, Bool.false_eq_true, if_false, id_eq]

theorem expireInput_same (now : ℤ) (present : Text → Bool) (db : Db) (run : RunRecord) :
    (expireInput now present db run).dailyReports = db.dailyReports ∧
      (expireInput now present db run).personalRuns = db.personalRuns := by
  unfold expireInput
  split_ifs <;> exact ⟨rfl, rfl⟩

theorem expireInput_ready (h : AlertReady db) (hrun : run ∈ db.runs) :
    AlertReady (expireInput now present db run) := by
  have hbooks := expireInput_books now present db run
  refine h.of_calms (expireInput_calms h.ids_nodup hrun) ?_
  exact h.inv.of_update (expireInput_runs h.ids_nodup hrun) (expireInput_same now present db run).1
    hbooks.compacted hbooks.summaries fun row _ _ hrow => hrow.aged

omit [Chrono] in
theorem failureAlert_congr {db db' : Db} (hdaily : db'.dailyReports = db.dailyReports)
    (hsummaries : db'.summaries = db.summaries) :
    FailureAlert db' scope date ↔ FailureAlert db scope date := by
  unfold FailureAlert failureSummaries
  rw [hsummaries, published_congr hdaily]

/-- Aging leaves the alerts alone. -/
theorem expireInput_alerted (h : AlertReady db) (hrun : run ∈ db.runs) :
    Alerted (expireInput now present db run) scope date ↔ Alerted db scope date := by
  obtain ⟨hdaily, hpersonal⟩ := expireInput_same now present db run
  refine or_congr ?_ (failureAlert_congr hdaily (expireInput_books now present db run).summaries)
  refine runAlert_update h.ids_nodup (expireInput_runs h.ids_nodup hrun) hdaily hpersonal ?_
  intro row hrow _
  exact (h.inv.rows row hrow).sameAlert_aged

end Aging

/-! ### The summary of a failure -/

section Summary

variable [Chrono] {db : Db} {run : RunRecord} {scope date : Text}

/-- Counting a run that has failed leaves a failure. -/
theorem count_lastFailure (run : RunRecord) {summary : PersonalSummary}
    (h : summary.lastFailureAt.isSome → summary.lastFailure.isSome) :
    ((summary.count run).lastFailure.isSome ↔ summary.lastFailure.isSome ∨ run.errorCode.isSome) ∧
      ((summary.count run).lastFailureAt.isSome → (summary.count run).lastFailure.isSome) := by
  unfold PersonalSummary.count
  cases hcode : run.errorCode with
  | none => simpa using h
  | some code =>
    dsimp only
    split_ifs with hlast
    · simp
    · have hsome : summary.lastFailureAt.isSome := by
        cases hat : summary.lastFailureAt with
        | none => simp [hat] at hlast
        | some time => rfl
      simp [h hsome]

theorem keepLast_lastFailure (run : RunRecord) (summary : PersonalSummary) :
    (summary.keepLast run).lastFailure = summary.lastFailure ∧
      (summary.keepLast run).lastFailureAt = summary.lastFailureAt := by
  unfold PersonalSummary.keepLast
  split_ifs <;> exact ⟨rfl, rfl⟩

omit [Chrono] in
theorem priorSummary_lastFailure (h : AlertInv db) (run : RunRecord) :
    (priorSummary db run).lastFailureAt.isSome → (priorSummary db run).lastFailure.isSome := by
  unfold priorSummary
  cases hfind : db.summaries.find? (summaryOf run) with
  | none => simp [PersonalSummary.new]
  | some summary => exact h.failures summary (List.mem_of_find?_eq_some hfind)

/-- The summary of a run that is compacted for the first time. -/
theorem summarize_lastFailure (h : AlertInv db) (run : RunRecord) :
    (run.runId ∉ db.compacted → ((summarize db run).lastFailure.isSome ↔
        (priorSummary db run).lastFailure.isSome ∨ run.errorCode.isSome)) ∧
      ((summarize db run).lastFailureAt.isSome → (summarize db run).lastFailure.isSome) := by
  have hlast := priorSummary_lastFailure h run
  have hcount := count_lastFailure run hlast
  unfold summarize
  dsimp only
  split_ifs with hcurrent hmark hmark
  all_goals simp only [(keepLast_lastFailure run _).1, (keepLast_lastFailure run _).2]
  · exact ⟨fun hnot => absurd hmark hnot, hlast⟩
  · exact ⟨fun _ => hcount.1, hcount.2⟩
  · exact ⟨fun hnot => absurd hmark hnot, hlast⟩
  · exact ⟨fun _ => hcount.1, hcount.2⟩

omit [Chrono] in
/-- The summary of the scope and date of a run before the run. -/
theorem priorSummary_iff (h : AlertInv db) (run : RunRecord) :
    (priorSummary db run).lastFailure.isSome ↔
      ∃ summary ∈ db.summaries, summaryOf run summary = true ∧ summary.lastFailure.isSome := by
  have hprior : (priorSummary db run).lastFailure =
      ((db.summaries.find? (summaryOf run)).getD (PersonalSummary.new run)).lastFailure := rfl
  rw [hprior]
  constructor
  · intro hsome
    cases hfind : db.summaries.find? (summaryOf run) with
    | none => simp [hfind, PersonalSummary.new] at hsome
    | some summary =>
      rw [hfind, Option.getD_some] at hsome
      exact ⟨summary, List.mem_of_find?_eq_some hfind, List.find?_some hfind, hsome⟩
  · rintro ⟨summary, hmem, hof, hsome⟩
    have hkey : summaryOf run = fun other => decide (other.key = summary.key) := by
      obtain ⟨hscope, hdate⟩ := of_decide_eq_true hof
      funext other
      simp only [summaryOf, PersonalSummary.key, Prod.mk.injEq, hscope, hdate]
    rw [hkey, ← List.head?_filter, filter_key_eq_singleton h.summaries_nodup hmem]
    exact hsome

omit [Chrono] in
theorem failureAlert_iff : FailureAlert db scope date ↔
    db.published date = false ∧ ∃ summary ∈ db.summaries, summary.targetDate = date ∧
      like (summaryPattern scope) (summaryKey summary.scopeId date) = true ∧
        summary.lastFailure.isSome := by
  simp only [FailureAlert, failureSummaries, List.mem_filter, Bool.and_eq_true, Bool.not_eq_true']
  constructor
  · rintro ⟨summary, ⟨hmem, ⟨hlike, hfailed⟩, hdate⟩, rfl⟩
    exact ⟨hdate, summary, hmem, rfl, hlike, hfailed⟩
  · rintro ⟨hdate, summary, hmem, rfl, hlike, hfailed⟩
    exact ⟨summary, ⟨hmem, ⟨hlike, hfailed⟩, hdate⟩, rfl⟩

/-- A failure that compaction keeps in a summary of the scope. -/
def Recorded (scope : Text) (run : RunRecord) : Prop :=
  run.errorCode.isSome ∧ like (summaryPattern scope) (summaryKey run.scopeId run.targetDate) = true

instance (scope : Text) (run : RunRecord) : Decidable (Recorded scope run) := by
  unfold Recorded
  infer_instance

theorem compactDetails_summaries (db : Db) (run : RunRecord) :
    (compactDetails db run).summaries =
      deleteWhere (summaryOf run) db.summaries ++ [summarize db run] ∧
      (compactDetails db run).dailyReports = db.dailyReports := by
  unfold compactDetails
  split_ifs <;> exact ⟨rfl, rfl⟩

/-- Compacting the details of a run adds its failure to those of its date. -/
theorem compactDetails_failureAlert (h : AlertInv db) {run : RunRecord}
    (hmark : db.published run.targetDate = false → run.runId ∉ db.compacted) :
    FailureAlert (compactDetails db run) scope date ↔ FailureAlert db scope date ∨
      run.targetDate = date ∧ db.published date = false ∧ Recorded scope run := by
  obtain ⟨hsummaries, hdaily⟩ := compactDetails_summaries db run
  obtain ⟨hscope, hdate⟩ := summarize_key db run
  rw [failureAlert_iff, failureAlert_iff, hsummaries, published_congr hdaily]
  constructor
  · rintro ⟨hunpublished, summary, hmem, rfl, hlike, hfailed⟩
    rcases List.mem_append.1 hmem with hmem | hmem
    · exact .inl ⟨hunpublished, summary, (mem_deleteWhere.1 hmem).1, rfl, hlike, hfailed⟩
    · rw [List.mem_singleton.1 hmem] at hunpublished hlike hfailed ⊢
      rw [hdate] at hunpublished hlike ⊢
      rw [hscope] at hlike
      rcases ((summarize_lastFailure h run).1 (hmark hunpublished)).1 hfailed with hprior | hcode
      · obtain ⟨prior, hprior, hof, hfailed⟩ := (priorSummary_iff h run).1 hprior
        obtain ⟨hpriorScope, hpriorDate⟩ := of_decide_eq_true hof
        exact .inl ⟨hunpublished, prior, hprior, hpriorDate, hpriorScope ▸ hlike, hfailed⟩
      · exact .inr ⟨rfl, hunpublished, hcode, hlike⟩
  · rintro (⟨hunpublished, summary, hmem, rfl, hlike, hfailed⟩ | ⟨rfl, hunpublished, hcode, hlike⟩)
    · refine ⟨hunpublished, ?_⟩
      by_cases hof : summaryOf run summary = true
      · obtain ⟨hsameScope, hsameDate⟩ := of_decide_eq_true hof
        refine ⟨summarize db run, by simp, hdate.trans hsameDate.symm, ?_, ?_⟩
        · rw [hscope, ← hsameScope]
          exact hlike
        · rw [hsameDate] at hunpublished
          refine ((summarize_lastFailure h run).1 (hmark hunpublished)).2 (.inl ?_)
          exact (priorSummary_iff h run).2 ⟨summary, hmem, hof, hfailed⟩
      · refine ⟨summary, List.mem_append_left _ ?_, rfl, hlike, hfailed⟩
        exact mem_deleteWhere.2 ⟨hmem, by simpa using hof⟩
    · refine ⟨hunpublished, summarize db run, by simp, hdate, ?_, ?_⟩
      · rw [hscope]
        exact hlike
      · exact ((summarize_lastFailure h run).1 (hmark hunpublished)).2 (.inr hcode)

end Summary

/-! ### Compaction -/

section Compaction

variable [Chrono] {db : Db} {run : RunRecord} {now : ℤ} {present : Text → Bool} {scope date : Text}

/-- A run that is deleted and not looked at is not missed. -/
theorem compactDetails_runAlert (h : AlertReady db) (hrun : run ∈ db.runs)
    (hstands : db.isCurrent run.runId = false → reportOf scope date run = true →
      db.published date = true) :
    RunAlert (compactDetails db run) scope date ↔ RunAlert db scope date := by
  have hone : ∀ row ∈ db.runs, ofRun run.runId row = true → row = run := fun row hrow hid =>
    List.inj_on_of_nodup_map h.ids_nodup hrow hrun (ofRun_eq_true.1 hid)
  have hdaily := (compactDetails_summaries db run).2
  cases hcurrent : db.isCurrent run.runId with
  | true =>
    -- the published run of a date gives up its input, no more
    have hruns : (compactDetails db run).runs =
        updateWhere (ofRun run.runId) RunRecord.dropInput db.runs := by
      simp only [compactDetails, hcurrent, if_true, Db.updateRun]
    have hpersonal : (compactDetails db run).personalRuns = db.personalRuns := by
      simp only [compactDetails, hcurrent, if_true, Db.updateRun]
    exact runAlert_update h.ids_nodup hruns hdaily hpersonal fun row _ _ =>
      ⟨rfl, rfl, rfl, rfl, rfl, Iff.rfl, Iff.rfl⟩
  | false =>
    have hruns : (compactDetails db run).runs = deleteWhere (ofRun run.runId) db.runs := by
      simp only [compactDetails, hcurrent, Bool.false_eq_true, if_false]
    have hpersonal : (compactDetails db run).personalRuns =
        db.personalRuns.filter (· ≠ run.runId) := by
      simp only [compactDetails, hcurrent, Bool.false_eq_true, if_false]
    have hkept : ∀ row ∈ db.runs, row ≠ run →
        (row.runId ∈ (compactDetails db run).personalRuns ↔ row.runId ∈ db.personalRuns) := by
      intro row hrow hne
      have hid : row.runId ≠ run.runId := fun hid => hne (hone row hrow (ofRun_eq_true.2 hid))
      rw [hpersonal, List.mem_filter, decide_eq_true_eq]
      exact and_iff_left hid
    by_cases hreport : reportOf scope date run = true
    · -- only the published run of the date is looked at
      have hpublished := hstands hcurrent hreport
      have hother : ∀ row ∈ db.runs, row ≠ run → reportOf scope date row = true →
          (Stands (compactDetails db run) row ↔ Stands db row) := by
        intro row hrow hne hrowReport
        have hdate : row.targetDate = date := (of_decide_eq_true hrowReport).2.1
        unfold Stands
        rw [hkept row hrow hne, isCurrent_congr hdaily, published_congr hdaily, hdate, hpublished]
        simp
      rw [runAlert_iff, runAlert_iff, hruns]
      constructor
      · rintro ⟨row, hrow, hrowReport, hstand, hreasons⟩
        obtain ⟨hrow, hid⟩ := mem_deleteWhere.1 hrow
        have hne : row ≠ run := fun heq => of_decide_eq_false hid (heq ▸ rfl)
        exact ⟨row, hrow, hrowReport, (hother row hrow hne hrowReport).1 hstand, hreasons⟩
      · rintro ⟨row, hrow, hrowReport, hstand, hreasons⟩
        have hne : row ≠ run := by
          rintro rfl
          rcases hstand.2 with hrowCurrent | ⟨hunpublished, -⟩
          · rw [hcurrent] at hrowCurrent
            exact Bool.false_ne_true hrowCurrent
          · rw [(of_decide_eq_true hrowReport).2.1, hpublished] at hunpublished
            exact Bool.false_ne_true hunpublished.symm
        refine ⟨row, mem_deleteWhere.2 ⟨hrow, ?_⟩, hrowReport, (hother row hrow hne hrowReport).2 hstand,
          hreasons⟩
        exact decide_eq_false fun hid => hne (hone row hrow (ofRun_eq_true.2 hid))
    · refine runAlert_congr hdaily ?_ fun row hrow hrowReport => hkept row hrow ?_
      · rw [hruns]
        refine filter_deleteWhere_of_not fun row hrow hid => ?_
        rw [hone row hrow hid]
        exact Bool.eq_false_iff.2 hreport
      · rintro rfl
        exact hreport hrowReport

/-- **What compacting a run does to the list**: a failure in a date that was not published is listed
afterwards, and nothing else changes. -/
theorem compactDetails_alerted (h : AlertReady db) (hrun : run ∈ db.runs)
    (hended : run.status ≠ .running) :
    Alerted (compactDetails db run) scope date ↔ Alerted db scope date ∨
      run.targetDate = date ∧ db.published date = false ∧ Recorded scope run := by
  have hrow := h.inv.rows run hrun
  have hmark : db.published run.targetDate = false → run.runId ∉ db.compacted := by
    intro hunpublished hcompacted
    rw [hrow.published (.inr hcompacted)] at hunpublished
    exact Bool.false_ne_true hunpublished.symm
  unfold Alerted
  rw [compactDetails_failureAlert h.inv hmark]
  by_cases hstands : reportOf scope date run = true → db.published date = true
  · rw [compactDetails_runAlert h hrun fun _ => hstands, or_assoc]
  · -- a report that has failed, in a date that was not published
    obtain ⟨hreport, hunpublished⟩ := Classical.not_imp.1 hstands
    have hunpublished := Bool.eq_false_iff.2 hunpublished
    obtain ⟨rfl, rfl, hkind⟩ := of_decide_eq_true hreport
    have hrecorded : Recorded run.scopeId run := by
      refine ⟨(hrow.ended hkind hended).resolve_right fun hphase => ?_, ?_⟩
      · rw [hrow.published (.inl hphase)] at hunpublished
        exact Bool.false_ne_true hunpublished.symm
      · exact like_append _ _
    constructor
    · intro _
      exact .inr ⟨rfl, hunpublished, hrecorded⟩
    · intro _
      exact .inr (.inr ⟨rfl, hunpublished, hrecorded⟩)

theorem compactDetails_compacted {id : Text} (h : id ∈ (compactDetails db run).compacted) :
    id ∈ db.compacted ∨ id = run.runId := by
  unfold compactDetails at h
  split_ifs at h
  · exact .inl h
  · simpa using h
  · exact .inl (List.mem_filter.1 h).1

theorem compactDetails_ready (h : AlertReady db) (run : RunRecord) :
    AlertReady (compactDetails db run) := by
  obtain ⟨hsummaries, hdaily⟩ := compactDetails_summaries db run
  obtain ⟨hscope, hdate⟩ := summarize_key db run
  refine h.of_calms compactDetails_calms ⟨fun row hrow => ?_, ?_, ?_⟩
  · rcases mem_compactDetails hrow with ⟨hrow, hne⟩ | ⟨old, hold, hid, hcurrent, rfl⟩
    · have hinv := h.inv.rows row hrow
      refine ⟨hinv.running, hinv.staged, hinv.ended, fun hpublished => ?_⟩
      rw [published_congr hdaily]
      refine hinv.published (hpublished.imp (fun hphase => hphase) fun hcompacted => ?_)
      exact (compactDetails_compacted hcompacted).resolve_right hne
    · have hinv := h.inv.rows old hold
      refine ⟨hinv.running, hinv.staged, hinv.ended, fun _ => ?_⟩
      rw [published_congr hdaily]
      exact hinv.published (.inl (h.current old hold (hid ▸ hcurrent)))
  · rw [hsummaries, List.map_append, List.nodup_append]
    refine ⟨h.inv.summaries_nodup.sublist ((deleteWhere_sublist _ _).map _), by simp, ?_⟩
    intro key hkey other hother
    obtain ⟨summary, hsummary, rfl⟩ := List.mem_map.1 hkey
    rw [List.map_singleton, List.mem_singleton] at hother
    rintro rfl
    obtain ⟨hsameScope, hsameDate⟩ := Prod.mk.inj hother
    refine of_decide_eq_false (mem_deleteWhere.1 hsummary).2 ⟨?_, ?_⟩
    · exact hsameScope.trans hscope
    · exact hsameDate.trans hdate
  · intro summary hsummary
    rw [hsummaries, List.mem_append, List.mem_singleton] at hsummary
    rcases hsummary with hsummary | rfl
    · exact h.inv.failures summary (mem_deleteWhere.1 hsummary).1
    · exact (summarize_lastFailure h.inv run).2

/-- A run that a compaction handles leaves its failure in a summary of the scope. -/
def leavesFailure (now : ℤ) (present : Text → Bool) (scope : Text) (seen : ℕ × RunRecord) : Bool :=
  !sparesRun now seen.1 (seen.2.aged now present) && decide (Recorded scope (seen.2.aged now present))

/-- What handling runs does to the list: their failures are listed afterwards, in the dates that were
not published. -/
structure Handles (now : ℤ) (present : Text → Bool) (scope : Text) (seen : List (ℕ × RunRecord))
    (db db' : Db) : Prop where
  ready : AlertReady db'
  daily : db'.dailyReports = db.dailyReports
  alerted : ∀ date, Alerted db' scope date ↔ Alerted db scope date ∨
    db.published date = false ∧
      ∃ one ∈ seen, one.2.targetDate = date ∧ leavesFailure now present scope one = true

theorem Handles.refl (h : AlertReady db) : Handles now present scope [] db db :=
  ⟨h, rfl, fun _ => by simp⟩

theorem Handles.trans {db' db'' : Db} {seen seen' : List (ℕ × RunRecord)}
    (h : Handles now present scope seen db db') (h' : Handles now present scope seen' db' db'') :
    Handles now present scope (seen ++ seen') db db'' where
  ready := h'.ready
  daily := h'.daily.trans h.daily
  alerted date := by
    rw [h'.alerted, h.alerted, published_congr h.daily, or_assoc, ← and_or_left]
    simp only [List.mem_append, or_and_right, exists_or]

/-- A run that is handled ages, and its details are compacted unless it is spared. -/
theorem compactRun_handles (now : ℤ) (present : Text → Bool) (scope : Text) (c : Compaction)
    (h : AlertReady c.db) (hrun : run ∈ c.db.runs) :
    Handles now present scope [(c.detail, run)] c.db (compactRun now present c run).db := by
  have hready : AlertReady (expireInput now present c.db run) := expireInput_ready h hrun
  have hdaily := (expireInput_same now present c.db run).1
  obtain ⟨-, -, hdate, -⟩ := aged_columns now present run
  rw [compactRun_eq h.ids_nodup hrun]
  split_ifs with hspared
  · refine ⟨hready, hdaily, fun date => ?_⟩
    have hnone : leavesFailure now present scope (c.detail, run) = false := by
      simp [leavesFailure, hspared]
    simp [expireInput_alerted h hrun, hnone]
  · have hrow : run.aged now present ∈ (expireInput now present c.db run).runs :=
      (findRun_eq_some (findRun_expireInput h.ids_nodup present hrun)).1
    have hended : (run.aged now present).status ≠ .running := by
      intro hrunning
      simp [sparesRun, hrunning] at hspared
    refine ⟨compactDetails_ready hready _, ?_, fun date => ?_⟩
    · exact (compactDetails_summaries _ _).2.trans hdaily
    · have hleaves : leavesFailure now present scope (c.detail, run) = true ↔
          Recorded scope (run.aged now present) := by
        simp [leavesFailure, hspared]
      show Alerted (compactDetails _ _) scope date ↔ _
      rw [compactDetails_alerted hready hrow hended, expireInput_alerted h hrun, hdate,
        published_congr hdaily]
      simp only [List.mem_singleton, exists_eq_left, hleaves]
      exact or_congr_right and_left_comm

theorem compactBatch_handles (now : ℤ) (present : Text → Bool) (scope : Text) (ticks : ℕ)
    (ids : List Text) {c : Compaction} (h : AlertReady c.db) :
    Handles now present scope (batchSeen now present ticks ids c) c.db
      (compactBatch now present ticks ids c).2.db := by
  fun_induction compactBatch now present ticks ids c with
  | case1 ticks c =>
    rw [batchSeen]
    exact .refl h
  | case2 id ids c => exact .refl h
  | case3 ticks id ids c hnone =>
    simp only [batchSeen, hnone]
    exact .refl h
  | case4 ticks id ids c run hfound ih =>
    simp only [batchSeen, hfound]
    have hrun := compactRun_handles now present scope
      { c with cursor := (run.createdAt, run.runId) } h (findRun_eq_some hfound).1
    exact hrun.trans (ih hrun.ready)

theorem compactLoop_handles {fuel ticks : ℕ} {c : Compaction} (h : AlertReady c.db) :
    Handles now present scope (loopSeen now present fuel ticks c) c.db
      (compactLoop now present fuel ticks c) := by
  induction fuel generalizing ticks c with
  | zero => exact .refl h
  | succ fuel ih =>
    cases ticks with
    | zero => exact .refl h
    | succ ticks =>
      unfold compactLoop loopSeen
      cases hnext : nextBatch c with
      | nil => exact .refl h
      | cons id ids =>
        have hbatch := compactBatch_handles now present scope ticks (id :: ids) h
        dsimp only
        rcases hresult : compactBatch now present ticks (id :: ids) c with ⟨_ | left, c'⟩
        · rw [hresult] at hbatch
          rw [List.append_nil]
          exact hbatch
        · rw [hresult] at hbatch
          exact hbatch.trans (ih hbatch.ready)

theorem compactPersonal_handles (now : ℤ) (present : Text → Bool) (scope : Text) (ticks : ℕ)
    (h : AlertReady db) :
    Handles now present scope (compactionSeen db now present ticks) db
      (compactPersonal db now present ticks) :=
  compactLoop_handles (c := { db, detail := detailBytes db, cursor := ([], []) }) h

end Compaction

/-! ### Runs of the store -/

section Runs

variable [Chrono] [ReportRules] [Sha256]

/-- A run that is observed ends with neither a report nor an error. -/
def Event.observes : Event → Bool
  | .finishObservation .. => true
  | _ => false

/-- Every operation but an observation keeps what is known of the runs. -/
theorem AlertInv.step {s : System} {ledger : Ledger} (hchain : ChainInv s)
    (haccounts : Accounts s.created ledger s.db) (h : AlertInv s.db) {e : Event}
    (hobserves : e.observes = false) {db' : Db} (hop : operate s.db e = .ok db') : AlertInv db' := by
  have hids := hchain.store.ids_nodup
  cases e with
  | create context kind generationId reason now =>
    exact createRun_alerts h haccounts.tallied.marked hop
  | createPersonal context kind generationId reason now =>
    obtain ⟨_, -, hcreate⟩ := bind_eq_ok.1 hop
    exact createRun_alerts h haccounts.tallied.marked hcreate
  | registerPersonalRun id => exact registerPersonalRun_alerts h hop
  | setScanning id now => exact setScanning_alerts h hop
  | saveScanFailure id snapshot sources => exact saveScanFailure_alerts h hop
  | prepare id snapshot fingerprint sources now => exact prepare_alerts h hop
  | reserveCall input => exact reserveCall_alerts hids h hop
  | resume id now => exact resume_alerts h hop
  | fail id code cancelled now =>
    cases hop
    exact fail_alerts h
  | recoverInterrupted now =>
    cases hop
    exact recoverInterrupted_alerts h
  | stageReport id staged now => exact stageReport_alerts hids h hop
  | markPublished id verified now databaseNow =>
    exact markDailyPublished_alerts hids h (markPublished_eq_ok hchain.store hop)
  | finishPreview id report markdown now => exact finishPreview_alerts hids h hop
  | finishObservation id current now => cases hobserves
  | finishScanPreview id quality now => exact finishScanPreview_alerts h hop
  | finishModelCheck id result now => exact finishModelCheck_alerts h hop
  | compact now present ticks =>
    cases hop
    exact (compactPersonal_handles now present [] ticks
      ⟨hids, hchain.isCurrent_published, h⟩).ready.inv

theorem alertReady_runEvents (events : List Event) (hevents : ∀ e ∈ events, e.observes = false) :
    AlertReady (runEvents events).db := by
  have hinit : AlertInv System.init.db :=
    ⟨by simp [System.init, Db.empty], by simp [System.init, Db.empty], by simp [System.init, Db.empty]⟩
  have hinv : ChainInv (runAudited events).system ∧
      Accounts (runAudited events).system.created (runAudited events).ledger
        (runAudited events).system.db ∧ AlertInv (runAudited events).system.db := by
    refine applyAll_invariant_of (C := fun _ e => e.observes = false) (I := fun a : Audited =>
      ChainInv a.system ∧ Accounts a.system.created a.ledger a.system.db ∧ AlertInv a.system.db) ?_
      events _ ⟨chainInv_init, accounts_init, hinit⟩
      (allSteps_of_forall (fun e he _ => hevents e he) _)
    rintro a e a' ⟨hchain, haccounts, halerts⟩ hobserves hstep
    obtain ⟨system, hsystem, ha'⟩ := bind_eq_ok.1 hstep
    cases ha'
    obtain ⟨db', hop, hsame⟩ := step_eq_ok.1 hsystem
    refine ⟨hchain.step hsystem, haccounts.step hchain hsystem, ?_⟩
    show AlertInv system.db
    rw [hsame]
    exact halerts.step hchain haccounts hobserves hop
  obtain ⟨hchain, -, halerts⟩ := hinv
  rw [runAudited_system] at hchain halerts
  exact ⟨hchain.store.ids_nodup, hchain.isCurrent_published, halerts⟩

/-- **A compaction loses no alert**, in any state of any run; and it adds none exactly when every
failure that it leaves in a summary is of a date that is published or listed. -/
theorem alerts_kept_iff [Days] (events : List Event) (hevents : ∀ e ∈ events, e.observes = false)
    (now : ℤ) (present : Text → Bool) (ticks : ℕ) (scope : Text) (clock : ℤ) :
    (∀ date ∈ alertDates (runEvents events).db scope clock,
      date ∈ alertDates (compactPersonal (runEvents events).db now present ticks) scope clock) ∧
    ((∀ date, date ∈ alertDates (compactPersonal (runEvents events).db now present ticks) scope clock ↔
        date ∈ alertDates (runEvents events).db scope clock) ↔
      ∀ seen ∈ compactionSeen (runEvents events).db now present ticks,
        leavesFailure now present scope seen = true →
          (runEvents events).db.published seen.2.targetDate = true ∨
            seen.2.targetDate ∈ alertDates (runEvents events).db scope clock) := by
  have hhandles := compactPersonal_handles now present scope ticks (alertReady_runEvents events hevents)
  simp only [mem_alertDates, hhandles.alerted]
  refine ⟨fun date halerted => .inl halerted, ?_⟩
  constructor
  · intro hsame seen hseen hleaves
    by_cases hpublished : (runEvents events).db.published seen.2.targetDate = true
    · exact .inl hpublished
    · exact .inr ((hsame _).1 (.inr ⟨Bool.eq_false_iff.2 hpublished, seen, hseen, rfl, hleaves⟩))
  · intro hlisted date
    refine ⟨?_, .inl⟩
    rintro (halerted | ⟨hunpublished, seen, hseen, rfl, hleaves⟩)
    · exact halerted
    · rcases hlisted seen hseen hleaves with hpublished | halerted
      · rw [hpublished] at hunpublished
        exact absurd hunpublished.symm Bool.false_ne_true
      · exact halerted

end Runs

/-! ### A preview that has failed -/

section Preview

local instance alertsChrono : Chrono := utcClock
local instance alertsSha256 : Sha256 := markdownSha256
local instance alertsRules : ReportRules := noRules
local instance alertsDays : Days := shanghaiDays

/-- A personal run that fails. -/
def failedRun (kind : String) : List Event :=
  [.createPersonal (dayContext runA) (lit kind) runA none (dayInstant 36000),
    .fail runA (lit "MODEL_UNAVAILABLE") false (dayInstant 36060)]

/-- The instant of a compaction a month later. -/
def monthLater : ℤ := dayInstant 36000 + 31 * dayMicros

set_option maxRecDepth 10000 in
/-- A report that has failed stays listed. -/
theorem alerts_kept_failed :
    octoberDay ∈ alertDates (runEvents (failedRun "report")).db personalWork monthLater ∧
      ∀ date, date ∈ alertDates
          (compactPersonal (runEvents (failedRun "report")).db monthLater (fun _ => true) 100)
          personalWork monthLater ↔
        date ∈ alertDates (runEvents (failedRun "report")).db personalWork monthLater := by
  have hlisted : octoberDay ∈ alertDates (runEvents (failedRun "report")).db personalWork monthLater := by
    decide +kernel
  have hseen : ∀ seen ∈ compactionSeen (runEvents (failedRun "report")).db monthLater (fun _ => true) 100,
      seen.2.targetDate = octoberDay := by
    decide +kernel
  refine ⟨hlisted, ?_⟩
  refine (alerts_kept_iff (failedRun "report") (by simp [failedRun, Event.observes]) monthLater
    (fun _ => true) 100 personalWork monthLater).2.2 fun seen hmem _ => ?_
  rw [hseen seen hmem]
  exact .inr hlisted

set_option maxRecDepth 10000 in
/-- A preview that has failed is not listed before a compaction, and listed after it. -/
theorem alerts_added :
    ¬ ∀ (events : List Event) (now : ℤ) (present : Text → Bool) (ticks : ℕ) (date : Text),
      (∀ e ∈ events, e.observes = false) →
        (date ∈ alertDates (compactPersonal (runEvents events).db now present ticks) personalWork now ↔
          date ∈ alertDates (runEvents events).db personalWork now) := by
  intro hall
  have hbefore : octoberDay ∉ alertDates (runEvents (failedRun "preview")).db personalWork monthLater := by
    decide +kernel
  have hafter : octoberDay ∈ alertDates
      (compactPersonal (runEvents (failedRun "preview")).db monthLater (fun _ => true) 100)
      personalWork monthLater := by
    decide +kernel
  exact hbefore ((hall (failedRun "preview") monthLater (fun _ => true) 100 octoberDay
    (by simp [failedRun, Event.observes])).1 hafter)

end Preview

end DailyReport.Reports
