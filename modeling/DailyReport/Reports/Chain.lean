import DailyReport.Lib.Lineage
import DailyReport.Reports.Calm
import DailyReport.Reports.Clock

/-!
# The chain of publications

The published run of a date is replaced only by a run that was staged on it: publishing a run checks
that the date still has the run that it was staged on.  So the publications of a date form a lineage
(`ChainInv`), and, as no run is published twice (`FreshInv`), of the runs that were staged on one run
at most one is published.

* `ChainInv.step`, `FreshInv.step` : every operation keeps the invariants;
* `publication_chain` : what holds in every state of every run.
-/

namespace DailyReport.Reports

open Lib

/-! ### The row of a date -/

section Upsert

variable (row : DailyReportRow) (databaseNow updatedAt : Text) (rows : List DailyReportRow)

variable {row databaseNow updatedAt rows} in
theorem mem_upsertDaily {other : DailyReportRow}
    (h : other ∈ upsertDaily row databaseNow updatedAt rows) :
    (∃ time, other = { row with updatedAt := time }) ∨ other ∈ rows ∧ other.date ≠ row.date := by
  unfold upsertDaily at h
  split_ifs at h with hany
  · rcases mem_updateWhere.1 h with ⟨hother, hdate⟩ | ⟨_, -, -, rfl⟩
    · exact .inr ⟨hother, of_decide_eq_false hdate⟩
    · exact .inl ⟨updatedAt, rfl⟩
  · rcases List.mem_append.1 h with hother | hother
    · refine .inr ⟨hother, fun hdate => hany ?_⟩
      exact List.any_eq_true.2 ⟨other, hother, decide_eq_true hdate⟩
    · exact .inl ⟨databaseNow, List.mem_singleton.1 hother⟩

variable {rows} in
theorem upsertDaily_dates_nodup (h : (rows.map DailyReportRow.date).Nodup) :
    ((upsertDaily row databaseNow updatedAt rows).map DailyReportRow.date).Nodup := by
  unfold upsertDaily
  split_ifs with hany
  · have hdates : (updateWhere (fun other => decide (other.date = row.date))
        (fun _ => { row with updatedAt }) rows).map DailyReportRow.date =
        rows.map DailyReportRow.date := by
      simp only [updateWhere, List.map_map]
      refine List.map_congr_left fun other _ => ?_
      by_cases hdate : other.date = row.date <;> simp [hdate]
    rw [hdates]
    exact h
  · rw [List.map_append, List.map_singleton, List.nodup_append]
    refine ⟨h, by simp, ?_⟩
    intro date hdate other hother
    rw [List.mem_singleton.1 hother]
    rintro rfl
    obtain ⟨existing, hexisting, hsame⟩ := List.mem_map.1 hdate
    exact hany (List.any_eq_true.2 ⟨existing, hexisting, decide_eq_true hsame⟩)

theorem exists_mem_upsertDaily :
    ∃ time, { row with updatedAt := time } ∈ upsertDaily row databaseNow updatedAt rows := by
  unfold upsertDaily
  split_ifs with hany
  · obtain ⟨other, hother, hdate⟩ := List.any_eq_true.1 hany
    exact ⟨updatedAt, mem_updateWhere.2 (.inr ⟨other, hother, hdate, rfl⟩)⟩
  · exact ⟨databaseNow, by simp⟩

variable {row} in
/-- The row of another date stays. -/
theorem find?_upsertDaily_of_ne {date : Text} (hdate : date ≠ row.date) :
    (upsertDaily row databaseNow updatedAt rows).find? (fun other => decide (other.date = date)) =
      rows.find? fun other => decide (other.date = date) := by
  unfold upsertDaily
  split_ifs
  · refine find?_updateWhere_of_not fun other hother => ?_
    rw [of_decide_eq_true hother]
    simp [hdate.symm]
  · simp [List.find?_append, hdate.symm]

end Upsert

/-! ### The invariant -/

section Invariant

variable [Sha256]

/-- Every date has a published run, every staged run is in the log, and the publications of a date
are a lineage, which ends at its published run. -/
structure ChainInv (s : System) : Prop where
  store : StoreInv s.db
  dates : (s.db.dailyReports.map DailyReportRow.date).Nodup
  daily : ∀ row ∈ s.db.dailyReports, ∃ run ∈ s.db.runs,
    row.currentRunId = some run.runId ∧ run.targetDate = row.date ∧ run.phase = .published
  committed : ∀ run ∈ s.db.runs, run.Committed → run.revision ∈ s.stagings
  staged : ∀ revision ∈ s.publications, revision ∈ s.stagings
  lineage : ∀ date, Lineage none (s.publishedFor date)
  last : ∀ date, s.db.currentRunId date = lastRevision none (s.publishedFor date)

omit [Sha256] in
theorem Quiet.revision_eq {run run' : RunRecord} (h : Quiet run run') (hcommitted : run.Committed) :
    run'.revision = run.revision := by
  simp only [RunRecord.revision, h.runId, h.targetDate, (h.committed hcommitted).2.2.2.2]

omit [Sha256] in
theorem Calms.currentRunId_eq {db db' : Db} (h : Calms db db') (date : Text) :
    db'.currentRunId date = db.currentRunId date := by
  simp only [Db.currentRunId, h.daily]

variable {s : System}

/-- A quiet operation. -/
theorem ChainInv.calms (h : ChainInv s) {db : Db} (hcalms : Calms s.db db) :
    ChainInv { s with db } where
  store := h.store.calms hcalms
  dates := by
    rw [hcalms.daily]
    exact h.dates
  daily row hrow := by
    rw [hcalms.daily] at hrow
    obtain ⟨run, hrun, hid, hdate, hphase⟩ := h.daily row hrow
    have hcurrent : s.db.isCurrent run.runId = true :=
      List.any_eq_true.2 ⟨row, hrow, decide_eq_true hid⟩
    obtain ⟨run', hrun', hquiet⟩ := hcalms.kept run hrun hcurrent
    exact ⟨run', hrun', by rw [hid, hquiet.runId], hquiet.targetDate.trans hdate,
      (hquiet.committed (.inr hphase)).1.trans hphase⟩
  committed run' hrun' hcommitted := by
    obtain ⟨run, hrun, hquiet⟩ := hcalms.rows run' hrun'
    have hbefore := hquiet.committed_iff.1 hcommitted
    rw [hquiet.revision_eq hbefore]
    exact h.committed run hrun hbefore
  staged := h.staged
  lineage := h.lineage
  last date := (hcalms.currentRunId_eq date).trans (h.last date)

/-- The published run of a date is there. -/
theorem ChainInv.current (h : ChainInv s) {date id : Text} (hid : s.db.currentRunId date = some id) :
    ∃ run, s.db.findRun id = some run ∧ run.runId = id ∧ run.phase = .published := by
  obtain ⟨row, hrow, -, hcurrent⟩ := currentRunId_eq_some hid
  obtain ⟨run, hrun, hrunId, -, hphase⟩ := h.daily row hrow
  have heq : run.runId = id := Option.some.inj (hrunId.symm.trans hcurrent)
  exact ⟨run, heq ▸ findRun_of_mem h.store.ids_nodup hrun, heq, hphase⟩

/-- A run is staged on the published run of its date. -/
theorem ChainInv.previousRevision_eq (h : ChainInv s) {date : Text} {previous : Option (Text × Text)}
    (hprevious : previousRevision s.db date = .ok previous) :
    previous.map Prod.fst = s.db.currentRunId date := by
  unfold previousRevision at hprevious
  cases hcurrent : s.db.currentRunId date with
  | none =>
    simp only [hcurrent, Option.bind_none, Except.ok.injEq] at hprevious
    rw [← hprevious]
    rfl
  | some id =>
    obtain ⟨run, hfind, hid, -⟩ := h.current hcurrent
    simp only [hcurrent, Option.bind_some, hfind] at hprevious
    cases hsha : run.expectedSha256 with
    | none => simp [hsha] at hprevious
    | some sha =>
      simp only [hsha, Except.ok.injEq] at hprevious
      rw [← hprevious, ← hid]
      rfl

omit [Sha256] in
/-- A row that an update of another run leaves alone. -/
theorem mem_updateRun_of_ne {run : RunRecord} {rows : List RunRecord} (hrun : run ∈ rows) {id : Text}
    (hne : run.runId ≠ id) (f : RunRecord → RunRecord) : run ∈ updateWhere (ofRun id) f rows :=
  mem_updateWhere_of_not hrun (decide_eq_false hne)

/-- An update keeps the ids. -/
theorem StoreInv.updateRun_nodup {db : Db} (h : StoreInv db) (id : Text) (f : RunRecord → RunRecord)
    (hid : ∀ run, (f run).runId = run.runId) :
    ((db.updateRun id f).runs.map RunRecord.runId).Nodup := by
  show ((updateWhere _ f db.runs).map RunRecord.runId).Nodup
  rw [map_updateWhere _ hid]
  exact h.ids_nodup

/-- Updating a run that is not published, with a new row for it. -/
theorem ChainInv.update (h : ChainInv s) {run : RunRecord} (hrun : run ∈ s.db.runs)
    (hphase : run.phase ≠ .published) {f : RunRecord → RunRecord}
    (hid : ∀ other, (f other).runId = other.runId) (hrow : RowInv (f run)) :
    StoreInv (s.db.updateRun run.runId f) ∧
      ∀ row ∈ s.db.dailyReports, ∃ other ∈ (s.db.updateRun run.runId f).runs,
        row.currentRunId = some other.runId ∧ other.targetDate = row.date ∧
          other.phase = .published := by
  refine ⟨⟨?_, ?_⟩, ?_⟩
  · exact h.store.updateRun_nodup run.runId f hid
  · intro row hmem
    rcases mem_updateWhere.1 hmem with ⟨hmem, -⟩ | ⟨old, hold, hpass, rfl⟩
    · exact h.store.rows row hmem
    · rw [h.store.eq_of_id hold hrun (ofRun_eq_true.1 hpass)]
      exact hrow
  · intro row hmem
    obtain ⟨other, hother, hcurrent, hdate, hpublished⟩ := h.daily row hmem
    refine ⟨other, mem_updateRun_of_ne hother ?_ f, hcurrent, hdate, hpublished⟩
    intro hsame
    rw [h.store.eq_of_id hother hrun hsame] at hpublished
    exact hphase hpublished

/-- The rows that are staged after an update of a run. -/
theorem ChainInv.committed_update (h : ChainInv s) {run : RunRecord} (hrun : run ∈ s.db.runs)
    {f : RunRecord → RunRecord} {stagings : List Revision} (hstagings : s.stagings ⊆ stagings)
    (hrow : (f run).revision ∈ stagings) :
    ∀ row ∈ (s.db.updateRun run.runId f).runs, row.Committed → row.revision ∈ stagings := by
  intro row hmem hcommitted
  rcases mem_updateWhere.1 hmem with ⟨hmem, -⟩ | ⟨old, hold, hpass, rfl⟩
  · exact hstagings (h.committed row hmem hcommitted)
  · rw [h.store.eq_of_id hold hrun (ofRun_eq_true.1 hpass)]
    exact hrow

/-- Staging a run. -/
theorem ChainInv.stage (h : ChainInv s) {run : RunRecord} (hrun : run ∈ s.db.runs)
    (hkind : run.runKind = lit "report") (hphase : run.phase ≠ .published) [Chrono]
    (staged : StagedReport) (hversion : staged.report.schemaVersion.isSome) (previous : Option (Text × Text)) (now : ℤ) :
    ChainInv { s with
      db := s.db.updateRun run.runId (RunRecord.stage staged previous now)
      stagings := s.stagings ++ [(run.stage staged previous now).revision] } := by
  have hrow : RowInv (run.stage staged previous now) := by
    refine ⟨fun _ => ⟨hkind, staged.markdown, rfl, rfl⟩, fun _ => ?_, fun hpublished => by
      cases hpublished⟩
    obtain ⟨version, hversion⟩ := Option.isSome_iff_exists.1 hversion
    exact ⟨staged.report, version, rfl, hversion⟩
  obtain ⟨hstore, hdaily⟩ :=
    h.update (f := RunRecord.stage staged previous now) hrun hphase (fun _ => rfl) hrow
  exact
    { store := hstore
      dates := h.dates
      daily := hdaily
      committed := h.committed_update hrun (List.subset_append_left _ _) (by simp)
      staged := fun revision hrevision => List.mem_append_left _ (h.staged revision hrevision)
      lineage := h.lineage
      last := h.last }

/-- Publishing a run in place of the run that it was staged on. -/
theorem ChainInv.publish (h : ChainInv s) {run : RunRecord} (hrun : run ∈ s.db.runs)
    (hphase : run.phase = .dbCommitted)
    (hprevious : s.db.currentRunId run.targetDate = run.previousRunId) [Chrono]
    (report : ReportDocument) (version now : ℤ) (databaseNow updatedAt : Text) :
    ChainInv { s with
      db := { s.db.updateRun run.runId (RunRecord.publish now) with
        dailyReports := upsertDaily (run.dailyRow report version) databaseNow updatedAt
          s.db.dailyReports }
      publications := s.publications ++ [run.revision] } := by
  have hrow : RowInv (run.publish now) :=
    ⟨fun _ => (h.store.rows run hrun).staged (.inl hphase),
      fun _ => (h.store.rows run hrun).report (.inl hphase), fun _ => rfl⟩
  have hstaged : run.phase ≠ .published := by simp [hphase]
  obtain ⟨hstore, hdaily⟩ :=
    h.update (f := RunRecord.publish now) hrun hstaged (fun _ => rfl) hrow
  have hdates := upsertDaily_dates_nodup (run.dailyRow report version) databaseNow updatedAt h.dates
  have hfor : ∀ date, System.publishedFor { s with publications := s.publications ++ [run.revision] }
      date = s.publishedFor date ++
        if run.targetDate = date then [(run.previousRunId, run.runId)] else [] := by
    intro date
    simp only [System.publishedFor, List.filter_append, List.map_append]
    by_cases hdate : run.targetDate = date <;> simp [RunRecord.revision, hdate]
  refine
    { store := ⟨hstore.ids_nodup, hstore.rows⟩
      dates := hdates
      daily := ?_
      committed := h.committed_update hrun (List.Subset.refl _) (h.committed run hrun (.inl hphase))
      staged := ?_
      lineage := ?_
      last := ?_ }
  · intro row hmem
    rcases mem_upsertDaily hmem with ⟨time, rfl⟩ | ⟨hmem, -⟩
    · refine ⟨run.publish now, mem_updateWhere.2 (.inr ⟨run, hrun, by simp, rfl⟩), rfl, rfl, rfl⟩
    · exact hdaily row hmem
  · intro revision hrevision
    rcases List.mem_append.1 hrevision with hrevision | hrevision
    · exact h.staged revision hrevision
    · rw [List.mem_singleton.1 hrevision]
      exact h.committed run hrun (.inl hphase)
  · intro date
    refine (hfor date).symm ▸ ?_
    by_cases hdate : run.targetDate = date
    · rw [if_pos hdate]
      refine lineage_append.2 ⟨h.lineage date, ?_⟩
      rw [← h.last date, ← hdate, hprevious]
    · rw [if_neg hdate, List.append_nil]
      exact h.lineage date
  · intro date
    refine Eq.trans ?_ (congrArg (lastRevision none) (hfor date)).symm
    by_cases hdate : run.targetDate = date
    · rw [if_pos hdate, lastRevision_append, ← hdate]
      obtain ⟨time, hmem⟩ := exists_mem_upsertDaily (run.dailyRow report version) databaseNow
        updatedAt s.db.dailyReports
      exact @currentRunId_of_mem { s.db.updateRun run.runId (RunRecord.publish now) with
        dailyReports := upsertDaily (run.dailyRow report version) databaseNow updatedAt
          s.db.dailyReports } hdates _ hmem
    · rw [if_neg hdate, List.append_nil, ← h.last date]
      unfold Db.currentRunId
      rw [find?_upsertDaily_of_ne _ _ _ fun hsame => hdate hsame.symm]

/-- A new run. -/
theorem ChainInv.create (h : ChainInv s) {run : RunRecord} {db : Db}
    (hfresh : run.runId ∉ s.db.runs.map RunRecord.runId) (hnot : ¬ run.Committed)
    (hruns : db.runs = s.db.runs ++ [run]) (hdaily : db.dailyReports = s.db.dailyReports)
    (created : List Text) : ChainInv { s with db, created } where
  store :=
    { ids_nodup := by
        show (db.runs.map RunRecord.runId).Nodup
        rw [hruns, List.map_append, List.nodup_append]
        refine ⟨h.store.ids_nodup, by simp, ?_⟩
        intro id hid other hother
        rw [List.map_singleton, List.mem_singleton] at hother
        rw [hother]
        rintro rfl
        exact hfresh hid
      rows := by
        intro row hrow
        rw [hruns, List.mem_append, List.mem_singleton] at hrow
        rcases hrow with hrow | rfl
        · exact h.store.rows row hrow
        · exact ⟨fun hcommitted => absurd hcommitted hnot, fun hcommitted => absurd hcommitted hnot,
            fun hpublished => absurd (.inr hpublished) hnot⟩ }
  dates := by
    rw [hdaily]
    exact h.dates
  daily row hrow := by
    rw [hdaily] at hrow
    obtain ⟨other, hother, hrest⟩ := h.daily row hrow
    exact ⟨other, by rw [hruns]; exact List.mem_append_left _ hother, hrest⟩
  committed row hrow hcommitted := by
    rw [hruns, List.mem_append, List.mem_singleton] at hrow
    rcases hrow with hrow | rfl
    · exact h.committed row hrow hcommitted
    · exact absurd hcommitted hnot
  staged := h.staged
  lineage := h.lineage
  last date := by
    unfold Db.currentRunId
    rw [hdaily]
    exact h.last date

end Invariant

/-! ### Operations -/

section Operations

variable [Chrono] [ReportRules] [Sha256] {s : System} {db' : Db}

omit [ReportRules] [Sha256] in
theorem createRun_eq_ok {db : Db} {context : RunContext} {kind generationId : Text}
    {reason : Option Text} {now : ℤ} {personal : Bool}
    (h : createRun db context kind generationId reason now personal = .ok db') :
    context.runId ∉ db.runs.map RunRecord.runId ∧
      db'.runs = db.runs ++ [RunRecord.new context kind generationId reason now] ∧
      db'.dailyReports = db.dailyReports := by
  simp only [createRun, bind_eq_ok, ensure_eq_ok, Except.ok.injEq] at h
  obtain ⟨-, -, -, -, -, hfresh, -, -, rfl⟩ := h
  exact ⟨hfresh, rfl, rfl⟩

omit [Sha256] in
/-- A valid report has a version. -/
theorem validateReport_version {context : RunContext} {report : ReportDocument} {markdown : Text}
    {u : Unit} (h : validateReport context report markdown = .ok u) : report.schemaVersion.isSome := by
  simp only [validateReport, bind_eq_ok, ensure_eq_ok] at h
  obtain ⟨-, -, -, -, -, hmatches, -⟩ := h
  simp only [matchesContext, Bool.and_eq_true] at hmatches
  obtain ⟨version, hversion, -⟩ := (Option.any_eq_true _ _).1 hmatches.1.1.2
  simp [hversion]

theorem stageReport_eq_ok {db : Db} {id : Text} {staged : StagedReport} {now : ℤ}
    (h : stageReport db id staged now = .ok db') :
    ∃ run previous, db.findRun id = some run ∧ run.runKind = lit "report" ∧
      run.phase ∈ [.prepared, .generating] ∧ run.status = .running ∧
      staged.report.schemaVersion.isSome ∧ previousRevision db run.targetDate = .ok previous ∧
      db'.runs = (db.updateRun id (RunRecord.stage staged previous now)).runs ∧
      db'.dailyReports = db.dailyReports := by
  simp only [stageReport, bind_eq_ok, ensure_eq_ok, readRun_eq_ok] at h
  obtain ⟨run, hfind, -, ⟨hkind, hphase, hstatus⟩, _, hvalid, previous, hprevious, hinsert⟩ := h
  obtain ⟨rows, rfl⟩ := insertSources_eq_ok hinsert
  exact ⟨run, previous, hfind, hkind, hphase, hstatus, validateReport_version hvalid, hprevious, rfl,
    rfl⟩

/-- The runs after the publication of a run. -/
def publishedRuns (run : RunRecord) (now : ℤ) (runs : List RunRecord) : List RunRecord :=
  let published := updateWhere (ofRun run.runId) (RunRecord.publish now) runs
  if run.regenerationReason.isSome then
    updateWhere (supersededBy run) (RunRecord.supersede now) published
  else published

omit [ReportRules] [Sha256] in
/-- The unfinished runs that a regeneration replaces are cancelled, no more. -/
theorem publishedRuns_calms {db : Db} {run : RunRecord} {now : ℤ} {dailyReports : List DailyReportRow}
    (hruns : db'.runs = publishedRuns run now db.runs) (hdaily : db'.dailyReports = dailyReports) :
    Calms { db.updateRun run.runId (RunRecord.publish now) with dailyReports } db' := by
  unfold publishedRuns at hruns
  split_ifs at hruns
  · refine .of_update hruns hdaily (fun _ => rfl) fun other _ hpass => ?_
    simp only [supersededBy, Bool.and_eq_true, decide_eq_true_eq] at hpass
    exact .of_columns rfl rfl rfl rfl rfl rfl rfl rfl fun _ hsucceeded =>
      absurd hsucceeded hpass.1.1.2
  · exact .of_eq hruns hdaily

omit [ReportRules] [Sha256] in
theorem markDailyPublished_eq_ok {db : Db} {id verified databaseNow : Text} {now : ℤ}
    (h : markDailyPublished db id verified now databaseNow = .ok db') :
    ∃ run report version, db.findRun id = some run ∧ run.phase = .dbCommitted ∧
      run.expectedSha256 = some verified ∧ run.reportJson = some report ∧
      db.currentRunId run.targetDate = run.previousRunId ∧
      db' = { db with
        dailyReports := upsertDaily (run.dailyRow report version) databaseNow (Chrono.timestamp now)
          db.dailyReports
        runs := publishedRuns run now db.runs } := by
  unfold markDailyPublished at h
  obtain ⟨run, hfind, h⟩ := bind_eq_ok.1 h
  obtain ⟨_, hverified, h⟩ := bind_eq_ok.1 h
  obtain ⟨_, hcurrent, h⟩ := bind_eq_ok.1 h
  obtain ⟨report, hreport, h⟩ := bind_eq_ok.1 h
  have hverified := ensure_eq_ok.1 hverified
  have hreport : run.reportJson = some report := by
    unfold stagedReport at hreport
    cases hjson : run.reportJson with
    | none => simp [hjson] at hreport
    | some staged => simpa [hjson] using hreport
  cases hversion : report.schemaVersion with
  | none =>
    rw [hversion] at h
    exact absurd h (by simp [bind, Except.bind])
  | some version =>
    rw [hversion] at h
    obtain ⟨_, hread, h⟩ := bind_eq_ok.1 h
    cases hread
    cases h
    have hfind := readRun_eq_ok.1 hfind
    obtain ⟨-, rfl⟩ := findRun_eq_some hfind
    exact ⟨run, report, version, hfind, hverified.1, hverified.2, hreport, ensure_eq_ok.1 hcurrent,
      rfl⟩

/-- Only reports are staged, so a weekly or monthly report is never published. -/
theorem markPublished_eq_ok {db : Db} (hdb : StoreInv db) {id verified databaseNow : Text} {now : ℤ}
    (h : markPublished db id verified now databaseNow = .ok db') :
    markDailyPublished db id verified now databaseNow = .ok db' := by
  obtain ⟨run, hfind, h⟩ := bind_eq_ok.1 h
  split_ifs at h with hkind
  · obtain ⟨run', hfind', h⟩ := bind_eq_ok.1 h
    obtain ⟨_, hverified, -⟩ := bind_eq_ok.1 h
    cases hfind.symm.trans hfind'
    have hphase := (ensure_eq_ok.1 hverified).1
    obtain ⟨hmem, -⟩ := findRun_eq_some (readRun_eq_ok.1 hfind)
    rw [((hdb.rows run hmem).staged (.inl hphase)).1] at hkind
    exact absurd hkind (by decide +kernel)
  · exact h

/-- What an operation does to the runs. -/
inductive Effect (s : System) (db' : Db) : Event → Prop
  | quiet {e : Event} (hcalms : Calms s.db db') (hcreated : e.createdRun? = none)
      (hstaged : e.stagedRun? = none) (hpublished : e.publishedRun? = none) : Effect s db' e
  | create {e : Event} (run : RunRecord) (hnew : run.phase = .created)
      (hfresh : run.runId ∉ s.db.runs.map RunRecord.runId) (hruns : db'.runs = s.db.runs ++ [run])
      (hdaily : db'.dailyReports = s.db.dailyReports) (hcreated : e.createdRun? = some run.runId)
      (hstaged : e.stagedRun? = none) (hpublished : e.publishedRun? = none) : Effect s db' e
  | stage (staged : StagedReport) (now : ℤ) (run : RunRecord) (previous : Option (Text × Text))
      (hrun : run ∈ s.db.runs) (hkind : run.runKind = lit "report")
      (hphase : run.phase ∈ [.prepared, .generating]) (hstatus : run.status = .running)
      (hversion : staged.report.schemaVersion.isSome)
      (hprevious : previousRevision s.db run.targetDate = .ok previous)
      (hruns : db'.runs = (s.db.updateRun run.runId (RunRecord.stage staged previous now)).runs)
      (hdaily : db'.dailyReports = s.db.dailyReports) :
      Effect s db' (.stageReport run.runId staged now)
  | publish (verified databaseNow : Text) (now : ℤ) (run : RunRecord) (report : ReportDocument)
      (version : ℤ) (hrun : run ∈ s.db.runs) (hphase : run.phase = .dbCommitted)
      (hverified : run.expectedSha256 = some verified)
      (hprevious : s.db.currentRunId run.targetDate = run.previousRunId)
      (hruns : db'.runs = publishedRuns run now s.db.runs)
      (hdaily : db'.dailyReports = upsertDaily (run.dailyRow report version) databaseNow
        (Chrono.timestamp now) s.db.dailyReports) :
      Effect s db' (.markPublished run.runId verified now databaseNow)

theorem operate_effect (h : StoreInv s.db) {e : Event} (hop : operate s.db e = .ok db') :
    Effect s db' e := by
  cases e with
  | create context kind generationId reason now =>
    obtain ⟨hfresh, hruns, hdaily⟩ := createRun_eq_ok hop
    exact .create (RunRecord.new context kind generationId reason now) rfl hfresh hruns hdaily rfl rfl
      rfl
  | createPersonal context kind generationId reason now =>
    obtain ⟨_, -, hcreate⟩ := bind_eq_ok.1 hop
    obtain ⟨hfresh, hruns, hdaily⟩ := createRun_eq_ok hcreate
    exact .create (RunRecord.new context kind generationId reason now) rfl hfresh hruns hdaily rfl rfl
      rfl
  | registerPersonalRun id => exact .quiet (registerPersonalRun_calms hop) rfl rfl rfl
  | setScanning id now => exact .quiet (setScanning_calms hop) rfl rfl rfl
  | saveScanFailure id snapshot sources => exact .quiet (saveScanFailure_calms hop) rfl rfl rfl
  | prepare id snapshot fingerprint sources now => exact .quiet (prepare_calms hop) rfl rfl rfl
  | reserveCall input => exact .quiet (reserveCall_calms h.ids_nodup hop) rfl rfl rfl
  | resume id now => exact .quiet (resume_calms hop) rfl rfl rfl
  | fail id code cancelled now =>
    cases hop
    exact .quiet fail_calms rfl rfl rfl
  | recoverInterrupted now =>
    cases hop
    exact .quiet recoverInterrupted_calms rfl rfl rfl
  | stageReport id staged now =>
    obtain ⟨run, previous, hfind, hkind, hphase, hstatus, hversion, hprevious, hruns, hdaily⟩ :=
      stageReport_eq_ok hop
    obtain ⟨hmem, rfl⟩ := findRun_eq_some hfind
    exact .stage staged now run previous hmem hkind hphase hstatus hversion hprevious hruns hdaily
  | markPublished id verified now databaseNow =>
    obtain ⟨run, report, version, hfind, hphase, hverified, -, hprevious, rfl⟩ :=
      markDailyPublished_eq_ok (markPublished_eq_ok h hop)
    obtain ⟨hmem, rfl⟩ := findRun_eq_some hfind
    exact .publish verified databaseNow now run report version hmem hphase hverified hprevious rfl rfl
  | finishPreview id report markdown now => exact .quiet (finishPreview_calms h hop) rfl rfl rfl
  | finishObservation id current now => exact .quiet (finishObservation_calms hop) rfl rfl rfl
  | finishScanPreview id quality now => exact .quiet (finishScanPreview_calms hop) rfl rfl rfl
  | finishModelCheck id result now => exact .quiet (finishModelCheck_calms hop) rfl rfl rfl
  | compact now present ticks =>
    cases hop
    exact .quiet (compactPersonal_calms h.ids_nodup) rfl rfl rfl

theorem step_eq_ok {e : Event} {s' : System} :
    step s e = .ok s' ↔ ∃ db, operate s.db e = .ok db ∧ s' =
      { db
        created := s.created ++ e.createdRun?.toList
        stagings := s.stagings ++ db.revision e.stagedRun?
        publications := s.publications ++ db.revision e.publishedRun? } := by
  simp only [step, bind_eq_ok, Except.ok.injEq, eq_comm (a := s')]

omit [Chrono] [ReportRules] [Sha256] in
/-- The revision of a run in a table where it has one row. -/
theorem revision_of_mem {db : Db} (hids : (db.runs.map RunRecord.runId).Nodup) {run : RunRecord}
    (hrun : run ∈ db.runs) : db.revision (some run.runId) = [run.revision] := by
  simp [Db.revision, findRun_of_mem hids hrun]

omit [ReportRules] in
/-- The row of a run that is staged. -/
theorem stage_revision (h : StoreInv s.db) {run : RunRecord} (hrun : run ∈ s.db.runs)
    {staged : StagedReport} {previous : Option (Text × Text)} {now : ℤ}
    (hruns : db'.runs = (s.db.updateRun run.runId (RunRecord.stage staged previous now)).runs) :
    db'.revision (some run.runId) = [(run.stage staged previous now).revision] := by
  have hmem : run.stage staged previous now ∈ db'.runs := by
    rw [hruns]
    exact mem_updateWhere.2 (.inr ⟨run, hrun, by simp, rfl⟩)
  refine revision_of_mem ?_ hmem
  rw [hruns]
  exact h.updateRun_nodup run.runId (RunRecord.stage staged previous now) fun _ => rfl

omit [ReportRules] in
/-- The row of a run that is published. -/
theorem publish_revision (h : StoreInv s.db) {run : RunRecord} (hrun : run ∈ s.db.runs) {report : ReportDocument} {version now : ℤ}
    {databaseNow updatedAt : Text}
    (hcalms : Calms
      { s.db.updateRun run.runId (RunRecord.publish now) with
        dailyReports := upsertDaily (run.dailyRow report version) databaseNow updatedAt
          s.db.dailyReports } db') :
    db'.revision (some run.runId) = [run.revision] := by
  have hmem : run.publish now ∈ (s.db.updateRun run.runId (RunRecord.publish now)).runs :=
    mem_updateWhere.2 (.inr ⟨run, hrun, by simp, rfl⟩)
  obtain ⟨time, hrow⟩ := exists_mem_upsertDaily (run.dailyRow report version) databaseNow updatedAt
    s.db.dailyReports
  obtain ⟨run', hrun', hquiet⟩ := hcalms.kept (run.publish now) hmem
    (List.any_eq_true.2 ⟨_, hrow, decide_eq_true rfl⟩)
  have hids := h.updateRun_nodup run.runId (RunRecord.publish now) fun _ => rfl
  have hrevision := revision_of_mem (hids.sublist hcalms.ids) hrun'
  rw [hquiet.runId, hquiet.revision_eq (.inr rfl)] at hrevision
  exact hrevision

/-- Every operation keeps the chains. -/
theorem ChainInv.step (h : ChainInv s) {e : Event} {s' : System} (hstep : step s e = .ok s') :
    ChainInv s' := by
  obtain ⟨db, hop, rfl⟩ := step_eq_ok.1 hstep
  cases operate_effect h.store hop with
  | quiet hcalms hcreated hstaged hpublished =>
    simp only [hcreated, hstaged, hpublished, Db.revision, Option.toList_none, Option.bind_none,
      Option.map_none, List.append_nil]
    exact h.calms hcalms
  | create run hnew hfresh hruns hdaily hcreated hstaged hpublished =>
    simp only [hstaged, hpublished, Db.revision, Option.toList_none, Option.bind_none,
      Option.map_none, List.append_nil]
    exact h.create hfresh (by simp [RunRecord.Committed, hnew]) hruns hdaily _
  | stage staged now run previous hrun hkind hphase hstatus hversion hprevious hruns hdaily =>
    have hnot : run.phase ≠ .published := fun hpublished =>
      not_committed_of_mem hphase (by decide) (by decide) (.inr hpublished)
    simp only [Event.createdRun?, Event.stagedRun?, Event.publishedRun?,
      stage_revision h.store hrun hruns]
    simp only [Db.revision, Option.toList_none, Option.bind_none, Option.map_none, List.append_nil]
    exact (h.stage hrun hkind hnot staged hversion previous now).calms (.of_eq hruns hdaily)
  | publish verified databaseNow now run report version hrun hphase hverified hprevious hruns hdaily =>
    have hcalms := publishedRuns_calms hruns hdaily
    simp only [Event.createdRun?, Event.stagedRun?, Event.publishedRun?,
      publish_revision h.store hrun hcalms]
    simp only [Db.revision, Option.toList_none, Option.bind_none, Option.map_none, List.append_nil]
    exact (h.publish hrun hphase hprevious report version _ _ _).calms hcalms

omit [Chrono] [ReportRules] in
theorem chainInv_init : ChainInv System.init where
  store := ⟨by simp [System.init, Db.empty], by simp [System.init, Db.empty]⟩
  dates := by simp [System.init, Db.empty]
  daily := by simp [System.init, Db.empty]
  committed := by simp [System.init, Db.empty]
  staged := by simp [System.init]
  lineage date := trivial
  last date := rfl

theorem chainInv_runEvents (events : List Event) : ChainInv (runEvents events) :=
  applyAll_invariant (fun _ _ _ h hstep => h.step hstep) events chainInv_init

end Operations

/-! ### No run is published twice -/

section Fresh

variable {s : System} {db' : Db}

/-- Where no id is given to two runs, what was published stays published. -/
structure FreshInv (s : System) : Prop where
  runs : ∀ run ∈ s.db.runs, run.runId ∈ s.created
  publications : ∀ revision ∈ s.publications, revision.runId ∈ s.created
  publications_nodup : (s.publications.map Revision.runId).Nodup
  published : ∀ run ∈ s.db.runs, run.runId ∈ s.publications.map Revision.runId →
    run.phase = .published

theorem FreshInv.quiet (h : FreshInv s) (hrows : ∀ run' ∈ db'.runs, ∃ run ∈ s.db.runs, Quiet run run')
    (stagings : List Revision) : FreshInv { s with db := db', stagings } where
  runs run' hrun' := by
    obtain ⟨run, hrun, hquiet⟩ := hrows run' hrun'
    rw [hquiet.runId]
    exact h.runs run hrun
  publications := h.publications
  publications_nodup := h.publications_nodup
  published run' hrun' hlogged := by
    obtain ⟨run, hrun, hquiet⟩ := hrows run' hrun'
    rw [hquiet.runId] at hlogged
    have hphase := h.published run hrun hlogged
    exact (hquiet.committed (.inr hphase)).1.trans hphase

theorem FreshInv.create (h : FreshInv s) {run : RunRecord} (hfresh : run.runId ∉ s.created)
    (hruns : db'.runs = s.db.runs ++ [run]) :
    FreshInv { s with db := db', created := s.created ++ [run.runId] } where
  runs row hrow := by
    rw [hruns, List.mem_append, List.mem_singleton] at hrow
    rcases hrow with hrow | rfl
    · exact List.mem_append_left _ (h.runs row hrow)
    · exact List.mem_append_right _ (List.mem_singleton_self _)
  publications revision hrevision := List.mem_append_left _ (h.publications revision hrevision)
  publications_nodup := h.publications_nodup
  published row hrow hlogged := by
    rw [hruns, List.mem_append, List.mem_singleton] at hrow
    rcases hrow with hrow | rfl
    · exact h.published row hrow hlogged
    · obtain ⟨revision, hrevision, hid⟩ := List.mem_map.1 hlogged
      exact absurd (hid ▸ h.publications revision hrevision) hfresh

/-- An update of one run, which is published by it if it is in the log. -/
theorem FreshInv.update (h : FreshInv s) {id : Text} {f : RunRecord → RunRecord}
    {publications : List Revision} (hid : ∀ run, (f run).runId = run.runId)
    (hcreated : ∀ revision ∈ publications, revision.runId ∈ s.created)
    (hnodup : (publications.map Revision.runId).Nodup)
    (hother : ∀ other, other ≠ id → other ∈ publications.map Revision.runId →
      other ∈ s.publications.map Revision.runId)
    (hrow : ∀ run ∈ s.db.runs, run.runId = id → id ∈ publications.map Revision.runId →
      (f run).phase = .published) :
    FreshInv { s with db := s.db.updateRun id f, publications } where
  runs row hrow' := by
    rcases mem_updateWhere.1 hrow' with ⟨hmem, -⟩ | ⟨old, hold, -, rfl⟩
    · exact h.runs row hmem
    · rw [hid]
      exact h.runs old hold
  publications := hcreated
  publications_nodup := hnodup
  published row hrow' hlogged := by
    rcases mem_updateWhere.1 hrow' with ⟨hmem, hne⟩ | ⟨old, hold, hpass, rfl⟩
    · have hne : row.runId ≠ id := of_decide_eq_false hne
      exact h.published row hmem (hother _ hne hlogged)
    · rw [ofRun_eq_true] at hpass
      rw [hid, hpass] at hlogged
      exact hrow old hold hpass hlogged

variable [Chrono] [ReportRules] [Sha256]

/-- Every operation keeps what was published, unless it creates a run again. -/
theorem FreshInv.step (hchain : ChainInv s) (h : FreshInv s) {e : Event} {s' : System}
    (hstep : step s e = .ok s') (hfresh : s'.created.Nodup) : FreshInv s' := by
  obtain ⟨db, hop, rfl⟩ := step_eq_ok.1 hstep
  cases operate_effect hchain.store hop with
  | quiet hcalms hcreated hstaged hpublished =>
    simp only [hcreated, hstaged, hpublished, Db.revision, Option.toList_none, Option.bind_none,
      Option.map_none, List.append_nil]
    exact h.quiet hcalms.rows s.stagings
  | create run hnew hfreshRow hruns hdaily hcreated hstaged hpublished =>
    simp only [hcreated, hstaged, hpublished, Db.revision, Option.toList_none, Option.bind_none,
      Option.map_none, List.append_nil, Option.toList_some] at hfresh ⊢
    refine h.create ?_ hruns
    intro hmem
    exact (List.nodup_append.1 hfresh).2.2 _ hmem _ (List.mem_singleton_self _) rfl
  | stage staged now run previous hrun hkind hphase hstatus hversion hprevious hruns hdaily =>
    have hnot : ¬ run.Committed := not_committed_of_mem hphase (by decide) (by decide)
    simp only [Event.createdRun?, Event.publishedRun?, Db.revision, Option.toList_none,
      Option.bind_none, Option.map_none, List.append_nil]
    have hupdate : FreshInv
        { s with db := s.db.updateRun run.runId (RunRecord.stage staged previous now) } := by
      refine h.update (fun _ => rfl) h.publications h.publications_nodup (fun _ _ hmem => hmem) ?_
      intro row hrow hid hlogged
      exact absurd (.inr (h.published run hrun hlogged)) hnot
    exact hupdate.quiet (fun row hrow => ⟨row, hruns ▸ hrow, .refl row⟩) _
  | publish verified databaseNow now run report version hrun hphase hverified hprevious hruns hdaily =>
    have hcalms := publishedRuns_calms hruns hdaily
    simp only [Event.createdRun?, Event.publishedRun?,
      publish_revision hchain.store hrun hcalms, Option.toList_none, List.append_nil]
    have hnew : run.runId ∉ s.publications.map Revision.runId := by
      intro hlogged
      have := h.published run hrun hlogged
      simp [hphase] at this
    have hupdate : FreshInv { s with
        db := s.db.updateRun run.runId (RunRecord.publish now)
        publications := s.publications ++ [run.revision] } := by
      refine h.update (fun _ => rfl) ?_ ?_ ?_ (fun _ _ _ _ => rfl)
      · intro revision hrevision
        rcases List.mem_append.1 hrevision with hrevision | hrevision
        · exact h.publications revision hrevision
        · rw [List.mem_singleton.1 hrevision]
          exact h.runs run hrun
      · rw [List.map_append, List.nodup_append]
        refine ⟨h.publications_nodup, by simp, ?_⟩
        intro id hid other hother
        rw [List.map_singleton, List.mem_singleton] at hother
        rw [hother]
        rintro rfl
        exact hnew hid
      · intro other hne hlogged
        rw [List.map_append, List.mem_append, List.map_singleton, List.mem_singleton] at hlogged
        exact hlogged.resolve_right hne
    exact hupdate.quiet hcalms.rows _

theorem freshInv_runEvents (events : List Event) (hfresh : (runEvents events).created.Nodup) :
    FreshInv (runEvents events) := by
  refine (applyAll_invariant (I := fun s => ChainInv s ∧ (s.created.Nodup → FreshInv s)) ?_ events
    ⟨chainInv_init, fun _ => ⟨by simp [System.init, Db.empty], by simp [System.init],
      by simp [System.init], by simp [System.init, Db.empty]⟩⟩).2 hfresh
  rintro s e s' ⟨hchain, h⟩ hstep
  refine ⟨hchain.step hstep, fun hnodup => ?_⟩
  refine FreshInv.step hchain (h ?_) hstep hnodup
  obtain ⟨db, -, rfl⟩ := step_eq_ok.1 hstep
  exact (List.nodup_append.1 hnodup).1

end Fresh

/-! ### The publications of a date -/

section Publications

variable [Chrono] [ReportRules] [Sha256]

/-- **The publications of a date form a chain**: in every state of every run, the row of a date
references a run that was published and has succeeded, with the digest of its text; every publication
of a date replaced the one before it, on which it was staged, and the last one is the published run of
the date; and, where no id is given to two runs, of the runs staged on one run at most one is
published. -/
theorem publication_chain (events : List Event) :
    (∀ row ∈ (runEvents events).db.dailyReports, ∃ run ∈ (runEvents events).db.runs,
      row.currentRunId = some run.runId ∧ run.targetDate = row.date ∧ run.phase = .published ∧
        run.status = .succeeded ∧
        ∃ markdown, run.markdown = some markdown ∧
          run.expectedSha256 = some (Sha256.hex markdown)) ∧
      (∀ revision ∈ (runEvents events).publications, revision ∈ (runEvents events).stagings) ∧
      (∀ date, Lineage none ((runEvents events).publishedFor date) ∧
        (runEvents events).db.currentRunId date =
          lastRevision none ((runEvents events).publishedFor date)) ∧
      ((runEvents events).created.Nodup → ∀ a ∈ (runEvents events).stagings,
        ∀ b ∈ (runEvents events).stagings, a.date = b.date → a.previous = b.previous →
          a ∈ (runEvents events).publications → b ∈ (runEvents events).publications → a = b) := by
  have hchain := chainInv_runEvents events
  refine ⟨?_, hchain.staged, fun date => ⟨hchain.lineage date, hchain.last date⟩, ?_⟩
  · intro row hrow
    obtain ⟨run, hrun, hid, hdate, hphase⟩ := hchain.daily row hrow
    have hinv := hchain.store.rows run hrun
    exact ⟨run, hrun, hid, hdate, hphase, hinv.published hphase, (hinv.staged (.inr hphase)).2⟩
  · intro hfresh a _ b _ hdate hprevious ha hb
    have hnodup := (freshInv_runEvents events hfresh).publications_nodup
    -- both are publications of one date, whose lineage replaces nothing twice
    have hmem : ∀ c ∈ (runEvents events).publications, c.date = b.date →
        (c.previous, c.runId) ∈ (runEvents events).publishedFor b.date := fun c hc hcdate =>
      List.mem_map.2 ⟨c, List.mem_filter.2 ⟨hc, decide_eq_true hcdate⟩, rfl⟩
    have hids : (((runEvents events).publishedFor b.date).map Prod.snd).Nodup := by
      unfold System.publishedFor
      rw [List.map_map]
      exact hnodup.sublist (List.filter_sublist.map _)
    have hpair := (hchain.lineage b.date).eq_of_previous hids (fun _ _ => by simp)
      (hmem a ha hdate) (hmem b hb rfl) hprevious
    exact List.inj_on_of_nodup_map hnodup ha hb (Prod.mk.inj hpair).2

end Publications

/-! ### Two runs of a date -/

section Rivals

/-- The instant of a second of the 15th of October 2026. -/
def dayInstant (second : ℕ) : ℤ := (civilDays 2026 10 15 * daySeconds + second) * secondMicros

def octoberDay : Text := lit "2026-10-15"

/-- A run of that date. -/
def dayContext (id : Text) : RunContext where
  runId := id
  scopeId := personalWork
  targetDate := octoberDay
  timezone := reportTimezone
  windowStartUtc := dayInstant 0 - 8 * 3600 * secondMicros
  windowEndUtc := dayInstant 0 + 16 * 3600 * secondMicros
  startedAt := dayInstant 36000
  configFingerprint := lit "config"

/-- A report of that date, with no source. -/
def dayReport : ReportDocument where
  text := lit "{}"
  date := some octoberDay
  windowStartUtc := some (lit "2026-10-14T16:00:00+00:00")
  schemaVersion := some 4
  quality := some (lit "complete")
  sources := some []
  reportKind := none

def dayMarkdown : Text := ['a', Char.ofNat 10]

/-- The digest of the text. -/
def markdownDigest : Text := lit "87428fc522803d31065e7bce3cf03fe475096631e5e07bbd7a0fde60c4cf25c7"

def dayStaged : StagedReport where
  report := dayReport
  markdown := dayMarkdown
  outputPath := lit "reports/2026-10-15.md"
  publicationFingerprint := lit "publication"

@[reducible] def markdownSha256 : Sha256 where
  hex text := if text = dayMarkdown then markdownDigest else []

/-- The report is of version 4, which no validator reads. -/
@[reducible] def noRules : ReportRules where
  personal _ _ := .ok ()
  periodLabel _ _ := .error databaseFailed

local instance chainChrono : Chrono := utcClock
local instance chainSha256 : Sha256 := markdownSha256
local instance chainRules : ReportRules := noRules

def runA : Text := List.replicate 32 'a'
def runB : Text := List.replicate 32 'b'

/-- A run that has its input. -/
def preparedRun (id : Text) (second : ℕ) : List Event :=
  [.createPersonal (dayContext id) (lit "report") id none (dayInstant second),
    .prepare id { path := lit "input.json", sha256 := lit "i" } (lit "input") [] (dayInstant second)]

/-- Two runs that are staged on the same run, and the first one is published. -/
def rivalRuns : List Event :=
  preparedRun runA 36000 ++ preparedRun runB 36060 ++
    [.stageReport runA dayStaged (dayInstant 36120), .stageReport runB dayStaged (dayInstant 36180),
      .markPublished runA markdownDigest (dayInstant 36240) (lit "2026-10-15 10:04:00"),
      .markPublished runB markdownDigest (dayInstant 36300) (lit "2026-10-15 10:05:00")]

set_option maxRecDepth 10000 in
theorem publication_chain_rivals :
    (runEvents rivalRuns).created.Nodup ∧ (runEvents rivalRuns).stagings.length = 2 ∧
      (runEvents rivalRuns).db.currentRunId octoberDay = some runA ∧
      ∀ a ∈ (runEvents rivalRuns).stagings, ∀ b ∈ (runEvents rivalRuns).stagings,
        a.date = b.date → a.previous = b.previous → a ∈ (runEvents rivalRuns).publications →
          b ∈ (runEvents rivalRuns).publications → a = b := by
  have hfresh : (runEvents rivalRuns).created.Nodup := by decide +kernel
  refine ⟨hfresh, by decide +kernel, by decide +kernel, ?_⟩
  exact (publication_chain rivalRuns).2.2.2 hfresh

end Rivals

end DailyReport.Reports
