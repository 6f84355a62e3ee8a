import DailyReport.Reports.System

/-!
# Operations that publish nothing

Most operations leave what is staged and published alone (`Calms`): a run that is staged keeps its
text, its digest and the run it was staged on, a published run stays published, and the published
runs of the dates stay there.  Staging and publishing are the only operations that do more.
-/

namespace DailyReport.Reports

open Lib

/-! ### Rows -/

/-- The run has a staged text. -/
def RunRecord.Committed (run : RunRecord) : Prop := run.phase = .dbCommitted ∨ run.phase = .published

/-- What an operation keeps of a run. -/
structure Quiet (run run' : RunRecord) : Prop where
  runId : run'.runId = run.runId
  targetDate : run'.targetDate = run.targetDate
  runKind : run'.runKind = run.runKind
  committed : run.Committed → run'.phase = run.phase ∧ run'.reportJson = run.reportJson ∧
    run'.markdown = run.markdown ∧ run'.expectedSha256 = run.expectedSha256 ∧
    run'.previousRunId = run.previousRunId
  uncommitted : ¬ run.Committed → ¬ run'.Committed
  succeeded : run.phase = .published → run.status = .succeeded → run'.status = .succeeded

theorem Quiet.refl (run : RunRecord) : Quiet run run :=
  ⟨rfl, rfl, rfl, fun _ => ⟨rfl, rfl, rfl, rfl, rfl⟩, id, fun _ h => h⟩

theorem Quiet.committed_iff {run run' : RunRecord} (h : Quiet run run') :
    run'.Committed ↔ run.Committed := by
  constructor
  · intro h'
    by_contra hnot
    exact h.uncommitted hnot h'
  · intro hcommitted
    unfold RunRecord.Committed
    rw [(h.committed hcommitted).1]
    exact hcommitted

theorem Quiet.trans {run run' run'' : RunRecord} (h : Quiet run run') (h' : Quiet run' run'') :
    Quiet run run'' where
  runId := h'.runId.trans h.runId
  targetDate := h'.targetDate.trans h.targetDate
  runKind := h'.runKind.trans h.runKind
  committed hcommitted := by
    obtain ⟨hphase, hreport, hmarkdown, hsha, hprevious⟩ := h.committed hcommitted
    obtain ⟨hphase', hreport', hmarkdown', hsha', hprevious'⟩ :=
      h'.committed (h.committed_iff.2 hcommitted)
    exact ⟨hphase'.trans hphase, hreport'.trans hreport, hmarkdown'.trans hmarkdown,
      hsha'.trans hsha, hprevious'.trans hprevious⟩
  uncommitted hnot := h'.uncommitted (h.uncommitted hnot)
  succeeded hpublished hsucceeded :=
    h'.succeeded ((h.committed (.inr hpublished)).1.trans hpublished) (h.succeeded hpublished hsucceeded)

/-- A run that is neither staged before nor after. -/
theorem Quiet.of_uncommitted {run run' : RunRecord} (hid : run'.runId = run.runId)
    (hdate : run'.targetDate = run.targetDate) (hkind : run'.runKind = run.runKind)
    (h : ¬ run.Committed) (h' : ¬ run'.Committed) : Quiet run run' :=
  ⟨hid, hdate, hkind, fun hc => absurd hc h, fun _ => h', fun hp _ => absurd (.inr hp) h⟩

section Rows

variable [Sha256]

/-- A staged run is a report with its text and its digest; a published run has succeeded. -/
structure RowInv (run : RunRecord) : Prop where
  staged : run.Committed → run.runKind = lit "report" ∧
    ∃ markdown, run.markdown = some markdown ∧ run.expectedSha256 = some (Sha256.hex markdown)
  report : run.Committed → ∃ report version, run.reportJson = some report ∧
    report.schemaVersion = some version
  published : run.phase = .published → run.status = .succeeded

theorem RowInv.quiet {run run' : RunRecord} (h : RowInv run) (hquiet : Quiet run run') :
    RowInv run' where
  staged hcommitted := by
    have hbefore := hquiet.committed_iff.1 hcommitted
    obtain ⟨hkind, markdown, hmarkdown, hsha⟩ := h.staged hbefore
    obtain ⟨-, -, hmarkdown', hsha', -⟩ := hquiet.committed hbefore
    exact ⟨hquiet.runKind.trans hkind, markdown, hmarkdown'.trans hmarkdown, hsha'.trans hsha⟩
  report hcommitted := by
    have hbefore := hquiet.committed_iff.1 hcommitted
    obtain ⟨report, version, hreport, hversion⟩ := h.report hbefore
    exact ⟨report, version, (hquiet.committed hbefore).2.1.trans hreport, hversion⟩
  published hpublished := by
    have hbefore := hquiet.committed_iff.1 (.inr hpublished)
    have hphase := (hquiet.committed hbefore).1.symm.trans hpublished
    exact hquiet.succeeded hphase (h.published hphase)

/-- Runs have distinct ids, and every row is as it should be. -/
structure StoreInv (db : Db) : Prop where
  ids_nodup : (db.runs.map RunRecord.runId).Nodup
  rows : ∀ run ∈ db.runs, RowInv run

/-- There is one row of a run. -/
theorem StoreInv.eq_of_id {db : Db} (h : StoreInv db) {run other : RunRecord} (hrun : run ∈ db.runs)
    (hother : other ∈ db.runs) (hid : run.runId = other.runId) : run = other :=
  List.inj_on_of_nodup_map h.ids_nodup hrun hother hid

end Rows

/-! ### Databases -/

/-- The operation leaves what is staged and published alone; it may delete runs that are not
published runs of a date. -/
structure Calms (db db' : Db) : Prop where
  daily : db'.dailyReports = db.dailyReports
  ids : (db'.runs.map RunRecord.runId).Sublist (db.runs.map RunRecord.runId)
  rows : ∀ run' ∈ db'.runs, ∃ run ∈ db.runs, Quiet run run'
  kept : ∀ run ∈ db.runs, db.isCurrent run.runId = true → ∃ run' ∈ db'.runs, Quiet run run'

variable {db db' db'' : Db}

theorem Calms.refl (db : Db) : Calms db db :=
  ⟨rfl, .refl _, fun run hrun => ⟨run, hrun, .refl run⟩, fun run hrun _ => ⟨run, hrun, .refl run⟩⟩

theorem Calms.isCurrent_eq (h : Calms db db') (id : Text) : db'.isCurrent id = db.isCurrent id := by
  simp only [Db.isCurrent, h.daily]

theorem Calms.trans (h : Calms db db') (h' : Calms db' db'') : Calms db db'' where
  daily := h'.daily.trans h.daily
  ids := h'.ids.trans h.ids
  rows run'' hrun'' := by
    obtain ⟨run', hrun', hquiet'⟩ := h'.rows run'' hrun''
    obtain ⟨run, hrun, hquiet⟩ := h.rows run' hrun'
    exact ⟨run, hrun, hquiet.trans hquiet'⟩
  kept run hrun hcurrent := by
    obtain ⟨run', hrun', hquiet⟩ := h.kept run hrun hcurrent
    have hcurrent' : db'.isCurrent run'.runId = true := by
      rw [h.isCurrent_eq, hquiet.runId]
      exact hcurrent
    obtain ⟨run'', hrun'', hquiet'⟩ := h'.kept run' hrun' hcurrent'
    exact ⟨run'', hrun'', hquiet.trans hquiet'⟩

/-- An operation that does not touch the runs. -/
theorem Calms.of_eq (hruns : db'.runs = db.runs) (hdaily : db'.dailyReports = db.dailyReports) :
    Calms db db' where
  daily := hdaily
  ids := by rw [hruns]
  rows run hrun := ⟨run, hruns ▸ hrun, .refl run⟩
  kept run hrun _ := ⟨run, hruns.symm ▸ hrun, .refl run⟩

/-- An operation that updates runs quietly. -/
theorem Calms.of_update {p : RunRecord → Bool} {f : RunRecord → RunRecord}
    (hruns : db'.runs = updateWhere p f db.runs) (hdaily : db'.dailyReports = db.dailyReports)
    (hid : ∀ run, (f run).runId = run.runId)
    (hf : ∀ run ∈ db.runs, p run = true → Quiet run (f run)) : Calms db db' where
  daily := hdaily
  ids := by rw [hruns, map_updateWhere _ hid]
  rows run' hrun' := by
    rw [hruns] at hrun'
    rcases mem_updateWhere.1 hrun' with ⟨hrun', -⟩ | ⟨run, hrun, hp, rfl⟩
    · exact ⟨run', hrun', .refl run'⟩
    · exact ⟨run, hrun, hf run hrun hp⟩
  kept run hrun _ := by
    rw [hruns]
    cases hp : p run with
    | false => exact ⟨run, mem_updateWhere_of_not hrun hp, .refl run⟩
    | true => exact ⟨f run, mem_updateWhere.2 (.inr ⟨run, hrun, hp, rfl⟩), hf run hrun hp⟩

/-- An operation that deletes runs that are not published runs of a date. -/
theorem Calms.of_delete {p : RunRecord → Bool} (hruns : db'.runs = deleteWhere p db.runs)
    (hdaily : db'.dailyReports = db.dailyReports)
    (hp : ∀ run ∈ db.runs, p run = true → db.isCurrent run.runId = false) : Calms db db' where
  daily := hdaily
  ids := by
    rw [hruns]
    exact (deleteWhere_sublist p db.runs).map RunRecord.runId
  rows run hrun := by
    rw [hruns, mem_deleteWhere] at hrun
    exact ⟨run, hrun.1, .refl run⟩
  kept run hrun hcurrent := by
    refine ⟨run, ?_, .refl run⟩
    rw [hruns, mem_deleteWhere]
    refine ⟨hrun, ?_⟩
    by_contra hpass
    rw [hp run hrun (by simpa using hpass)] at hcurrent
    exact Bool.false_ne_true hcurrent

variable [Sha256]

theorem StoreInv.calms (h : StoreInv db) (hcalms : Calms db db') : StoreInv db' where
  ids_nodup := h.ids_nodup.sublist hcalms.ids
  rows run' hrun' := by
    obtain ⟨run, hrun, hquiet⟩ := hcalms.rows run' hrun'
    exact (h.rows run hrun).quiet hquiet

end DailyReport.Reports
