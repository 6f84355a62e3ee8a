import DailyReport.Reports.Chain
import DailyReport.Reports.Runner

/-!
# What the store keeps for the runner

An operation other than the runner's own keeps the identity of every run, adds and deletes no call,
and changes no call but one that is reserved, whose result it declares unknown (`operate_keeps`).
-/

namespace DailyReport.Reports

open Lib

/-- What the runner reads of a run stays. -/
structure RunRecord.SameWork (run run' : RunRecord) : Prop where
  runId : run'.runId = run.runId
  scopeId : run'.scopeId = run.scopeId
  targetDate : run'.targetDate = run.targetDate
  configFingerprint : run'.configFingerprint = run.configFingerprint
  generationId : run'.generationId = run.generationId

theorem RunRecord.SameWork.refl (run : RunRecord) : run.SameWork run := ⟨rfl, rfl, rfl, rfl, rfl⟩

theorem RunRecord.SameWork.trans {run run' run'' : RunRecord} (h : run.SameWork run')
    (h' : run'.SameWork run'') : run.SameWork run'' :=
  ⟨h'.runId.trans h.runId, h'.scopeId.trans h.scopeId, h'.targetDate.trans h.targetDate,
    h'.configFingerprint.trans h.configFingerprint, h'.generationId.trans h.generationId⟩

/-- Every run stays, with its identity. -/
def RunsKept (runs runs' : List RunRecord) : Prop :=
  ∀ id run, runs.find? (ofRun id) = some run →
    ∃ run', runs'.find? (ofRun id) = some run' ∧ run.SameWork run'

section Runs

variable {runs runs' runs'' : List RunRecord}

theorem RunsKept.refl (runs : List RunRecord) : RunsKept runs runs :=
  fun _ run h => ⟨run, h, .refl run⟩

theorem RunsKept.trans (h : RunsKept runs runs') (h' : RunsKept runs' runs'') :
    RunsKept runs runs'' := by
  intro id run hrun
  obtain ⟨run', hrun', hsame⟩ := h id run hrun
  obtain ⟨run'', hrun'', hsame'⟩ := h' id run' hrun'
  exact ⟨run'', hrun'', hsame.trans hsame'⟩

theorem RunsKept.update (p : RunRecord → Bool) {f : RunRecord → RunRecord}
    (hf : ∀ run : RunRecord, run.SameWork (f run)) : RunsKept runs (updateWhere p f runs) := by
  intro id run hrun
  have hid : ∀ run, ofRun id (f run) = ofRun id run := by
    intro run
    unfold ofRun
    rw [(hf run).runId]
  rw [find?_updateWhere hid, hrun]
  refine ⟨if p run then f run else run, rfl, ?_⟩
  split_ifs
  · exact hf run
  · exact .refl run

theorem RunsKept.append (more : List RunRecord) : RunsKept runs (runs ++ more) := by
  intro id run hrun
  rw [List.find?_append, hrun]
  exact ⟨run, rfl, .refl run⟩

end Runs

/-- The call stays as it is, or its result is declared unknown. -/
def ModelCallRow.Settles [Chrono] (call call' : ModelCallRow) : Prop :=
  call' = call ∨ call.status = .reserved ∧ ∃ now, call' = call.lose now

/-- What an operation beside the runner keeps. -/
structure Keeps [Chrono] (db db' : Db) : Prop where
  runs : RunsKept db.runs db'.runs
  calls : ∃ f : ModelCallRow → ModelCallRow, db'.calls = db.calls.map f ∧ ∀ call : ModelCallRow, call.Settles (f call)
  nextCall : db'.nextCall = db.nextCall

section Operations

variable [Chrono] {db db' db'' : Db} {id : Text} {now : ℤ}

/-- An operation that leaves the calls alone. -/
theorem Keeps.of_runs (hruns : RunsKept db.runs db'.runs) (hcalls : db'.calls = db.calls)
    (hnext : db'.nextCall = db.nextCall) : Keeps db db' where
  runs := hruns
  calls := ⟨id, by rw [hcalls, List.map_id], fun _ => .inl rfl⟩
  nextCall := hnext

theorem Keeps.updateOne {p : RunRecord → Bool} {f : RunRecord → RunRecord} {code : String}
    (h : updateOne db p f code = .ok db') (hf : ∀ run : RunRecord, run.SameWork (f run)) : Keeps db db' := by
  obtain ⟨-, rfl⟩ := updateOne_eq_ok.1 h
  exact .of_runs (.update p hf) rfl rfl

theorem Keeps.insertSources (h : Keeps db db') {sources : List SourceDocument} {missing : ReportError}
    (hinsert : insertSources db' id sources missing = .ok db'') : Keeps db db'' := by
  obtain ⟨rows, rfl⟩ := insertSources_eq_ok hinsert
  exact ⟨h.runs, h.calls, h.nextCall⟩

theorem createRun_keeps {context : RunContext} {kind generationId : Text} {reason : Option Text}
    {personal : Bool} (h : createRun db context kind generationId reason now personal = .ok db') :
    Keeps db db' := by
  simp only [createRun, bind_eq_ok, ensure_eq_ok, Except.ok.injEq] at h
  obtain ⟨-, -, -, -, -, -, -, -, rfl⟩ := h
  exact .of_runs (.append _) rfl rfl

theorem registerPersonalRun_keeps (h : registerPersonalRun db id = .ok db') : Keeps db db' := by
  simp only [registerPersonalRun, bind_eq_ok, Except.ok.injEq] at h
  obtain ⟨-, -, rfl⟩ := h
  exact .of_runs (.refl _) rfl rfl

theorem saveScanFailure_keeps {snapshot : SnapshotRef} {sources : List SourceDocument}
    (h : saveScanFailure db id snapshot sources = .ok db') : Keeps db db' := by
  obtain ⟨updated, hupdate, hinsert⟩ := bind_eq_ok.1 h
  exact (Keeps.updateOne hupdate fun _ => ⟨rfl, rfl, rfl, rfl, rfl⟩).insertSources hinsert

theorem prepare_keeps {snapshot : SnapshotRef} {fingerprint : Text} {sources : List SourceDocument}
    (h : prepare db id snapshot fingerprint sources now = .ok db') : Keeps db db' := by
  obtain ⟨updated, hupdate, hinsert⟩ := bind_eq_ok.1 h
  exact (Keeps.updateOne hupdate fun _ => ⟨rfl, rfl, rfl, rfl, rfl⟩).insertSources hinsert

/-- Calls that are declared unknown were reserved. -/
theorem settles_lose {p : ModelCallRow → Bool} (hp : ∀ call, p call = true → call.status = .reserved)
    (call : ModelCallRow) : call.Settles (if p call then call.lose now else call) := by
  split_ifs with h
  · exact .inr ⟨hp call h, now, rfl⟩
  · exact .inl rfl

theorem resume_keeps (h : resume db id now = .ok db') : Keeps db db' := by
  obtain ⟨updated, hupdate, hdb'⟩ := bind_eq_ok.1 h
  cases hdb'
  obtain ⟨-, rfl⟩ := updateOne_eq_ok.1 hupdate
  refine ⟨.update _ fun _ => ⟨rfl, rfl, rfl, rfl, rfl⟩, ⟨_, rfl, settles_lose ?_⟩, rfl⟩
  intro call hcall
  exact (of_decide_eq_true hcall).2

theorem fail_keeps {code : Text} {cancelled : Bool} : Keeps db (fail db id code cancelled now) :=
  .of_runs (.update _ fun _ => ⟨rfl, rfl, rfl, rfl, rfl⟩) rfl rfl

theorem recoverInterrupted_keeps : Keeps db (recoverInterrupted db now) := by
  refine ⟨.update _ fun _ => ⟨rfl, rfl, rfl, rfl, rfl⟩, ⟨_, rfl, settles_lose ?_⟩, rfl⟩
  intro call hcall
  exact (of_decide_eq_true hcall).1

theorem stageReport_keeps [ReportRules] [Sha256] {staged : StagedReport}
    (h : stageReport db id staged now = .ok db') : Keeps db db' := by
  simp only [stageReport, bind_eq_ok, ensure_eq_ok] at h
  obtain ⟨run, -, -, -, _, -, previous, -, hinsert⟩ := h
  refine Keeps.insertSources ?_ hinsert
  exact .of_runs (.update (f := RunRecord.stage staged previous now) _
    fun _ => ⟨rfl, rfl, rfl, rfl, rfl⟩) rfl rfl

theorem publishedRuns_kept (run : RunRecord) (now : ℤ) (runs : List RunRecord) :
    RunsKept runs (publishedRuns run now runs) := by
  have hpublished : RunsKept runs (updateWhere (ofRun run.runId) (RunRecord.publish now) runs) :=
    .update _ fun _ => ⟨rfl, rfl, rfl, rfl, rfl⟩
  unfold publishedRuns
  dsimp only
  split_ifs
  · exact hpublished.trans (.update (f := RunRecord.supersede now) _ fun _ => ⟨rfl, rfl, rfl, rfl, rfl⟩)
  · exact hpublished

theorem markPublished_keeps [ReportRules] {verified databaseNow : Text}
    (h : markPublished db id verified now databaseNow = .ok db') : Keeps db db' := by
  obtain ⟨run, -, h⟩ := bind_eq_ok.1 h
  split_ifs at h with hperiod
  · simp only [markPeriodPublished, bind_eq_ok, Except.ok.injEq] at h
    obtain ⟨-, -, -, -, -, -, -, -, -, -, -, -, rfl⟩ := h
    exact .of_runs (.update (f := RunRecord.publish now) _ fun _ => ⟨rfl, rfl, rfl, rfl, rfl⟩) rfl rfl
  · obtain ⟨run, -, -, -, -, -, -, -, rfl⟩ := markDailyPublished_eq_ok h
    exact .of_runs (publishedRuns_kept run now db.runs) rfl rfl

theorem finishPreview_keeps [ReportRules] [Sha256] {report : ReportDocument} {markdown : Text}
    (h : finishPreview db id report markdown now = .ok db') : Keeps db db' := by
  obtain ⟨_, -, h⟩ := bind_eq_ok.1 h
  obtain ⟨_, -, h⟩ := bind_eq_ok.1 h
  obtain ⟨_, -, h⟩ := bind_eq_ok.1 h
  exact .updateOne h fun _ => ⟨rfl, rfl, rfl, rfl, rfl⟩

/-- **What an operation beside the runner can do**, one case for each operation. -/
theorem operate_keeps [ReportRules] [Sha256] {e : Event} (hbeside : e.beside = true)
    (h : operate db e = .ok db') : Keeps db db' := by
  cases e with
  | create context kind generationId reason now => exact createRun_keeps h
  | createPersonal context kind generationId reason now =>
    obtain ⟨-, -, h⟩ := bind_eq_ok.1 h
    exact createRun_keeps h
  | registerPersonalRun id => exact registerPersonalRun_keeps h
  | setScanning id now => exact .updateOne h fun _ => ⟨rfl, rfl, rfl, rfl, rfl⟩
  | saveScanFailure id snapshot sources => exact saveScanFailure_keeps h
  | prepare id snapshot fingerprint sources now => exact prepare_keeps h
  | reserveCall input => exact absurd hbeside Bool.false_ne_true
  | resume id now => exact resume_keeps h
  | fail id code cancelled now =>
    cases h
    exact fail_keeps
  | recoverInterrupted now =>
    cases h
    exact recoverInterrupted_keeps
  | stageReport id staged now => exact stageReport_keeps h
  | markPublished id verified now databaseNow => exact markPublished_keeps h
  | finishPreview id report markdown now => exact finishPreview_keeps h
  | finishObservation id current now => exact .updateOne h fun _ => ⟨rfl, rfl, rfl, rfl, rfl⟩
  | finishScanPreview id quality now => exact .updateOne h fun _ => ⟨rfl, rfl, rfl, rfl, rfl⟩
  | finishModelCheck id result now => exact .updateOne h fun _ => ⟨rfl, rfl, rfl, rfl, rfl⟩
  | compact now present ticks => exact absurd hbeside Bool.false_ne_true

end Operations

end DailyReport.Reports
