import DailyReport.Reports.Quiet

/-!
# The quiet operations of the report store

Creating, staging and publishing a run apart, every operation of the store is quiet: one lemma for
each of them.  A guard on the phase of a run keeps most of them away from staged runs; failing and
recovering runs change no more than their status, and compaction deletes no published run of a date.
-/

namespace DailyReport.Reports

open Lib

variable {db db' : Db} {id : Text} {now : ℤ}

theorem updateOne_eq_ok {p : RunRecord → Bool} {f : RunRecord → RunRecord} {code : String} :
    updateOne db p f code = .ok db' ↔
      db.runs.countP p = 1 ∧ { db with runs := updateWhere p f db.runs } = db' := by
  simp only [updateOne, bind_eq_ok, ensure_eq_ok, Except.ok.injEq]
  constructor
  · rintro ⟨-, hcount, rfl⟩
    exact ⟨hcount, rfl⟩
  · rintro ⟨hcount, rfl⟩
    exact ⟨(), hcount, rfl⟩

/-- Inserting sources touches no other table. -/
theorem insertSources_eq_ok {sources : List SourceDocument} {missing : ReportError}
    (h : insertSources db id sources missing = .ok db') :
    ∃ rows, db' = { db with sources := rows } := by
  unfold insertSources at h
  induction sources generalizing db with
  | nil =>
    cases h
    exact ⟨_, rfl⟩
  | cons source sources ih =>
    obtain ⟨inserted, hinsert, hrest⟩ := foldlM_cons_eq_ok.1 h
    obtain ⟨rows, rfl⟩ := ih hrest
    unfold insertSource at hinsert
    cases hid : source.sourceId with
    | none => simp [hid] at hinsert
    | some sourceId =>
      simp only [hid, bind_eq_ok, ensure_eq_ok, Except.ok.injEq] at hinsert
      obtain ⟨-, -, rfl⟩ := hinsert
      exact ⟨rows, rfl⟩

theorem recordCall_runs (db : Db) (run : RunRecord) : (recordCall db run).runs = db.runs := by
  unfold recordCall
  split_ifs <;> rfl

theorem recordCall_dailyReports (db : Db) (run : RunRecord) :
    (recordCall db run).dailyReports = db.dailyReports := by
  unfold recordCall
  split_ifs <;> rfl

theorem not_committed_of_mem {run : RunRecord} {phases : List RunPhase} (h : run.phase ∈ phases)
    (hstaged : .dbCommitted ∉ phases) (hpublished : .published ∉ phases) : ¬ run.Committed := by
  rintro (hphase | hphase)
  · exact hstaged (hphase ▸ h)
  · exact hpublished (hphase ▸ h)

/-- An update that leaves the staged columns alone, and the status of a run that has succeeded. -/
theorem Quiet.of_columns {run run' : RunRecord} (hid : run'.runId = run.runId)
    (hdate : run'.targetDate = run.targetDate) (hkind : run'.runKind = run.runKind)
    (hphase : run'.phase = run.phase) (hreport : run'.reportJson = run.reportJson)
    (hmarkdown : run'.markdown = run.markdown)
    (hsha : run'.expectedSha256 = run.expectedSha256)
    (hprevious : run'.previousRunId = run.previousRunId)
    (hstatus : run.phase = .published → run.status = .succeeded → run'.status = .succeeded) :
    Quiet run run' where
  runId := hid
  targetDate := hdate
  runKind := hkind
  committed _ := ⟨hphase, hreport, hmarkdown, hsha, hprevious⟩
  uncommitted hnot := by
    unfold RunRecord.Committed at hnot ⊢
    rwa [hphase]
  succeeded := hstatus

/-- An operation that updates one run, which is not staged, and does not stage it. -/
theorem Calms.updateOne_of_uncommitted {p : RunRecord → Bool} {f : RunRecord → RunRecord}
    {code : String} (h : updateOne db p f code = .ok db') (hid : ∀ run, (f run).runId = run.runId)
    (hdate : ∀ run, (f run).targetDate = run.targetDate)
    (hkind : ∀ run, (f run).runKind = run.runKind)
    (hp : ∀ run ∈ db.runs, p run = true → ¬ run.Committed)
    (hf : ∀ run, p run = true → ¬ (f run).Committed) : Calms db db' := by
  obtain ⟨-, rfl⟩ := updateOne_eq_ok.1 h
  exact .of_update rfl rfl hid fun run hrun hpass =>
    .of_uncommitted (hid run) (hdate run) (hkind run) (hp run hrun hpass) (hf run hpass)

theorem Calms.insertSources {sources : List SourceDocument} {missing : ReportError}
    (h : insertSources db id sources missing = .ok db') : Calms db db' := by
  obtain ⟨rows, rfl⟩ := insertSources_eq_ok h
  exact .of_eq rfl rfl

theorem registerPersonalRun_calms (h : registerPersonalRun db id = .ok db') : Calms db db' := by
  simp only [registerPersonalRun, bind_eq_ok, Except.ok.injEq] at h
  obtain ⟨-, -, rfl⟩ := h
  exact .of_eq rfl rfl

theorem saveScanFailure_calms {snapshot : SnapshotRef} {sources : List SourceDocument}
    (h : saveScanFailure db id snapshot sources = .ok db') : Calms db db' := by
  obtain ⟨updated, hupdate, hinsert⟩ := bind_eq_ok.1 h
  refine .trans (.updateOne_of_uncommitted hupdate (fun _ => rfl) (fun _ => rfl) (fun _ => rfl)
    ?_ ?_) (.insertSources hinsert)
  · intro run _ hpass
    simp only [Bool.and_eq_true, decide_eq_true_eq] at hpass
    simp [RunRecord.Committed, hpass.2]
  · intro run hpass
    simp only [Bool.and_eq_true, decide_eq_true_eq] at hpass
    simp [RunRecord.Committed, hpass.2]

theorem dropInput_calms : Calms db (db.updateRun id RunRecord.dropInput) :=
  .of_update rfl rfl (fun _ => rfl) fun _ _ _ => .of_columns rfl rfl rfl rfl rfl rfl rfl rfl fun _ h => h

section Clock

variable [Chrono]

/-! ### Scanning and preparing -/

theorem setScanning_calms (h : setScanning db id now = .ok db') : Calms db db' := by
  refine .updateOne_of_uncommitted h (fun _ => rfl) (fun _ => rfl) (fun _ => rfl) ?_ ?_
  · intro run _ hpass
    simp only [Bool.and_eq_true, decide_eq_true_eq] at hpass
    simp [RunRecord.Committed, hpass.1.2]
  · intro run _
    simp [RunRecord.Committed]

theorem prepare_calms {snapshot : SnapshotRef} {fingerprint : Text} {sources : List SourceDocument}
    (h : prepare db id snapshot fingerprint sources now = .ok db') : Calms db db' := by
  obtain ⟨updated, hupdate, hinsert⟩ := bind_eq_ok.1 h
  refine .trans (.updateOne_of_uncommitted hupdate (fun _ => rfl) (fun _ => rfl) (fun _ => rfl)
    ?_ ?_) (.insertSources hinsert)
  · intro run _ hpass
    simp only [Bool.and_eq_true, decide_eq_true_eq] at hpass
    exact not_committed_of_mem hpass.1.2 (by decide) (by decide)
  · intro run _
    simp [RunRecord.Committed]

/-! ### Failing and resuming -/

theorem fail_calms {code : Text} {cancelled : Bool} : Calms db (fail db id code cancelled now) := by
  refine .of_update rfl rfl (fun _ => rfl) fun run _ hpass => ?_
  simp only [Bool.and_eq_true, decide_eq_true_eq] at hpass
  exact .of_columns rfl rfl rfl rfl rfl rfl rfl rfl fun _ hsucceeded => absurd hsucceeded hpass.2

theorem resume_calms (h : resume db id now = .ok db') : Calms db db' := by
  obtain ⟨updated, hupdate, hdb'⟩ := bind_eq_ok.1 h
  cases hdb'
  obtain ⟨-, rfl⟩ := updateOne_eq_ok.1 hupdate
  refine .of_update rfl rfl (fun _ => rfl) fun run _ hpass => ?_
  simp only [recoverable, Bool.and_eq_true, decide_eq_true_eq] at hpass
  exact .of_columns rfl rfl rfl rfl rfl rfl rfl rfl fun _ hsucceeded => absurd hsucceeded hpass.2.1.2

theorem recoverInterrupted_calms : Calms db (recoverInterrupted db now) := by
  refine .of_update rfl rfl (fun _ => rfl) fun run _ hpass => ?_
  simp only [interrupted, Bool.and_eq_true, decide_eq_true_eq] at hpass
  have hstatus : run.status ≠ .succeeded := by simp [hpass.1.1]
  exact .of_columns rfl rfl rfl rfl rfl rfl rfl rfl fun _ hsucceeded => absurd hsucceeded hstatus

/-! ### Ending without a publication -/

theorem finishObservation_calms {current : RunRecord}
    (h : finishObservation db id current now = .ok db') : Calms db db' := by
  refine .updateOne_of_uncommitted h (fun _ => rfl) (fun _ => rfl) (fun _ => rfl) ?_ ?_
  all_goals
    intro run
    simp only [Bool.and_eq_true, decide_eq_true_eq]
  · rintro - ⟨⟨-, hphase⟩, -⟩
    simp [RunRecord.Committed, hphase]
  · rintro ⟨⟨-, hphase⟩, -⟩
    simp [RunRecord.Committed, hphase]

theorem finishScanPreview_calms {quality : Text}
    (h : finishScanPreview db id quality now = .ok db') : Calms db db' := by
  refine .updateOne_of_uncommitted h (fun _ => rfl) (fun _ => rfl) (fun _ => rfl) ?_ ?_
  all_goals
    intro run
    simp only [Bool.and_eq_true, decide_eq_true_eq]
  · rintro - ⟨⟨-, hphase⟩, -⟩
    simp [RunRecord.Committed, hphase]
  · rintro ⟨⟨-, hphase⟩, -⟩
    simp [RunRecord.Committed, hphase]

theorem finishModelCheck_calms {result : ReportDocument}
    (h : finishModelCheck db id result now = .ok db') : Calms db db' := by
  refine .updateOne_of_uncommitted h (fun _ => rfl) (fun _ => rfl) (fun _ => rfl) ?_ ?_
  · intro run _ hpass
    simp only [Bool.and_eq_true, decide_eq_true_eq] at hpass
    exact not_committed_of_mem hpass.1.2 (by decide) (by decide)
  · intro run _
    simp [RunRecord.Committed]

/-- A preview is no report, so it is not staged. -/
theorem finishPreview_calms [ReportRules] [Sha256] (hdb : StoreInv db) {report : ReportDocument}
    {markdown : Text} (h : finishPreview db id report markdown now = .ok db') : Calms db db' := by
  obtain ⟨found, hfound, h⟩ := bind_eq_ok.1 h
  obtain ⟨_, hkind, h⟩ := bind_eq_ok.1 h
  obtain ⟨_, -, h⟩ := bind_eq_ok.1 h
  have hkind := ensure_eq_ok.1 hkind
  obtain ⟨hmem, hid⟩ := findRun_eq_some (readRun_eq_ok.1 hfound)
  refine .updateOne_of_uncommitted h (fun _ => rfl) (fun _ => rfl) (fun _ => rfl) ?_ ?_
  · intro run hrun hpass hcommitted
    simp only [Bool.and_eq_true, ofRun_eq_true] at hpass
    have hrow := hdb.eq_of_id hrun hmem (hpass.1.trans hid.symm)
    rw [← hrow, ((hdb.rows run hrun).staged hcommitted).1] at hkind
    exact absurd hkind (by decide +kernel)
  · intro run _
    simp [RunRecord.Committed]

/-! ### Calling the model -/

/-- A call is reserved for a run that calls the model. -/
theorem reserveCall_eq_ok {input : CallReservation} (h : reserveCall db input = .ok db') :
    ∃ run, db.findRun input.runId = some run ∧ run.status = .running ∧
      run.phase ∈ [.prepared, .generating] ∧ db.nextCall ≤ maxRowId ∧
      attemptsOf db run.generationId input.logicalStep < input.maxAttempts ∧
      input.maxAttempts ≤ 3 ∧
      db' = { recordCall db run with
        runs := updateWhere (ofRun input.runId)
          (fun run => { run with phase := .generating, updatedAt := Chrono.timestamp input.now })
          (recordCall db run).runs
        calls := (recordCall db run).calls ++
          [input.row db.nextCall run.generationId
            (attemptsOf db run.generationId input.logicalStep + 1)]
        nextCall := db.nextCall + 1 } := by
  simp only [reserveCall, bind_eq_ok, ensure_eq_ok, Except.ok.injEq] at h
  obtain ⟨run, hgenerating, -, -, -, ⟨-, hthree, hattempt⟩, -, hid, rfl⟩ := h
  unfold generatingRun at hgenerating
  cases hfound : (db.findRun input.runId).filter isGenerating with
  | none => simp [hfound] at hgenerating
  | some found =>
    simp only [hfound, Except.ok.injEq] at hgenerating
    subst hgenerating
    obtain ⟨hfind, hphase⟩ := Option.filter_eq_some_iff.1 hfound
    simp only [isGenerating, Bool.and_eq_true, decide_eq_true_eq] at hphase
    exact ⟨found, hfind, hphase.1, hphase.2, hid, hattempt, hthree, rfl⟩

/-- Reserving a call makes a run generate. -/
theorem reserveCall_runs {input : CallReservation} (h : reserveCall db input = .ok db') :
    ∃ run ∈ db.runs, run.runId = input.runId ∧ run.phase ∈ [.prepared, .generating] ∧
      run.status = .running ∧
      db'.runs = updateWhere (ofRun input.runId)
        (fun run => { run with phase := .generating, updatedAt := Chrono.timestamp input.now })
        db.runs ∧
      db'.dailyReports = db.dailyReports := by
  obtain ⟨run, hfind, hstatus, hphase, -, -, -, rfl⟩ := reserveCall_eq_ok h
  obtain ⟨hmem, hid⟩ := findRun_eq_some hfind
  exact ⟨run, hmem, hid, hphase, hstatus, congrArg (updateWhere _ _) (recordCall_runs db run),
    recordCall_dailyReports db run⟩

theorem reserveCall_calms (hids : (db.runs.map RunRecord.runId).Nodup) {input : CallReservation}
    (h : reserveCall db input = .ok db') : Calms db db' := by
  obtain ⟨found, hmem, hid, hphase, -, hruns, hdaily⟩ := reserveCall_runs h
  refine .of_update hruns hdaily (fun _ => rfl) ?_
  intro row hrow hpass
  have hrow : row = found :=
    List.inj_on_of_nodup_map hids hrow hmem ((ofRun_eq_true.1 hpass).trans hid.symm)
  refine .of_uncommitted rfl rfl rfl ?_ (by simp [RunRecord.Committed])
  rw [hrow]
  exact not_committed_of_mem hphase (by decide) (by decide)

/-! ### Compaction -/

/-- A run gives up its input and, when it is still running, has failed. -/
theorem expireInput_calms (hids : (db.runs.map RunRecord.runId).Nodup) {present : Text → Bool}
    {run : RunRecord} (hrun : run ∈ db.runs) : Calms db (expireInput now present db run) := by
  unfold expireInput
  split_ifs with hexpired hrunning
  · have hdropped : Calms db { db.updateRun run.runId RunRecord.dropInput with
        calls := updateWhere (fun call => decide (call.runId = run.runId))
          (fun call => { call with request := none, response := none }) db.calls } :=
      dropInput_calms.trans (.of_eq rfl rfl)
    refine hdropped.trans (.of_update rfl rfl (fun _ => rfl) ?_)
    intro row hrow hpass
    -- the row is the run that was read, without its input
    obtain ⟨old, hold, hquiet⟩ := hdropped.rows row hrow
    have hold : old = run := List.inj_on_of_nodup_map hids hold hrun
      (hquiet.runId.symm.trans (ofRun_eq_true.1 hpass))
    subst hold
    simp only [stillRunning, Bool.and_eq_true, decide_eq_true_eq] at hrunning
    have hnot : ¬ old.Committed := by
      rintro (hphase | hphase) <;> exact hrunning.2 (by simp [hphase])
    have hrow := hquiet.uncommitted hnot
    exact .of_uncommitted rfl rfl rfl hrow hrow
  · exact dropInput_calms.trans (.of_eq rfl rfl)
  · exact .refl db

/-- Compaction deletes no published run of a date. -/
theorem compactDetails_calms {run : RunRecord} : Calms db (compactDetails db run) := by
  unfold compactDetails
  cases hcurrent : db.isCurrent run.runId with
  | true =>
    simp only [if_true]
    exact dropInput_calms.trans (.of_eq rfl rfl)
  | false =>
    simp only [Bool.false_eq_true, if_false]
    refine .of_delete rfl rfl ?_
    intro row _ hpass
    rw [ofRun_eq_true.1 hpass]
    exact hcurrent

theorem compactRun_calms (now : ℤ) (present : Text → Bool) {c : Compaction} {run : RunRecord}
    (hids : (c.db.runs.map RunRecord.runId).Nodup) (hrun : run ∈ c.db.runs) :
    Calms c.db (compactRun now present c run).db := by
  unfold compactRun
  have hexpired : Calms c.db (expireInput now present c.db run) := expireInput_calms hids hrun
  dsimp only
  split_ifs
  · exact hexpired
  · exact hexpired.trans compactDetails_calms

theorem compactBatch_calms (now : ℤ) (present : Text → Bool) (ticks : ℕ) (ids : List Text)
    {c : Compaction} (hids : (c.db.runs.map RunRecord.runId).Nodup) :
    Calms c.db (compactBatch now present ticks ids c).2.db := by
  fun_induction compactBatch now present ticks ids c with
  | case1 ticks c => exact .refl c.db
  | case2 id ids c => exact .refl c.db
  | case3 ticks id ids c hnone => exact .refl c.db
  | case4 ticks id ids c run hfound ih =>
    have hrun : Calms c.db (compactRun now present { c with cursor := (run.createdAt, run.runId) }
        run).db :=
      compactRun_calms now present (c := { c with cursor := (run.createdAt, run.runId) }) hids
        (findRun_eq_some hfound).1
    exact hrun.trans (ih (hids.sublist hrun.ids))

theorem compactLoop_calms {present : Text → Bool} {fuel ticks : ℕ} {c : Compaction}
    (hids : (c.db.runs.map RunRecord.runId).Nodup) :
    Calms c.db (compactLoop now present fuel ticks c) := by
  induction fuel generalizing ticks c with
  | zero => exact .refl c.db
  | succ fuel ih =>
    cases ticks with
    | zero => exact .refl c.db
    | succ ticks =>
      unfold compactLoop
      cases hnext : nextBatch c with
      | nil => exact .refl c.db
      | cons id ids =>
        have hbatch := compactBatch_calms now present ticks (id :: ids) hids
        dsimp only
        rcases hresult : compactBatch now present ticks (id :: ids) c with ⟨_ | left, c'⟩
        · rw [hresult] at hbatch
          exact hbatch
        · rw [hresult] at hbatch
          exact hbatch.trans (ih (hids.sublist hbatch.ids))

theorem compactPersonal_calms (hids : (db.runs.map RunRecord.runId).Nodup) {present : Text → Bool}
    {ticks : ℕ} : Calms db (compactPersonal db now present ticks) :=
  compactLoop_calms (c := { db, detail := detailBytes db, cursor := ([], []) }) hids

end Clock

end DailyReport.Reports
