import DailyReport.Lib.Like
import DailyReport.Reports.Chain

/-!
# Runs that are offered for resumption

The next attempt for a date takes up the first of its unfinished runs (`pending`).  Such a run can
finish (`Finishable`) as long as it has its input and, once it is staged, the date still has the run
that it was staged on.  Three operations can take that away: a compaction that drops the input of a
run and spares the run, a publication that leaves another staged run of the date behind, and a
failure that hides that a run was superseded.

* `ready_step` : every operation that takes nothing away (`Harmless`) keeps what is offered finishable;
* `pending_finishable` : what holds in every run of such operations;
* `pending_stuck` : a compaction after eight days leaves a run that can not finish.
-/

namespace DailyReport.Reports

open Lib

/-! ### What is offered -/

def coveragePublish : Text := lit "coverage_publish:%"

/-- An unfinished report. -/
def RunRecord.unfinished (run : RunRecord) : Bool :=
  decide (run.runKind = lit "report") && decide (run.phase ∈ unfinishedPhases) &&
    decide (run.status ≠ .succeeded) && !like coveragePublish (run.regenerationReason.getD [])

/-- The run is offered for resumption. -/
def RunRecord.offered (run : RunRecord) : Bool :=
  run.unfinished && decide (run.errorCode ≠ some runSuperseded)

/-- Staged runs come first, and then the older ones. -/
def offerKey (run : RunRecord) : ℕ ×ₗ Text ×ₗ Text :=
  toLex (if run.phase = .dbCommitted then 0 else 1, toLex (run.createdAt, run.runId))

def pending (db : Db) (date : Option Text) : List RunRecord :=
  sortByKey offerKey (db.runs.filter fun run =>
    run.offered && date.all fun date => decide (run.targetDate = date))

theorem mem_pending {db : Db} {date : Option Text} {run : RunRecord} (h : run ∈ pending db date) :
    run ∈ db.runs ∧ run.offered = true := by
  rw [pending, mem_sortByKey, List.mem_filter, Bool.and_eq_true] at h
  exact ⟨h.1, h.2.1⟩

/-- The frozen input of the run is there. -/
def RunRecord.hasInput (run : RunRecord) : Bool := run.snapshotPath.isSome && run.snapshotSha256.isSome

/-- The run has its input or, if it is staged, the date still has the run that it was staged on. -/
def RunRecord.Finishable (current : Text → Option Text) (run : RunRecord) : Prop :=
  (run.phase ≠ .dbCommitted → run.hasInput = true) ∧
    (run.phase = .dbCommitted → run.previousRunId = current run.targetDate)

instance (current : Text → Option Text) (run : RunRecord) : Decidable (run.Finishable current) := by
  unfold RunRecord.Finishable
  infer_instance

/-- If the run is offered, it can finish. -/
def Ready (current : Text → Option Text) (run : RunRecord) : Prop :=
  run.offered = true → run.Finishable current

/-! ### What takes nothing away -/

section Condition

variable [Chrono]

/-- What compaction makes of a run before it decides about it. -/
def RunRecord.aged (now : ℤ) (present : Text → Bool) (run : RunRecord) : RunRecord :=
  if inputExpired now present run then
    if stillRunning run then run.dropInput.expire now else run.dropInput
  else run

/-- Compaction drops the input of a run, which is offered afterwards, and spares the run. -/
def strands (now : ℤ) (present : Text → Bool) (detail : ℕ) (run : RunRecord) : Bool :=
  inputExpired now present run && (run.aged now present).offered &&
    decide (run.phase ≠ .dbCommitted) && sparesRun now detail (run.aged now present)

/-- The runs that a batch of a compaction handles, with the details that are left then. -/
def batchSeen (now : ℤ) (present : Text → Bool) : ℕ → List Text → Compaction → List (ℕ × RunRecord)
  | _, [], _ => []
  | 0, _ :: _, _ => []
  | ticks + 1, id :: ids, c =>
    match c.db.findRun id with
    | none => []
    | some run =>
      (c.detail, run) :: batchSeen now present ticks ids
        (compactRun now present { c with cursor := (run.createdAt, run.runId) } run)

def loopSeen (now : ℤ) (present : Text → Bool) : ℕ → ℕ → Compaction → List (ℕ × RunRecord)
  | 0, _, _ => []
  | _, 0, _ => []
  | fuel + 1, ticks + 1, c =>
    match nextBatch c with
    | [] => []
    | id :: ids =>
      batchSeen now present ticks (id :: ids) c ++
        match compactBatch now present ticks (id :: ids) c with
        | (some ticks, c) => loopSeen now present fuel ticks c
        | (none, _) => []

/-- The runs that a compaction handles. -/
def compactionSeen (db : Db) (now : ℤ) (present : Text → Bool) (ticks : ℕ) : List (ℕ × RunRecord) :=
  loopSeen now present (db.runs.length + 1) ticks
    { db, detail := detailBytes db, cursor := ([], []) }

/-- The publication supersedes the other staged runs of its date. -/
def LeavesNoneBehind (db : Db) (id verified : Text) : Prop :=
  ∀ run ∈ db.runs, run.runId = id → run.phase = .dbCommitted → run.expectedSha256 = some verified →
    db.currentRunId run.targetDate = run.previousRunId →
    ∀ other ∈ db.runs, other.offered = true → other.phase = .dbCommitted →
      other.targetDate = run.targetDate → other.runId ≠ id →
      run.regenerationReason.isSome ∧ supersededBy run other = true

/-- The failure does not hide that a run that can not finish was superseded. -/
def RevivesNone (db : Db) (id code : Text) : Prop :=
  ∀ run ∈ db.runs, run.runId = id → run.unfinished = true → run.errorCode = some runSuperseded →
    code ≠ runSuperseded → run.Finishable db.currentRunId

instance (db : Db) (id verified : Text) : Decidable (LeavesNoneBehind db id verified) :=
  decidable_of_iff
    (∀ run ∈ db.runs.filter fun run : RunRecord => decide (run.runId = id ∧ run.phase = .dbCommitted ∧
        run.expectedSha256 = some verified ∧ db.currentRunId run.targetDate = run.previousRunId),
      ∀ other ∈ db.runs.filter fun other : RunRecord => decide (other.offered = true ∧
          other.phase = .dbCommitted ∧ other.targetDate = run.targetDate ∧ other.runId ≠ id),
        run.regenerationReason.isSome ∧ supersededBy run other = true)
    (by simp only [LeavesNoneBehind, List.mem_filter, decide_eq_true_eq, and_imp])

instance (db : Db) (id code : Text) : Decidable (RevivesNone db id code) := by
  unfold RevivesNone
  infer_instance

/-- The operation takes from no run what it needs to finish. -/
def Harmless (s : System) : Event → Prop
  | .compact now present ticks =>
    ∀ seen ∈ compactionSeen s.db now present ticks, strands now present seen.1 seen.2 = false
  | .markPublished id verified .. => LeavesNoneBehind s.db id verified
  | .fail id code .. => RevivesNone s.db id code
  | _ => True

instance (s : System) (e : Event) : Decidable (Harmless s e) := by
  unfold Harmless
  split <;> infer_instance

end Condition

/-! ### Updates of runs -/

section Updates

variable {current : Text → Option Text} {run run' : RunRecord} {db db' : Db}

theorem ready_of_phase (h : run.phase ∉ unfinishedPhases) : Ready current run := by
  intro hoffered
  simp [RunRecord.offered, RunRecord.unfinished, h] at hoffered

theorem ready_of_succeeded (h : run.status = .succeeded) : Ready current run := by
  intro hoffered
  simp [RunRecord.offered, RunRecord.unfinished, h] at hoffered

theorem ready_of_kind (h : run.runKind ≠ lit "report") : Ready current run := by
  intro hoffered
  simp [RunRecord.offered, RunRecord.unfinished, h] at hoffered

theorem ready_of_superseded (h : run.errorCode = some runSuperseded) : Ready current run := by
  intro hoffered
  simp [RunRecord.offered, h] at hoffered

/-- An offered run stays as it is, or is not offered any more. -/
theorem Ready.of_offered (h : Ready current run) (hoffered : run'.offered = true → run.offered = true)
    (hphase : run'.phase = .dbCommitted ↔ run.phase = .dbCommitted)
    (hinput : run.hasInput = true → run'.hasInput = true)
    (hprevious : run'.previousRunId = run.previousRunId) (hdate : run'.targetDate = run.targetDate) :
    Ready current run' := by
  intro hoffered'
  obtain ⟨hearly, hstaged⟩ := h (hoffered hoffered')
  refine ⟨fun hnot => hinput (hearly fun hcommitted => hnot (hphase.2 hcommitted)), ?_⟩
  intro hcommitted
  rw [hprevious, hdate]
  exact hstaged (hphase.1 hcommitted)

/-- Every run that is offered can finish. -/
def AllReady (db : Db) : Prop := ∀ run ∈ db.runs, Ready db.currentRunId run

theorem currentRunId_congr (hdaily : db'.dailyReports = db.dailyReports) :
    db'.currentRunId = db.currentRunId := by
  funext date
  simp only [Db.currentRunId, hdaily]

theorem AllReady.of_eq (h : AllReady db) (hruns : db'.runs = db.runs)
    (hdaily : db'.dailyReports = db.dailyReports) : AllReady db' := by
  intro run hrun
  rw [currentRunId_congr hdaily]
  exact h run (hruns ▸ hrun)

theorem AllReady.of_update (h : AllReady db) {p : RunRecord → Bool} {f : RunRecord → RunRecord}
    (hruns : db'.runs = updateWhere p f db.runs) (hdaily : db'.dailyReports = db.dailyReports)
    (hf : ∀ run ∈ db.runs, p run = true → Ready db.currentRunId run →
      Ready db.currentRunId (f run)) : AllReady db' := by
  intro run' hrun'
  rw [currentRunId_congr hdaily]
  rw [hruns] at hrun'
  rcases mem_updateWhere.1 hrun' with ⟨hrun, -⟩ | ⟨run, hrun, hpass, rfl⟩
  · exact h run' hrun
  · exact hf run hrun hpass (h run hrun)

theorem AllReady.updateOne (h : AllReady db) {p : RunRecord → Bool} {f : RunRecord → RunRecord}
    {code : String} (hupdate : updateOne db p f code = .ok db')
    (hf : ∀ run ∈ db.runs, p run = true → Ready db.currentRunId run →
      Ready db.currentRunId (f run)) : AllReady db' := by
  obtain ⟨-, rfl⟩ := updateOne_eq_ok.1 hupdate
  exact h.of_update rfl rfl hf

end Updates

/-! ### Operations -/

section Operations

variable [Chrono] {db db' : Db} {id : Text} {now : ℤ}

theorem prepare_ready (h : AllReady db) {snapshot : SnapshotRef} {fingerprint : Text}
    {sources : List SourceDocument} (hop : prepare db id snapshot fingerprint sources now = .ok db') :
    AllReady db' := by
  obtain ⟨updated, hupdate, hinsert⟩ := bind_eq_ok.1 hop
  obtain ⟨rows, rfl⟩ := insertSources_eq_ok hinsert
  refine AllReady.of_eq (h.updateOne hupdate fun run _ _ _ _ => ?_) rfl rfl
  exact ⟨fun _ => rfl, fun hphase => by cases hphase⟩

omit [Chrono] in
theorem saveScanFailure_ready (h : AllReady db) {snapshot : SnapshotRef}
    {sources : List SourceDocument} (hop : saveScanFailure db id snapshot sources = .ok db') :
    AllReady db' := by
  obtain ⟨updated, hupdate, hinsert⟩ := bind_eq_ok.1 hop
  obtain ⟨rows, rfl⟩ := insertSources_eq_ok hinsert
  refine AllReady.of_eq (h.updateOne hupdate fun run _ hpass _ => ready_of_phase ?_) rfl rfl
  simp only [Bool.and_eq_true, decide_eq_true_eq] at hpass
  show run.phase ∉ unfinishedPhases
  rw [hpass.2]
  decide

theorem reserveCall_ready (hids : (db.runs.map RunRecord.runId).Nodup) (h : AllReady db)
    {input : CallReservation} (hop : reserveCall db input = .ok db') : AllReady db' := by
  obtain ⟨found, hmem, hid, hphase, -, hruns, hdaily⟩ := reserveCall_runs hop
  refine h.of_update hruns hdaily fun run hrun hpass hready => ?_
  have hrow : run = found :=
    List.inj_on_of_nodup_map hids hrun hmem ((ofRun_eq_true.1 hpass).trans hid.symm)
  subst hrow
  have hunfinished : run.phase ∈ unfinishedPhases := by
    rcases List.mem_cons.1 hphase with hphase | hphase
    · simp [unfinishedPhases, hphase]
    · simp [unfinishedPhases, List.mem_singleton.1 hphase]
  have hearly : run.phase ≠ .dbCommitted := fun hcommitted => by simp [hcommitted] at hphase
  refine hready.of_offered ?_ (by simp [hearly]) (fun hinput => hinput) rfl rfl
  intro hoffered
  simp only [RunRecord.offered, RunRecord.unfinished, Bool.and_eq_true, decide_eq_true_eq]
    at hoffered ⊢
  exact ⟨⟨⟨⟨hoffered.1.1.1.1, hunfinished⟩, hoffered.1.1.2⟩, hoffered.1.2⟩, hoffered.2⟩

theorem resume_ready (h : AllReady db) (hop : resume db id now = .ok db') : AllReady db' := by
  obtain ⟨updated, hupdate, hdb'⟩ := bind_eq_ok.1 hop
  cases hdb'
  refine AllReady.of_eq (h.updateOne hupdate fun run _ hpass hready => ?_) rfl rfl
  simp only [recoverable, Bool.and_eq_true, decide_eq_true_eq] at hpass
  refine hready.of_offered ?_ Iff.rfl (fun hinput => hinput) rfl rfl
  intro hoffered
  simp only [RunRecord.offered, RunRecord.unfinished, Bool.and_eq_true, decide_eq_true_eq]
    at hoffered ⊢
  exact ⟨⟨⟨hoffered.1.1.1, hpass.2.1.2⟩, hoffered.1.2⟩, hpass.2.2⟩

theorem fail_ready (h : AllReady db) {code : Text} {cancelled : Bool} (hrevive : RevivesNone db id code) :
    AllReady (fail db id code cancelled now) := by
  refine h.of_update rfl rfl fun run hrun hpass hready => ?_
  simp only [Bool.and_eq_true, decide_eq_true_eq, ofRun_eq_true] at hpass
  intro hoffered
  simp only [RunRecord.offered, RunRecord.unfinished, Bool.and_eq_true, decide_eq_true_eq] at hoffered
  have hunfinished : run.unfinished = true := by
    simp only [RunRecord.unfinished, Bool.and_eq_true, decide_eq_true_eq]
    exact ⟨⟨hoffered.1.1.1, hpass.2⟩, hoffered.1.2⟩
  by_cases hsuperseded : run.errorCode = some runSuperseded
  · exact hrevive run hrun hpass.1 hunfinished hsuperseded fun hcode => hoffered.2 (by rw [hcode])
  · exact hready (by simp [RunRecord.offered, hunfinished, hsuperseded])

theorem recoverInterrupted_ready (h : AllReady db) : AllReady (recoverInterrupted db now) := by
  refine h.of_update rfl rfl fun run _ hpass _ => ?_
  simp only [interrupted, Bool.and_eq_true, Bool.or_eq_true, decide_eq_true_eq] at hpass
  rcases hpass.2 with hphase | hkind
  · refine ready_of_phase ?_
    show run.phase ∉ unfinishedPhases
    rcases List.mem_cons.1 hphase with hphase | hphase
    · simp [unfinishedPhases, hphase]
    · simp [unfinishedPhases, List.mem_singleton.1 hphase]
  · exact ready_of_kind hkind

/-! ### Compaction -/

/-- What a compaction relies on, from run to run. -/
structure CompactReady (db : Db) : Prop where
  ids_nodup : (db.runs.map RunRecord.runId).Nodup
  published : ∀ run ∈ db.runs, db.isCurrent run.runId = true → run.phase = .published
  ready : AllReady db

omit [Chrono] in
theorem CompactReady.of_calms (h : CompactReady db) (hcalms : Calms db db') (hready : AllReady db') :
    CompactReady db' where
  ids_nodup := h.ids_nodup.sublist hcalms.ids
  published run' hrun' hcurrent := by
    obtain ⟨run, hrun, hquiet⟩ := hcalms.rows run' hrun'
    rw [hcalms.isCurrent_eq, hquiet.runId] at hcurrent
    have hphase := h.published run hrun hcurrent
    exact (hquiet.committed (.inr hphase)).1.trans hphase
  ready := hready

/-- The rows after a run has aged. -/
theorem mem_expireInput (hids : (db.runs.map RunRecord.runId).Nodup) {present : Text → Bool}
    {run row : RunRecord} (hrun : run ∈ db.runs) (hrow : row ∈ (expireInput now present db run).runs) :
    row = run.aged now present ∨ row ∈ db.runs ∧ row.runId ≠ run.runId := by
  have hone : ∀ other ∈ db.runs, ofRun run.runId other = true → other = run := fun other hother hid =>
    List.inj_on_of_nodup_map hids hother hrun (ofRun_eq_true.1 hid)
  unfold expireInput at hrow
  unfold RunRecord.aged
  split_ifs at hrow ⊢ with hexpired hrunning
  · rcases mem_updateWhere.1 hrow with ⟨hrow, hne⟩ | ⟨dropped, hdropped, hpass, rfl⟩
    · rcases mem_updateWhere.1 hrow with ⟨hrow, hne⟩ | ⟨old, hold, hpass, rfl⟩
      · exact .inr ⟨hrow, of_decide_eq_false hne⟩
      · exact absurd (ofRun_eq_true.1 hpass) (of_decide_eq_false hne)
    · rcases mem_updateWhere.1 hdropped with ⟨-, hne⟩ | ⟨old, hold, hpass', rfl⟩
      · exact absurd (ofRun_eq_true.1 hpass) (of_decide_eq_false hne)
      · rw [hone old hold hpass']
        exact .inl rfl
  · rcases mem_updateWhere.1 hrow with ⟨hrow, hne⟩ | ⟨old, hold, hpass, rfl⟩
    · exact .inr ⟨hrow, of_decide_eq_false hne⟩
    · rw [hone old hold hpass]
      exact .inl rfl
  · by_cases hid : row.runId = run.runId
    · exact .inl (hone row hrow (ofRun_eq_true.2 hid))
    · exact .inr ⟨hrow, hid⟩

/-- Aging deletes no row. -/
theorem expireInput_ids (now : ℤ) (present : Text → Bool) (db : Db) (run : RunRecord) :
    (expireInput now present db run).runs.map RunRecord.runId = db.runs.map RunRecord.runId := by
  have hdrop : (updateWhere (ofRun run.runId) RunRecord.dropInput db.runs).map RunRecord.runId =
      db.runs.map RunRecord.runId := map_updateWhere _ fun _ => rfl
  unfold expireInput
  split_ifs
  · refine Eq.trans ?_ hdrop
    exact map_updateWhere (f := RunRecord.expire now) RunRecord.runId fun _ => rfl
  · exact hdrop
  · rfl

/-- Aging keeps the columns that tell whether a staged run can finish. -/
theorem aged_columns (now : ℤ) (present : Text → Bool) (run : RunRecord) :
    (run.aged now present).runId = run.runId ∧ (run.aged now present).phase = run.phase ∧
      (run.aged now present).targetDate = run.targetDate ∧
      (run.aged now present).previousRunId = run.previousRunId := by
  unfold RunRecord.aged
  split_ifs <;> exact ⟨rfl, rfl, rfl, rfl⟩

/-- The row of a run that has aged. -/
theorem findRun_expireInput (hids : (db.runs.map RunRecord.runId).Nodup) (present : Text → Bool)
    {run : RunRecord} (hrun : run ∈ db.runs) :
    (expireInput now present db run).findRun run.runId = some (run.aged now present) := by
  have hids' : ((expireInput now present db run).runs.map RunRecord.runId).Nodup := by
    rw [expireInput_ids]
    exact hids
  have hthere : run.runId ∈ (expireInput now present db run).runs.map RunRecord.runId := by
    rw [expireInput_ids]
    exact List.mem_map_of_mem hrun
  obtain ⟨row, hmem, hid⟩ := List.mem_map.1 hthere
  rcases mem_expireInput hids hrun hmem with rfl | ⟨-, hne⟩
  · rw [← hid]
    exact findRun_of_mem hids' hmem
  · exact absurd hid hne

/-- What compaction makes of a run: it ages, and its details go unless it is spared. -/
theorem compactRun_eq {present : Text → Bool} {c : Compaction} {run : RunRecord}
    (hids : (c.db.runs.map RunRecord.runId).Nodup) (hrun : run ∈ c.db.runs) :
    compactRun now present c run =
      if sparesRun now c.detail (run.aged now present) then
        { c with db := expireInput now present c.db run }
      else { c with
        db := compactDetails (expireInput now present c.db run) (run.aged now present)
        detail := c.detail - removedBytes (expireInput now present c.db run)
          (run.aged now present) } := by
  simp only [compactRun, findRun_expireInput hids present hrun, Option.getD_some]

/-- A run is spared with its input, or it is not offered. -/
theorem aged_ready {current : Text → Option Text} {present : Text → Bool} {detail : ℕ}
    {run : RunRecord} (h : Ready current run) (hstrands : strands now present detail run = false)
    (hspared : sparesRun now detail (run.aged now present) = true) :
    Ready current (run.aged now present) := by
  obtain ⟨-, hphase, hdate, hprevious⟩ := aged_columns now present run
  cases hexpired : inputExpired now present run with
  | false =>
    have haged : run.aged now present = run := by simp [RunRecord.aged, hexpired]
    rwa [haged]
  | true =>
    intro hoffered
    have hcommitted : run.phase = .dbCommitted := by
      simpa [strands, hexpired, hoffered, hspared] using hstrands
    have hrunning : stillRunning run = false := by simp [stillRunning, hcommitted]
    have haged : run.aged now present = run.dropInput := by
      simp [RunRecord.aged, hexpired, hrunning]
    rw [haged] at hoffered
    refine ⟨fun hnot => absurd (hphase.trans hcommitted) hnot, fun _ => ?_⟩
    rw [hprevious, hdate]
    exact (h hoffered).2 hcommitted

/-- The rows after the details of a run are compacted. -/
theorem mem_compactDetails {run row : RunRecord} (hrow : row ∈ (compactDetails db run).runs) :
    row ∈ db.runs ∧ row.runId ≠ run.runId ∨
      ∃ old ∈ db.runs, old.runId = run.runId ∧ db.isCurrent run.runId = true ∧ old.dropInput = row := by
  unfold compactDetails at hrow
  cases hcurrent : db.isCurrent run.runId with
  | true =>
    simp only [hcurrent, if_true] at hrow
    rcases mem_updateWhere.1 hrow with ⟨hrow, hne⟩ | ⟨old, hold, hpass, hdrop⟩
    · exact .inl ⟨hrow, of_decide_eq_false hne⟩
    · exact .inr ⟨old, hold, ofRun_eq_true.1 hpass, rfl, hdrop⟩
  | false =>
    simp only [hcurrent, Bool.false_eq_true, if_false] at hrow
    obtain ⟨hrow, hne⟩ := mem_deleteWhere.1 hrow
    exact .inl ⟨hrow, of_decide_eq_false hne⟩

theorem compactRun_ready {present : Text → Bool} {c : Compaction} {run : RunRecord}
    (h : CompactReady c.db) (hrun : run ∈ c.db.runs)
    (hstrands : strands now present c.detail run = false) :
    CompactReady (compactRun now present c run).db := by
  have hcalms := compactRun_calms now present h.ids_nodup hrun
  refine h.of_calms hcalms ?_
  have hexpired : Calms c.db (expireInput now present c.db run) := expireInput_calms h.ids_nodup hrun
  have hcurrent : (expireInput now present c.db run).currentRunId = c.db.currentRunId :=
    currentRunId_congr hexpired.daily
  have hrow : (expireInput now present c.db run).findRun run.runId = some (run.aged now present) :=
    findRun_expireInput h.ids_nodup present hrun
  -- the other runs are as before
  have hothers : ∀ row ∈ (expireInput now present c.db run).runs, row ≠ run.aged now present →
      Ready (expireInput now present c.db run).currentRunId row := by
    intro row hmem hne
    rw [hcurrent]
    rcases mem_expireInput h.ids_nodup hrun hmem with rfl | ⟨hmem, -⟩
    · exact absurd rfl hne
    · exact h.ready row hmem
  rw [compactRun_eq h.ids_nodup hrun]
  split_ifs with hspared
  · intro row hmem
    by_cases hagedRow : row = run.aged now present
    · subst hagedRow
      show Ready (expireInput now present c.db run).currentRunId _
      rw [hcurrent]
      exact aged_ready (h.ready run hrun) hstrands hspared
    · exact hothers row hmem hagedRow
  · intro row hmem
    have hdetails : Calms (expireInput now present c.db run) (compactDetails
      (expireInput now present c.db run) (run.aged now present)) := compactDetails_calms
    show Ready (compactDetails _ _).currentRunId row
    rw [currentRunId_congr hdetails.daily]
    -- the row of the run is deleted, unless it is the published run of its date
    rcases mem_compactDetails hmem with ⟨hmem, hne⟩ | ⟨old, hold, hid, hisCurrent, rfl⟩
    · refine hothers row hmem fun heq => hne ?_
      rw [heq]
    · refine ready_of_phase ?_
      have holdAged : old = run.aged now present := List.inj_on_of_nodup_map
        (h.ids_nodup.sublist hexpired.ids) hold (findRun_eq_some hrow).1 hid
      obtain ⟨hagedId, hagedPhase, -, -⟩ := aged_columns now present run
      rw [hexpired.isCurrent_eq, hagedId] at hisCurrent
      show old.phase ∉ unfinishedPhases
      rw [holdAged, hagedPhase, h.published run hrun hisCurrent]
      decide

theorem compactBatch_ready (now : ℤ) (present : Text → Bool) (ticks : ℕ) (ids : List Text)
    {c : Compaction} (h : CompactReady c.db)
    (hseen : ∀ seen ∈ batchSeen now present ticks ids c, strands now present seen.1 seen.2 = false) :
    CompactReady (compactBatch now present ticks ids c).2.db := by
  fun_induction compactBatch now present ticks ids c with
  | case1 ticks c => exact h
  | case2 id ids c => exact h
  | case3 ticks id ids c hnone => exact h
  | case4 ticks id ids c run hfound ih =>
    simp only [batchSeen, hfound, List.forall_mem_cons] at hseen
    have hrun : CompactReady (compactRun now present { c with cursor := (run.createdAt, run.runId) }
        run).db :=
      compactRun_ready (c := { c with cursor := (run.createdAt, run.runId) }) h
        (findRun_eq_some hfound).1 hseen.1
    exact ih hrun hseen.2

theorem compactLoop_ready {present : Text → Bool} {fuel ticks : ℕ} {c : Compaction}
    (h : CompactReady c.db)
    (hseen : ∀ seen ∈ loopSeen now present fuel ticks c, strands now present seen.1 seen.2 = false) :
    CompactReady (compactLoop now present fuel ticks c) := by
  induction fuel generalizing ticks c with
  | zero => exact h
  | succ fuel ih =>
    cases ticks with
    | zero => exact h
    | succ ticks =>
      unfold compactLoop
      unfold loopSeen at hseen
      cases hnext : nextBatch c with
      | nil => exact h
      | cons id ids =>
        simp only [hnext, List.mem_append] at hseen
        have hbatch := compactBatch_ready now present ticks (id :: ids) h fun seen hmem => hseen seen (.inl hmem)
        dsimp only
        rcases hresult : compactBatch now present ticks (id :: ids) c with ⟨_ | left, c'⟩
        · rw [hresult] at hbatch
          exact hbatch
        · rw [hresult] at hbatch hseen
          exact ih hbatch fun seen hmem => hseen seen (.inr hmem)

end Operations

/-! ### Runs of the store -/

section Runs

variable [Chrono] [ReportRules] [Sha256] {s : System} {db' : Db}

omit [Chrono] [ReportRules] in
theorem ChainInv.isCurrent_published (h : ChainInv s) :
    ∀ run ∈ s.db.runs, s.db.isCurrent run.runId = true → run.phase = .published := by
  intro run hrun hcurrent
  obtain ⟨row, hrow, hid⟩ := List.any_eq_true.1 hcurrent
  obtain ⟨other, hother, hotherId, -, hphase⟩ := h.daily row hrow
  have hsame : run.runId = other.runId :=
    Option.some.inj ((of_decide_eq_true hid).symm.trans hotherId)
  rw [h.store.eq_of_id hrun hother hsame]
  exact hphase

omit [ReportRules] in
theorem stage_ready (h : ChainInv s) (hready : AllReady s.db) {run : RunRecord}
    (hrun : run ∈ s.db.runs) {staged : StagedReport} {now : ℤ} {previous : Option (Text × Text)}
    (hprevious : previousRevision s.db run.targetDate = .ok previous)
    (hruns : db'.runs = (s.db.updateRun run.runId (RunRecord.stage staged previous now)).runs)
    (hdaily : db'.dailyReports = s.db.dailyReports) : AllReady db' := by
  refine hready.of_update hruns hdaily fun row hrow hpass _ _ => ?_
  rw [h.store.eq_of_id hrow hrun (ofRun_eq_true.1 hpass)]
  exact ⟨fun hnot => absurd rfl hnot, fun _ => h.previousRevision_eq hprevious⟩

omit [ReportRules] [Sha256] in
/-- Only the published run of the date of the run changes. -/
theorem publish_ready (hready : AllReady s.db) {run : RunRecord}
    (hrun : run ∈ s.db.runs) (hphase : run.phase = .dbCommitted) {report : ReportDocument}
    {version now : ℤ} {verified databaseNow updatedAt : Text}
    (hverified : run.expectedSha256 = some verified)
    (hprevious : s.db.currentRunId run.targetDate = run.previousRunId)
    (hruns : db'.runs = publishedRuns run now s.db.runs)
    (hdaily : db'.dailyReports = upsertDaily (run.dailyRow report version) databaseNow updatedAt
      s.db.dailyReports)
    (hbehind : LeavesNoneBehind s.db run.runId verified) : AllReady db' := by
  have hcurrent : ∀ date, date ≠ run.targetDate → db'.currentRunId date = s.db.currentRunId date := by
    intro date hdate
    unfold Db.currentRunId
    rw [hdaily, find?_upsertDaily_of_ne _ _ _ hdate]
  have hkeep : ∀ row ∈ s.db.runs, row.runId ≠ run.runId →
      ¬ (run.regenerationReason.isSome ∧ supersededBy run row = true) →
      Ready db'.currentRunId row := by
    intro row hrow hne hleft hoffered
    obtain ⟨hearly, hstaged⟩ := hready row hrow hoffered
    refine ⟨hearly, fun hcommitted => ?_⟩
    by_cases hdate : row.targetDate = run.targetDate
    · exact absurd (hbehind run hrun rfl hphase hverified hprevious row hrow hoffered hcommitted hdate
        hne) hleft
    · rw [hcurrent _ hdate]
      exact hstaged hcommitted
  intro row hrow
  rw [hruns, publishedRuns] at hrow
  have hpublished : ∀ row ∈ updateWhere (ofRun run.runId) (RunRecord.publish now) s.db.runs,
      ¬ (run.regenerationReason.isSome ∧ supersededBy run row = true) →
      Ready db'.currentRunId row := by
    intro row hrow hleft
    rcases mem_updateWhere.1 hrow with ⟨hrow, hne⟩ | ⟨old, -, -, rfl⟩
    · exact hkeep row hrow (of_decide_eq_false hne) hleft
    · exact ready_of_succeeded rfl
  split_ifs at hrow with hreason
  · rcases mem_updateWhere.1 hrow with ⟨hrow, hleft⟩ | ⟨old, -, -, rfl⟩
    · exact hpublished row hrow fun hboth => by simp [hboth.2] at hleft
    · exact ready_of_superseded rfl
  · exact hpublished row hrow fun hboth => hreason hboth.1

/-- A harmless operation keeps what is offered finishable. -/
theorem ready_step (h : ChainInv s) (hready : AllReady s.db) {e : Event} {s' : System}
    (hharmless : Harmless s e) (hstep : step s e = .ok s') : AllReady s'.db := by
  obtain ⟨db, hop, rfl⟩ := step_eq_ok.1 hstep
  have hnew : ∀ {context : RunContext} {kind generationId : Text} {reason : Option Text} {now : ℤ}
      {personal : Bool} {db : Db},
      createRun s.db context kind generationId reason now personal = .ok db → AllReady db := by
    intro context kind generationId reason now personal db hcreate run hrun
    obtain ⟨-, hruns, hdaily⟩ := createRun_eq_ok hcreate
    rw [currentRunId_congr hdaily]
    rw [hruns, List.mem_append, List.mem_singleton] at hrun
    rcases hrun with hrun | rfl
    · exact hready run hrun
    · exact ready_of_phase (by simp [RunRecord.new, unfinishedPhases])
  cases e with
  | create context kind generationId reason now => exact hnew hop
  | createPersonal context kind generationId reason now =>
    obtain ⟨_, -, hcreate⟩ := bind_eq_ok.1 hop
    exact hnew hcreate
  | registerPersonalRun id =>
    simp only [operate, registerPersonalRun, bind_eq_ok, Except.ok.injEq] at hop
    obtain ⟨-, -, rfl⟩ := hop
    exact hready.of_eq rfl rfl
  | setScanning id now =>
    exact hready.updateOne hop fun run _ _ _ => ready_of_phase (by simp [unfinishedPhases])
  | saveScanFailure id snapshot sources => exact saveScanFailure_ready hready hop
  | prepare id snapshot fingerprint sources now => exact prepare_ready hready hop
  | reserveCall input => exact reserveCall_ready h.store.ids_nodup hready hop
  | resume id now => exact resume_ready hready hop
  | fail id code cancelled now =>
    cases hop
    exact fail_ready hready hharmless
  | recoverInterrupted now =>
    cases hop
    exact recoverInterrupted_ready hready
  | stageReport id staged now =>
    obtain ⟨run, previous, hfind, -, -, -, -, hprevious, hruns, hdaily⟩ := stageReport_eq_ok hop
    obtain ⟨hrun, rfl⟩ := findRun_eq_some hfind
    exact stage_ready h hready hrun hprevious hruns hdaily
  | markPublished id verified now databaseNow =>
    obtain ⟨run, report, version, hfind, hphase, hverified, -, hprevious, rfl⟩ :=
      markDailyPublished_eq_ok (markPublished_eq_ok h.store hop)
    obtain ⟨hrun, rfl⟩ := findRun_eq_some hfind
    exact publish_ready hready hrun hphase hverified hprevious rfl rfl hharmless
  | finishPreview id report markdown now =>
    obtain ⟨_, -, hop⟩ := bind_eq_ok.1 hop
    obtain ⟨_, -, hop⟩ := bind_eq_ok.1 hop
    obtain ⟨_, -, hop⟩ := bind_eq_ok.1 hop
    exact hready.updateOne hop fun run _ _ _ => ready_of_succeeded rfl
  | finishObservation id current now =>
    exact hready.updateOne hop fun run _ _ _ => ready_of_succeeded rfl
  | finishScanPreview id quality now =>
    exact hready.updateOne hop fun run _ _ _ => ready_of_succeeded rfl
  | finishModelCheck id result now =>
    exact hready.updateOne hop fun run _ _ _ => ready_of_succeeded rfl
  | compact now present ticks =>
    cases hop
    exact (compactLoop_ready (c := { db := s.db, detail := detailBytes s.db, cursor := ([], []) })
      ⟨h.store.ids_nodup, h.isCurrent_published, hready⟩ hharmless).ready

/-- A staged run that can finish is published. -/
theorem markPublished_accepts (h : ChainInv s) {run : RunRecord} (hrun : run ∈ s.db.runs)
    (hphase : run.phase = .dbCommitted)
    (hprevious : run.previousRunId = s.db.currentRunId run.targetDate) {verified : Text}
    (hverified : run.expectedSha256 = some verified) (now : ℤ) (databaseNow : Text) :
    ∃ db, markPublished s.db run.runId verified now databaseNow = .ok db := by
  obtain ⟨report, version, hreport, hversion⟩ := (h.store.rows run hrun).report (.inl hphase)
  have hkind : run.runKind ∉ [lit "weekly", lit "monthly"] := by
    rw [((h.store.rows run hrun).staged (.inl hphase)).1]
    decide +kernel
  have hread : readRun s.db run.runId = .ok run :=
    readRun_eq_ok.2 (findRun_of_mem h.store.ids_nodup hrun)
  have hchecked : ensureVerified run verified "正文发布校验未通过" = .ok () := ensure_eq_ok.2 ⟨hphase, hverified⟩
  have hcurrent : ensure (s.db.currentRunId run.targetDate = run.previousRunId)
      (reportError "PUBLICATION_VERSION_CHANGED" "正式版本在发布期间改变") = .ok () :=
    ensure_eq_ok.2 hprevious.symm
  have hstaged : stagedReport run "缺少已提交正文" = .ok report := by simp [stagedReport, hreport]
  simp only [markPublished, hread, markDailyPublished, bind, Except.bind, if_neg hkind, hchecked,
    hcurrent, hstaged, hversion]
  exact ⟨_, rfl⟩

/-- **What is offered can finish**, in every run of harmless operations: a run that is not staged has
its input, and a staged run is on the published run of its date and is published when its text is
verified. -/
theorem pending_finishable (events : List Event)
    (hharmless : AllSteps step Harmless System.init events) (date : Option Text) :
    ∀ run ∈ pending (runEvents events).db date,
      (run.phase ≠ .dbCommitted → run.hasInput = true) ∧
      (run.phase = .dbCommitted →
        run.previousRunId = (runEvents events).db.currentRunId run.targetDate ∧
        ∀ verified now databaseNow, run.expectedSha256 = some verified →
          ∃ db, markPublished (runEvents events).db run.runId verified now databaseNow = .ok db) := by
  have hinv : ChainInv (runEvents events) ∧ AllReady (runEvents events).db := by
    refine applyAll_invariant_of (I := fun s => ChainInv s ∧ AllReady s.db) ?_ events _ ?_ hharmless
    · rintro s e s' ⟨hchain, hready⟩ hC hstep
      exact ⟨hchain.step hstep, ready_step hchain hready hC hstep⟩
    · exact ⟨chainInv_init, by simp [AllReady, System.init, Db.empty]⟩
  intro run hrun
  obtain ⟨hmem, hoffered⟩ := mem_pending hrun
  obtain ⟨hearly, hstaged⟩ := hinv.2 run hmem hoffered
  refine ⟨hearly, fun hphase => ⟨hstaged hphase, fun verified now databaseNow hverified => ?_⟩⟩
  exact markPublished_accepts hinv.1 hmem hphase (hstaged hphase) hverified now databaseNow

end Runs

/-! ### A failed run that is eight days old -/

section Stuck

local instance pendingChrono : Chrono := utcClock
local instance pendingSha256 : Sha256 := markdownSha256
local instance pendingRules : ReportRules := noRules

/-- A run that fails and is resumed, staged and published while its input is there. -/
def resumedRun : List Event :=
  preparedRun runA 36000 ++
    [.fail runA (lit "MODEL_UNAVAILABLE") false (dayInstant 36060), .resume runA (dayInstant 72000),
      .compact (dayInstant 72000) (fun _ => true) 100, .stageReport runA dayStaged (dayInstant 72060)]

set_option maxRecDepth 10000 in
theorem pending_finishable_resumed :
    AllSteps step Harmless System.init resumedRun ∧
      ∀ run ∈ pending (runEvents resumedRun).db (some octoberDay),
        (run.phase ≠ .dbCommitted → run.hasInput = true) ∧
        (run.phase = .dbCommitted →
          run.previousRunId = (runEvents resumedRun).db.currentRunId run.targetDate ∧
          ∀ verified now databaseNow, run.expectedSha256 = some verified →
            ∃ db, markPublished (runEvents resumedRun).db run.runId verified now databaseNow =
              .ok db) := by
  have hharmless : AllSteps step Harmless System.init resumedRun := by decide +kernel
  exact ⟨hharmless, pending_finishable resumedRun hharmless (some octoberDay)⟩

/-- A run that fails, and a compaction of a week later. -/
def expiredRun : List Event :=
  preparedRun runA 36000 ++
    [.fail runA (lit "MODEL_UNAVAILABLE") false (dayInstant 36060),
      .compact (dayInstant 36000 + 8 * dayMicros) (fun _ => true) 100]

set_option maxRecDepth 10000 in
/-- The run is offered first for its date, and has no input any more. -/
theorem pending_stuck :
    ¬ ∀ (events : List Event) (date : Option Text), ∀ run ∈ pending (runEvents events).db date,
      (run.phase ≠ .dbCommitted → run.hasInput = true) ∧
      (run.phase = .dbCommitted →
        run.previousRunId = (runEvents events).db.currentRunId run.targetDate) := by
  intro hall
  have hstuck : ∃ run ∈ pending (runEvents expiredRun).db (some octoberDay),
      run.phase = .prepared ∧ run.hasInput = false := by
    decide +kernel
  obtain ⟨run, hrun, hphase, hinput⟩ := hstuck
  have hready := (hall expiredRun (some octoberDay) run hrun).1 (by simp [hphase])
  simp [hinput] at hready

end Stuck

end DailyReport.Reports
