import DailyReport.Store.Effects

/-!
# One run at a time

The invariant of runs, attempts and the lease: nothing is running and nobody holds the lease, or one
run with one attempt is running and its owner holds the lease (`Exclusive`).  Every operation keeps
it; `systemInv_runEvents` says so of every run of the system.
-/

namespace DailyReport.Store

open Lib

def runningRuns (db : Db) : List ScanRunRow :=
  db.runs.filter fun row => decide (row.status = .running)

def runningAttempts (db : Db) : List AttemptRow :=
  db.attempts.filter fun row => decide (row.status = .running)

/-- Nothing is running and nobody holds the lease, or one run is running, in one attempt, and its
owner holds the lease. -/
inductive Exclusive (db : Db) : Prop
  | idle (hlease : db.lease = none) (hruns : runningRuns db = []) (hattempts : runningAttempts db = [])
  | busy (lease : LeaseRow) (run : ScanRunRow) (attempt : AttemptRow) (hlease : db.lease = some lease)
      (hruns : runningRuns db = [run]) (hattempts : runningAttempts db = [attempt])
      (howner : run.ownerId = lease.ownerId) (hattemptOwner : attempt.ownerId = lease.ownerId)
      (hattempt : attempt.scanRunId = run.scanRunId)

/-- The ids of runs are distinct and were given already, and at most one run is running. -/
structure RunsInv (db : Db) : Prop where
  ids_nodup : (db.runs.map ScanRunRow.scanRunId).Nodup
  ids_lt : ∀ row ∈ db.runs, row.scanRunId < db.nextRun
  exclusive : Exclusive db

variable {db db' : Db} {active : ActiveRun} {lease : LeaseRow} {now : ℤ}

theorem mem_runningRuns {row : ScanRunRow} :
    row ∈ runningRuns db ↔ row ∈ db.runs ∧ row.status = .running := by
  simp [runningRuns]

theorem ownRun_eq_true {row : ScanRunRow} :
    ownRun active row = true ↔
      row.scanRunId = active.scanRunId ∧ row.ownerId = active.ownerId ∧ row.status = .running := by
  simp [ownRun, runningRun]

theorem ownAttempt_eq_true {row : AttemptRow} :
    ownAttempt active row = true ↔ row.scanRunId = active.scanRunId ∧
      row.attemptNumber = active.attemptNumber ∧ row.ownerId = active.ownerId ∧
        row.status = .running := by
  simp [ownAttempt, runningAttempt, and_assoc]

/-- Distinct ids name rows. -/
theorem RunsInv.eq_of_id (h : RunsInv db) {row row' : ScanRunRow} (hrow : row ∈ db.runs)
    (hrow' : row' ∈ db.runs) (hid : row.scanRunId = row'.scanRunId) : row = row' :=
  List.inj_on_of_nodup_map h.ids_nodup hrow hrow' hid

/-- The active run that owns the lease is the one that is running. -/
theorem Exclusive.owned (h : Exclusive db) (howns : Owns db active lease) :
    ∃ run attempt, runningRuns db = [run] ∧ runningAttempts db = [attempt] ∧
      ownRun active run = true ∧ attempt.ownerId = active.ownerId ∧
      attempt.scanRunId = active.scanRunId := by
  obtain ⟨row, hrow, hown⟩ := howns.run
  have hrunning : row ∈ runningRuns db := mem_runningRuns.2 ⟨hrow, (ownRun_eq_true.1 hown).2.2⟩
  cases h with
  | idle hlease hruns hattempts => simp [hruns] at hrunning
  | busy held run attempt hlease hruns hattempts howner hattemptOwner hattempt =>
    obtain rfl : held = lease := Option.some.inj (hlease.symm.trans howns.held)
    obtain rfl : row = run := by simpa [hruns] using hrunning
    exact ⟨row, attempt, hruns, hattempts, hown, hattemptOwner.trans howns.owner,
      hattempt.trans (ownRun_eq_true.1 hown).1⟩

/-! ### A heartbeat -/

/-- Updates that keep what is running. -/
theorem Exclusive.update (h : Exclusive db) (howns : Owns db active lease) {lease' : LeaseRow}
    (hlease' : lease'.ownerId = lease.ownerId) {f : ScanRunRow → ScanRunRow}
    {g : AttemptRow → AttemptRow}
    (hf : ∀ row, (f row).scanRunId = row.scanRunId ∧ (f row).ownerId = row.ownerId ∧
      (f row).status = row.status)
    (hg : ∀ row, (g row).scanRunId = row.scanRunId ∧ (g row).ownerId = row.ownerId ∧
      (g row).status = row.status) :
    Exclusive { db with
      runs := updateWhere (ownRun active) f db.runs
      attempts := updateWhere (ownAttempt active) g db.attempts
      lease := some lease' } := by
  obtain ⟨run, attempt, hruns, hattempts, hown, hattemptOwner, hattempt⟩ := h.owned howns
  have hown' := ownRun_eq_true.1 hown
  have hruns' : (updateWhere (ownRun active) f db.runs).filter
      (fun row => decide (row.status = .running)) = updateWhere (ownRun active) f [run] := by
    rw [filter_updateWhere_of_eq fun row _ => by rw [(hf row).2.2]]
    exact congrArg _ hruns
  have hattempts' : (updateWhere (ownAttempt active) g db.attempts).filter
      (fun row => decide (row.status = .running)) = updateWhere (ownAttempt active) g [attempt] := by
    rw [filter_updateWhere_of_eq fun row _ => by rw [(hg row).2.2]]
    exact congrArg _ hattempts
  refine .busy lease' (f run) (if ownAttempt active attempt then g attempt else attempt) rfl
    (hruns'.trans (by simp [updateWhere, hown])) (hattempts'.trans rfl) ?_ ?_ ?_
  · rw [(hf run).2.1, hlease', howns.owner, hown'.2.1]
  · rw [hlease', howns.owner]
    split_ifs
    · rw [(hg attempt).2.1, hattemptOwner]
    · exact hattemptOwner
  · rw [(hf run).1, hown'.1]
    split_ifs
    · rw [(hg attempt).1, hattempt]
    · exact hattempt

/-- An update that keeps the ids keeps them distinct and given. -/
theorem ids_updateWhere {rows : List ScanRunRow} {next : ℕ} {p : ScanRunRow → Bool}
    {f : ScanRunRow → ScanRunRow} (hf : ∀ row, (f row).scanRunId = row.scanRunId)
    (hids : (rows.map ScanRunRow.scanRunId).Nodup) (hlt : ∀ row ∈ rows, row.scanRunId < next) :
    ((updateWhere p f rows).map ScanRunRow.scanRunId).Nodup ∧
      ∀ row ∈ updateWhere p f rows, row.scanRunId < next := by
  constructor
  · rw [map_updateWhere _ hf]
    exact hids
  · intro row hrow
    rcases mem_updateWhere.1 hrow with ⟨hrow, -⟩ | ⟨old, hold, -, rfl⟩
    · exact hlt row hrow
    · rw [hf old]
      exact hlt old hold

/-- Touching a run keeps the keys. -/
theorem RunsInv.touch {rows : List AttemptRow} {held : Option LeaseRow} (h : RunsInv db)
    (hexclusive : Exclusive { db with
      runs := updateWhere (ownRun active) (fun row => { row with updatedAtMs := now }) db.runs
      attempts := rows
      lease := held }) :
    RunsInv { db with
      runs := updateWhere (ownRun active) (fun row => { row with updatedAtMs := now }) db.runs
      attempts := rows
      lease := held } := by
  have hids := ids_updateWhere (p := ownRun active)
    (f := fun row => { row with updatedAtMs := now }) (fun _ => rfl) h.ids_nodup h.ids_lt
  exact ⟨hids.1, hids.2, hexclusive⟩

/-- A heartbeat after an update of the running attempt that keeps who runs. -/
theorem RunsInv.beat (h : RunsInv db) {g : AttemptRow → AttemptRow}
    (hg : ∀ row, (g row).scanRunId = row.scanRunId ∧ (g row).ownerId = row.ownerId ∧
      (g row).status = row.status)
    (hok : heartbeatInTransaction
      { db with attempts := updateWhere (ownAttempt active) g db.attempts } active now = .ok db') :
    RunsInv db' := by
  obtain ⟨lease, howns, -, -, rfl⟩ := heartbeatInTransaction_ok hok
  have hexclusive := h.exclusive.update ⟨howns.held, howns.owner, howns.run⟩
    (show LeaseRow.ownerId { lease with heartbeatAtMs := now, expiresAtMs := now + leaseGraceMs } =
      lease.ownerId from rfl)
    (f := fun row => { row with updatedAtMs := now }) (fun _ => ⟨rfl, rfl, rfl⟩) hg
  exact h.touch hexclusive

theorem RunsInv.heartbeat (h : RunsInv db) (hok : heartbeatInTransaction db active now = .ok db') :
    RunsInv db' := by
  have hsame : { db with attempts := updateWhere (ownAttempt active) id db.attempts } = db := by
    rw [updateWhere_id]
  exact h.beat (g := id) (fun _ => ⟨rfl, rfl, rfl⟩) (hsame.symm ▸ hok)

theorem RunsInv.recordWorkerFingerprints {office pdf : Option WorkerFingerprint} {nowMs : ℕ}
    (h : RunsInv db)
    (hok : recordWorkerFingerprints db active office pdf nowMs = .ok db') : RunsInv db' :=
  h.beat (g := fun row => { row with office, pdf }) (fun _ => ⟨rfl, rfl, rfl⟩)
    (recordWorkerFingerprints_ok hok)

/-! ### The end of a run -/

/-- Once the run of an owner and its attempt have ended, nothing is running. -/
theorem Exclusive.finish (h : Exclusive db) (howns : Owns db active lease)
    (hattempts : db.attempts.countP (ownAttempt active) = 1) {f : ScanRunRow → ScanRunRow}
    {g : AttemptRow → AttemptRow} (hf : ∀ row, (f row).status ≠ .running)
    (hg : ∀ row, (g row).status ≠ .running) :
    Exclusive { db with
      runs := updateWhere (ownRun active) f db.runs
      attempts := updateWhere (ownAttempt active) g db.attempts
      lease := none } := by
  obtain ⟨run, attempt, hruns, hattempts', hown, -, -⟩ := h.owned howns
  have hrunsLeft : (updateWhere (ownRun active) f db.runs).filter
      (fun row => decide (row.status = .running)) = [] := by
    rw [filter_updateWhere_of_not fun row _ => by simpa using hf row, ← List.filter_filter]
    change (runningRuns db).filter _ = []
    rw [hruns]
    simp [hown]
  -- the counted attempt is the one that is running
  have hownAttempt : ownAttempt active attempt = true := by
    obtain ⟨row, hrow⟩ := exists_filter_eq_singleton hattempts
    have hmem : row ∈ db.attempts.filter (ownAttempt active) := by simp [hrow]
    obtain ⟨hmem, hrowOwn⟩ := List.mem_filter.1 hmem
    have hrunning : row ∈ runningAttempts db :=
      List.mem_filter.2 ⟨hmem, by simpa using (ownAttempt_eq_true.1 hrowOwn).2.2.2⟩
    rw [hattempts', List.mem_singleton] at hrunning
    exact hrunning ▸ hrowOwn
  have hattemptsLeft : (updateWhere (ownAttempt active) g db.attempts).filter
      (fun row => decide (row.status = .running)) = [] := by
    rw [filter_updateWhere_of_not fun row _ => by simpa using hg row, ← List.filter_filter]
    change (runningAttempts db).filter _ = []
    rw [hattempts']
    simp [hownAttempt]
  exact .idle rfl hrunsLeft hattemptsLeft

theorem RunsInv.finish (h : RunsInv db) (howns : Owns db active lease)
    (hattempts : db.attempts.countP (ownAttempt active) = 1) {f : ScanRunRow → ScanRunRow}
    {g : AttemptRow → AttemptRow}
    (hf : ∀ row, (f row).scanRunId = row.scanRunId ∧ (f row).status ≠ .running)
    (hg : ∀ row, (g row).status ≠ .running) :
    RunsInv { db with
      runs := updateWhere (ownRun active) f db.runs
      attempts := updateWhere (ownAttempt active) g db.attempts
      lease := none } := by
  have hids := ids_updateWhere (p := ownRun active) (fun row => (hf row).1) h.ids_nodup h.ids_lt
  exact ⟨hids.1, hids.2, h.exclusive.finish howns hattempts (fun row => (hf row).2) hg⟩

theorem RunsInv.abandon {nowMs : ℕ} (h : RunsInv db)
    (hok : abandonActiveRun db active nowMs = .ok db') : RunsInv db' := by
  obtain ⟨lease, howns, -, hattempts, rfl⟩ := abandonActiveRun_ok hok
  exact h.finish howns hattempts (fun row => ⟨rfl, by simp [ScanRunRow.abandon]⟩) fun row => by
    simp [AttemptRow.abandon]

/-! ### Deletions -/

theorem Prunes.runsInv (h : RunsInv db) (hprunes : Prunes db db') : RunsInv db' := by
  induction hprunes with
  | refl => exact h
  | artifacts victims _ _ ih => exact ⟨ih.ids_nodup, ih.ids_lt, by
      cases ih.exclusive with
      | idle hlease hruns hattempts => exact .idle hlease hruns hattempts
      | busy lease run attempt hlease hruns hattempts howner hattemptOwner hattempt =>
        exact .busy lease run attempt hlease hruns hattempts howner hattemptOwner hattempt⟩
  | @runs mid victims _ hvictims ih =>
    -- a running row is no victim, because its id names it
    have hkeep : ∀ row ∈ mid.runs, row.status = .running → row.scanRunId ∉ victims := by
      intro row hrow hrunning hmem
      obtain ⟨other, hother, hid, hnot⟩ := hvictims _ hmem
      exact hnot (ih.eq_of_id hother hrow hid ▸ hrunning)
    have hruns : runningRuns (mid.deleteRuns victims) = runningRuns mid :=
      filter_deleteWhere_of_not fun row hrow hmem => by
        have hid : row.scanRunId ∈ victims := by simpa using hmem
        simpa using fun hrunning => hkeep row hrow hrunning hid
    refine ⟨((deleteWhere_sublist _ _).map _).nodup ih.ids_nodup,
      fun row hrow => ih.ids_lt row (Db.mem_deleteRuns_runs.1 hrow).1, ?_⟩
    cases ih.exclusive with
    | idle hlease hnone hattempts =>
      refine .idle hlease (hruns.trans hnone) ?_
      exact List.filter_eq_nil_iff.2 fun row hrow =>
        List.filter_eq_nil_iff.1 hattempts row (Db.mem_deleteRuns_attempts.1 hrow).1
    | busy lease run attempt hlease hone hattempts howner hattemptOwner hattempt =>
      refine .busy lease run attempt hlease (hruns.trans hone) ?_ howner hattemptOwner hattempt
      have hrun : run ∈ mid.runs ∧ run.status = .running :=
        mem_runningRuns.1 (by rw [hone]; simp)
      rw [← hattempts]
      refine filter_deleteWhere_of_not fun row hrow hmem => ?_
      have hid : row.scanRunId ∈ victims := by simpa using hmem
      by_contra hrunning
      have hrow' : row ∈ runningAttempts mid := List.mem_filter.2 ⟨hrow, by simpa using hrunning⟩
      rw [hattempts, List.mem_singleton] at hrow'
      exact hkeep run hrun.1 hrun.2 (hattempt ▸ hrow' ▸ hid)

/-! ### Beginning a run -/

/-- Once the lease is free, nothing is running. -/
theorem RunsInv.release {existing : Option ScanRunRow} (h : RunsInv db)
    (hok : releaseLease db existing now = .ok db') :
    RunsInv db' ∧ runningRuns db' = [] ∧ runningAttempts db' = [] := by
  rcases releaseLease_ok hok with ⟨hnone, -, rfl⟩ | ⟨lease, hlease, -, rfl⟩
  · refine ⟨h, ?_⟩
    cases h.exclusive with
    | idle _ hruns hattempts => exact ⟨hruns, hattempts⟩
    | busy lease _ _ hlease => simp [hnone] at hlease
  · have hruns : runningRuns (db.reclaim lease now) = [] := by
      unfold runningRuns Db.reclaim
      rw [filter_updateWhere_of_not fun row _ => by simp [ScanRunRow.abandon], ← List.filter_filter]
      change (runningRuns db).filter _ = []
      cases h.exclusive with
      | idle _ hruns => rw [hruns]; rfl
      | busy held run _ hheld hruns _ howner =>
        obtain rfl : held = lease := Option.some.inj (hheld.symm.trans hlease)
        have hrun : run.status = .running := (mem_runningRuns.1 (by rw [hruns]; simp)).2
        simp [hruns, runningRun, howner, hrun]
    have hattempts : runningAttempts (db.reclaim lease now) = [] := by
      unfold runningAttempts Db.reclaim
      rw [filter_updateWhere_of_not fun row _ => by simp [AttemptRow.abandon], ← List.filter_filter]
      change (runningAttempts db).filter _ = []
      cases h.exclusive with
      | idle _ _ hattempts => rw [hattempts]; rfl
      | busy held _ attempt hheld _ hattempts _ howner =>
        obtain rfl : held = lease := Option.some.inj (hheld.symm.trans hlease)
        have hattempt : attempt ∈ runningAttempts db := by rw [hattempts]; simp
        have hrunning : attempt.status = .running := by
          simpa using (List.mem_filter.1 hattempt).2
        simp [hattempts, runningAttempt, howner, hrunning]
    have hids := ids_updateWhere (p := runningRun lease.ownerId)
      (f := ScanRunRow.abandon now) (fun _ => rfl) h.ids_nodup h.ids_lt
    exact ⟨⟨hids.1, hids.2, .idle rfl hruns hattempts⟩, hruns, hattempts⟩

section Begin

variable {existing : Option ScanRunRow} {requestId ownerId : Text} {canonical : CanonicalRequest}
  {runtime : AttemptRuntime}

/-- The run that is started is the one that is running. -/
theorem startRun_running {scanRunId : ℕ}
    (hok : startRun db existing requestId canonical ownerId now = .ok (db', scanRunId))
    (hidle : runningRuns db = []) (hids : (db.runs.map ScanRunRow.scanRunId).Nodup)
    (hlt : ∀ row ∈ db.runs, row.scanRunId < db.nextRun) :
    (db'.runs.map ScanRunRow.scanRunId).Nodup ∧
      (∀ row ∈ db'.runs, row.scanRunId < db'.nextRun) ∧ db'.lease = db.lease ∧
      db'.attempts = db.attempts ∧
      ∃ run, runningRuns db' = [run] ∧ run.scanRunId = scanRunId ∧ run.ownerId = ownerId := by
  rcases startRun_ok hok with ⟨-, rfl, rfl⟩ | ⟨run, -, rfl, hcount, rfl⟩
  · refine ⟨?_, ?_, rfl, rfl, newRun db.nextRun requestId canonical ownerId now, ?_, rfl, rfl⟩
    · rw [List.map_append, List.nodup_append]
      refine ⟨hids, by simp, ?_⟩
      intro id hid other hother
      obtain ⟨row, hrow, rfl⟩ := List.mem_map.1 hid
      obtain rfl : other = db.nextRun := by simpa [newRun] using hother
      exact (hlt row hrow).ne
    · intro row hrow
      rcases List.mem_append.1 hrow with hrow | hrow
      · exact (hlt row hrow).trans (Nat.lt_succ_self _)
      · obtain rfl : row = newRun db.nextRun requestId canonical ownerId now := by simpa using hrow
        exact Nat.lt_succ_self _
    · unfold runningRuns at hidle ⊢
      rw [List.filter_append, hidle]
      rfl
  · obtain ⟨old, hold⟩ := exists_filter_eq_singleton hcount
    have hmem : old ∈ db.runs ∧ abandonedRun run.scanRunId old = true :=
      List.mem_filter.1 (by rw [hold]; simp)
    have hkeys := ids_updateWhere (p := abandonedRun run.scanRunId)
      (f := ScanRunRow.restart ownerId now) (fun _ => rfl) hids hlt
    refine ⟨hkeys.1, hkeys.2, rfl, rfl, old.restart ownerId now, ?_, ?_, rfl⟩
    · have hfound := filter_updateWhere_of_none (p := abandonedRun run.scanRunId)
        (f := ScanRunRow.restart ownerId now) hidle fun row _ => by simp [ScanRunRow.restart]
      exact hfound.trans (by rw [hold]; rfl)
    · simp only [abandonedRun, Bool.and_eq_true, decide_eq_true_eq] at hmem
      exact hmem.2.1

/-- The owner of the attempt that is started holds the lease, and its run is running. -/
theorem RunsInv.startAttempt {outcome : BeginRunOutcome} (h : RunsInv db)
    (hok : startAttempt db existing requestId canonical runtime ownerId now = .ok (db', outcome)) :
    RunsInv db' := by
  obtain ⟨released, started, active, hreleased, hstarted, howner, -, -, rfl⟩ := startAttempt_ok hok
  obtain ⟨hinv, hidle, hattempts⟩ := h.release hreleased
  obtain ⟨hids, hlt, hlease, hsame, run, hrun, hid, hrunOwner⟩ :=
    startRun_running hstarted hidle hinv.ids_nodup hinv.ids_lt
  have hattempt : runningAttempts
      { started with attempts := started.attempts ++ [newAttempt active runtime now] } =
        [newAttempt active runtime now] := by
    unfold runningAttempts at hattempts ⊢
    rw [List.filter_append, hsame]
    change released.attempts.filter _ ++ _ = _
    rw [hattempts]
    rfl
  exact ⟨hids, hlt, .busy _ run _ hlease hrun hattempt hrunOwner howner hid.symm⟩

end Begin

/-! ### Every operation -/

variable [Sha256]

theorem RunsInv.beginRun {requestId storePath ownerId : Text} {canonical : CanonicalRequest}
    {runtime : AttemptRuntime} {nowMs : ℕ} {outcome : BeginRunOutcome} (h : RunsInv db)
    (hok : beginRun db requestId canonical runtime storePath ownerId nowMs = .ok (db', outcome)) :
    RunsInv db' := by
  rcases beginRun_ok hok with ⟨rfl, -⟩ | ⟨hstart, -⟩
  · exact h
  · exact h.startAttempt hstart

omit [Sha256] in
theorem RunsInv.same (h : RunsInv db) (hsame : SameRuns db db') : RunsInv db' := by
  obtain ⟨hruns, hattempts, hlease, hnext⟩ := hsame
  obtain ⟨runs, attempts, lease, artifacts, contexts, nextRun, nextArtifact⟩ := db'
  simp only at hruns hattempts hlease hnext
  subst hruns hattempts hlease hnext
  refine ⟨h.ids_nodup, h.ids_lt, ?_⟩
  cases h.exclusive with
  | idle hlease hruns hattempts => exact .idle hlease hruns hattempts
  | busy lease run attempt hlease hruns hattempts howner hattemptOwner hattempt =>
    exact .busy lease run attempt hlease hruns hattempts howner hattemptOwner hattempt

/-- Up to the context of the run, the transaction changes runs by deletions only. -/
theorem RunsInv.storeContext {beaten stored : Db} {p : PreparedFinalization} (h : RunsInv db)
    (hbeaten : heartbeatInTransaction db active now = .ok beaten)
    (hstored : storeContext beaten p = .ok stored) : RunsInv stored := by
  obtain ⟨mid, hmid, hsame⟩ := storeContext_prunes hstored
  exact (hmid.runsInv (h.heartbeat hbeaten)).same hsame

/-- The terminal transaction ends the run that is running. -/
theorem RunsInv.commit {p : PreparedFinalization} (h : RunsInv db)
    (hstatus : p.batch.status ≠ .running) (hok : commitFinalization db p = .ok db') :
    RunsInv db' := by
  obtain ⟨beaten, stored, finished, pruned, hbeaten, hstored, hfinished, hpruned, rfl⟩ :=
    commitFinalization_ok hok
  obtain ⟨lease, howns, -, -, hbeatenEq⟩ := heartbeatInTransaction_ok hbeaten
  obtain ⟨mid, hmid, hsame⟩ := storeContext_prunes hstored
  obtain ⟨hruns, hattempts, rfl⟩ := finishRows_ok hfinished
  have hlease : stored.lease = some { lease with
      heartbeatAtMs := p.now, expiresAtMs := p.now + leaseGraceMs } := by
    rw [hsame.lease, hmid.lease_eq, hbeatenEq]
  obtain ⟨row, hrow⟩ := exists_filter_eq_singleton hruns
  have hmem : row ∈ stored.runs ∧ ownRun p.active row = true :=
    List.mem_filter.1 (by rw [hrow]; simp)
  have hended := (h.storeContext hbeaten hstored).finish ⟨hlease, howns.owner, row, hmem⟩ hattempts
    (f := ScanRunRow.finish p.batch.status p.now p.metadataJson p.batch.auditSizeBytes)
    (g := AttemptRow.finish p.batch.status p.now) (fun _ => ⟨rfl, hstatus⟩) fun _ => hstatus
  exact ((applyTerminalRetentionPlan_prunes hpruned).withLease none).runsInv hended

/-! ### Whole runs -/

/-- The invariant of the database, and what a prepared finalization makes of its run. -/
structure SystemInv (s : System) : Prop where
  runs : RunsInv s.db
  prepared : ∀ p ∈ s.prepared, p.batch.status.isTerminal = true

theorem SystemInv.init : SystemInv .init :=
  ⟨⟨.nil, by simp [System.init, Db.empty], .idle rfl rfl rfl⟩, by simp [System.init]⟩

omit [Sha256] in
theorem RunStatus.ne_running_of_isTerminal {status : RunStatus} (h : status.isTerminal = true) :
    status ≠ .running := by
  rintro rfl
  cases h

/-- What one event keeps. -/
theorem SystemInv.step {s s' : System} {e : Event} (h : SystemInv s)
    (hok : Store.step s e = .ok s') : SystemInv s' := by
  cases e with
  | beginRun requestId canonical runtime storePath ownerId nowMs =>
    simp only [Store.step, bind_eq_ok] at hok
    obtain ⟨⟨db, outcome⟩, hbegin, hok⟩ := hok
    cases hok
    exact ⟨h.runs.beginRun hbegin, h.prepared⟩
  | heartbeat handle nowMs =>
    simp only [Store.step, bind_eq_ok] at hok
    obtain ⟨active, -, db, hbeat, hok⟩ := hok
    cases hok
    exact ⟨h.runs.heartbeat (heartbeat_ok hbeat), h.prepared⟩
  | recordWorkerFingerprints handle office pdf nowMs =>
    simp only [Store.step, bind_eq_ok] at hok
    obtain ⟨active, -, db, hrecord, hok⟩ := hok
    cases hok
    exact ⟨h.runs.recordWorkerFingerprints hrecord, h.prepared⟩
  | abandon handle nowMs =>
    simp only [Store.step, bind_eq_ok] at hok
    obtain ⟨active, -, db, habandon, hok⟩ := hok
    cases hok
    exact ⟨h.runs.abandon habandon, h.prepared⟩
  | prepare handle batch nowMs =>
    simp only [Store.step, bind_eq_ok] at hok
    obtain ⟨active, -, prepared, hprepare, hok⟩ := hok
    cases hok
    refine ⟨h.runs, fun p hp => ?_⟩
    rcases List.mem_append.1 hp with hp | hp
    · exact h.prepared p hp
    · obtain rfl : p = prepared := by simpa using hp
      have hprepares := prepareFinalization_ok hprepare
      rw [hprepares.batch_eq]
      exact (validateFinalization_ok hprepares.valid).terminal
  | commit handle =>
    simp only [Store.step, bind_eq_ok, held_eq_ok] at hok
    obtain ⟨prepared, hheld, db, hcommit, hok⟩ := hok
    cases hok
    have hterminal := h.prepared prepared (List.mem_of_getElem? hheld)
    exact ⟨h.runs.commit (RunStatus.ne_running_of_isTerminal hterminal) hcommit, h.prepared⟩
  | gc nowMs artifactsStatement runsStatement =>
    simp only [Store.step, bind_eq_ok] at hok
    obtain ⟨db, hgc, hok⟩ := hok
    cases hok
    exact ⟨(runOpportunisticGc_prunes hgc).runsInv h.runs, h.prepared⟩

/-- Every run of the system keeps the invariant. -/
theorem systemInv_runEvents (events : List Event) : SystemInv (runEvents events) :=
  applyAll_invariant (fun _ _ _ h hok => h.step hok) events .init

end DailyReport.Store
