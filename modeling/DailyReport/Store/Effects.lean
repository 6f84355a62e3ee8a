import DailyReport.Store.System

/-!
# What an operation does

For every operation of the store, what it leaves behind when it succeeds.  Later proofs use these
lemmas and never look into the operations again.  What the retention deletes is summed up in
`Prunes`: finished runs, and artifacts that no context refers to.
-/

namespace DailyReport.Store

open Lib

variable {db db' : Db} {active : ActiveRun} {now : ℤ} {nowMs : ℕ}

theorem leaseExpiry_eq_ok {expiresAtMs : ℤ} :
    leaseExpiry now = .ok expiresAtMs ↔
      now + leaseGraceMs ≤ i64Max ∧ expiresAtMs = now + leaseGraceMs := by
  unfold leaseExpiry
  split_ifs with h
  · simp [h, eq_comm]
  · simp [h]

theorem liveLease_eq_ok {ownerId : Text} {lease : LeaseRow} :
    liveLease db ownerId now = .ok lease ↔
      db.lease = some lease ∧ lease.ownerId = ownerId ∧ leaseIsLive lease now = true := by
  unfold liveLease
  cases db.lease with
  | none => simp
  | some other =>
    simp only [Option.some.injEq]
    split_ifs with h
    · simp only [Except.ok.injEq]
      constructor
      · rintro rfl; exact ⟨rfl, h⟩
      · rintro ⟨rfl, -⟩; rfl
    · simp only [false_iff, not_and]
      rintro rfl hown hlive
      exact h ⟨hown, hlive⟩

/-! ### Operations of the owner of the lease -/

/-- The lease of the active run, and its run is running. -/
structure Owns (db : Db) (active : ActiveRun) (lease : LeaseRow) : Prop where
  held : db.lease = some lease
  owner : lease.ownerId = active.ownerId
  run : ∃ row ∈ db.runs, ownRun active row = true

theorem leaseOwned_eq_true {ownerId : Text} :
    leaseOwned db ownerId = true ↔ ∃ lease, db.lease = some lease ∧ lease.ownerId = ownerId := by
  unfold leaseOwned
  cases db.lease <;> simp

theorem ensureOwner_eq_ok {u : Unit} :
    ensureOwner db active = .ok u ↔ ∃ lease, Owns db active lease := by
  unfold ensureOwner
  rw [require_eq_ok, leaseOwned_eq_true, List.any_eq_true]
  constructor
  · rintro ⟨hrun, lease, hlease, hown⟩
    exact ⟨lease, hlease, hown, hrun⟩
  · rintro ⟨lease, hlease, hown, hrun⟩
    exact ⟨hrun, lease, hlease, hown⟩

/-- A heartbeat moves the lease on and touches the run. -/
theorem heartbeatInTransaction_ok (h : heartbeatInTransaction db active now = .ok db') :
    ∃ lease, Owns db active lease ∧ leaseIsLive lease now = true ∧
      now + leaseGraceMs ≤ i64Max ∧
      db' = { db with
        lease := some { lease with heartbeatAtMs := now, expiresAtMs := now + leaseGraceMs }
        runs := updateWhere (ownRun active) (fun row => { row with updatedAtMs := now }) db.runs } := by
  unfold heartbeatInTransaction at h
  simp only [bind_eq_ok, ensureOwner_eq_ok, leaseExpiry_eq_ok, liveLease_eq_ok, require_eq_ok] at h
  obtain ⟨-, ⟨lease, howns⟩, expiresAtMs, ⟨hmax, rfl⟩, other, ⟨hlease, -, hlive⟩, -, -, h⟩ := h
  cases h
  obtain rfl : other = lease := Option.some.inj (hlease.symm.trans howns.held)
  exact ⟨other, howns, hlive, hmax, rfl⟩

theorem heartbeat_ok (h : heartbeat db active nowMs = .ok db') :
    heartbeatInTransaction db active nowMs = .ok db' := by
  unfold heartbeat at h
  simp only [bind_eq_ok, checkedI64_eq_ok] at h
  obtain ⟨_, ⟨-, rfl⟩, h⟩ := h
  exact h

/-- Recording the workers changes the running attempt and is a heartbeat. -/
theorem recordWorkerFingerprints_ok {office pdf : Option WorkerFingerprint}
    (h : recordWorkerFingerprints db active office pdf nowMs = .ok db') :
    heartbeatInTransaction
      { db with
        attempts := updateWhere (ownAttempt active) (fun row => { row with office, pdf })
          db.attempts }
      active nowMs = .ok db' := by
  unfold recordWorkerFingerprints at h
  simp only [bind_eq_ok, checkedI64_eq_ok] at h
  obtain ⟨-, -, -, -, _, ⟨-, rfl⟩, -, -, -, -, h⟩ := h
  exact h

/-- Giving a run up abandons the run and its attempt and ends the lease. -/
theorem abandonActiveRun_ok (h : abandonActiveRun db active nowMs = .ok db') :
    ∃ lease, Owns db active lease ∧ db.runs.countP (ownRun active) = 1 ∧
      db.attempts.countP (ownAttempt active) = 1 ∧
      db' = { db with
        runs := updateWhere (ownRun active) (ScanRunRow.abandon nowMs) db.runs
        attempts := updateWhere (ownAttempt active) (AttemptRow.abandon nowMs) db.attempts
        lease := none } := by
  unfold abandonActiveRun at h
  simp only [bind_eq_ok, checkedI64_eq_ok, ensureOwner_eq_ok, require_eq_ok] at h
  obtain ⟨_, ⟨-, rfl⟩, -, ⟨lease, howns⟩, -, ⟨hruns, hattempts, -⟩, h⟩ := h
  cases h
  exact ⟨lease, howns, hruns, hattempts, rfl⟩

/-! ### Beginning a run -/

variable {existing : Option ScanRunRow}

/-- What an expired lease leaves behind. -/
def Db.reclaim (db : Db) (lease : LeaseRow) (now : ℤ) : Db :=
  { db with
    runs := updateWhere (runningRun lease.ownerId) (ScanRunRow.abandon now) db.runs
    attempts := updateWhere (runningAttempt lease.ownerId) (AttemptRow.abandon now) db.attempts
    lease := none }

/-- Nobody held the lease, or it had expired and was reclaimed. -/
theorem releaseLease_ok (h : releaseLease db existing now = .ok db') :
    (db.lease = none ∧ requestRunning existing = false ∧ db' = db) ∨
      ∃ lease, db.lease = some lease ∧ leaseIsLive lease now = false ∧
        db' = db.reclaim lease now := by
  unfold releaseLease at h
  cases hl : db.lease with
  | none =>
    rw [hl] at h
    simp only at h
    split_ifs at h with hrunning
    cases h
    exact .inl ⟨rfl, by simpa using hrunning, rfl⟩
  | some lease =>
    rw [hl] at h
    simp only at h
    split_ifs at h with hlive
    unfold reclaimExpiredLease at h
    simp only [bind_eq_ok, require_eq_ok] at h
    obtain ⟨-, hdead, h⟩ := h
    cases h
    exact .inr ⟨lease, rfl, hdead, rfl⟩

variable {requestId ownerId : Text} {canonical : CanonicalRequest} {scanRunId : ℕ}

/-- The row of a new run. -/
def newRun (scanRunId : ℕ) (requestId : Text) (canonical : CanonicalRequest) (ownerId : Text)
    (now : ℤ) : ScanRunRow where
  scanRunId := scanRunId
  requestId := requestId
  canonicalRequestJson := canonical.json
  requestHash := canonical.hash
  ownerId := ownerId
  status := .running
  createdAtMs := now
  startedAtMs := now
  updatedAtMs := now
  finishedAtMs := none
  finalEnvelopeJson := none
  finalEnvelopeMetadataJson := none
  auditSizeBytes := none

/-- A run is new, or it was abandoned and begins again. -/
theorem startRun_ok (h : startRun db existing requestId canonical ownerId now = .ok (db', scanRunId)) :
    (existing = none ∧ scanRunId = db.nextRun ∧ db' = { db with
        runs := db.runs ++ [newRun db.nextRun requestId canonical ownerId now]
        nextRun := db.nextRun + 1 }) ∨
      ∃ run, existing = some run ∧ scanRunId = run.scanRunId ∧
        db.runs.countP (abandonedRun run.scanRunId) = 1 ∧
        db' = { db.deleteContexts [run.scanRunId] with
          runs := updateWhere (abandonedRun run.scanRunId) (ScanRunRow.restart ownerId now)
            db.runs } := by
  unfold startRun at h
  cases existing with
  | none =>
    unfold createRun at h
    simp only [bind_eq_ok, require_eq_ok] at h
    obtain ⟨-, -, h⟩ := h
    cases h
    exact .inl ⟨rfl, rfl, rfl⟩
  | some run =>
    unfold restartRun at h
    simp only [bind_eq_ok, require_eq_ok] at h
    obtain ⟨-, -, -, hcount, h⟩ := h
    cases h
    exact .inr ⟨run, rfl, rfl, hcount, rfl⟩

/-- The first row of an attempt. -/
def newAttempt (active : ActiveRun) (runtime : AttemptRuntime) (now : ℤ) : AttemptRow where
  scanRunId := active.scanRunId
  attemptNumber := active.attemptNumber
  ownerId := active.ownerId
  runtime := runtime
  office := none
  pdf := none
  startedAtMs := now
  finishedAtMs := none
  status := .running

variable {runtime : AttemptRuntime} {storePath : Text} {outcome : BeginRunOutcome}

theorem startAttempt_ok
    (h : startAttempt db existing requestId canonical runtime ownerId now = .ok (db', outcome)) :
    ∃ released started active, releaseLease db existing now = .ok released ∧
      startRun { released with
          lease := some
            { ownerId, acquiredAtMs := now, heartbeatAtMs := now, expiresAtMs := now + leaseGraceMs } }
        existing requestId canonical ownerId now = .ok (started, active.scanRunId) ∧
      active.ownerId = ownerId ∧ active.requestId = requestId ∧ outcome = .started active ∧
      db' = { started with attempts := started.attempts ++ [newAttempt active runtime now] } := by
  unfold startAttempt at h
  simp only [bind_eq_ok, leaseExpiry_eq_ok] at h
  obtain ⟨released, hreleased, _, ⟨-, rfl⟩, ⟨started, scanRunId⟩, hstarted, h⟩ := h
  cases h
  exact ⟨released, started, ⟨scanRunId, _, ownerId, requestId⟩, hreleased, hstarted, rfl, rfl, rfl,
    rfl⟩

/-! ### Deleting -/

/-- Deletions of runs that are not running, and of artifacts that no context refers to. -/
inductive Prunes (db : Db) : Db → Prop
  | refl : Prunes db db
  | runs {db' : Db} (victims : List ℕ) (h : Prunes db db')
      (hvictims : ∀ id ∈ victims, ∃ row ∈ db'.runs, row.scanRunId = id ∧ row.status ≠ .running) :
      Prunes db (db'.deleteRuns victims)
  | artifacts {db' : Db} (victims : List ℕ) (h : Prunes db db')
      (hvictims : ∀ id ∈ victims, db'.referenced id = false) : Prunes db (db'.deleteArtifacts victims)

theorem Prunes.trans {db'' : Db} (h : Prunes db db') (h' : Prunes db' db'') : Prunes db db'' := by
  induction h' with
  | refl => exact h
  | runs victims _ hvictims ih => exact ih.runs victims hvictims
  | artifacts victims _ hvictims ih => exact ih.artifacts victims hvictims

/-- The lease plays no part in deletions. -/
theorem Prunes.withLease (h : Prunes db db') (lease : Option LeaseRow) :
    Prunes { db with lease } { db' with lease } := by
  induction h with
  | refl => exact .refl
  | runs victims _ hvictims ih => exact ih.runs victims hvictims
  | artifacts victims _ hvictims ih => exact ih.artifacts victims hvictims

theorem Prunes.lease_eq (h : Prunes db db') : db'.lease = db.lease := by
  induction h with
  | refl => rfl
  | runs _ _ _ ih => exact ih
  | artifacts _ _ _ ih => exact ih

theorem Prunes.runs_subset (h : Prunes db db') : ∀ row ∈ db'.runs, row ∈ db.runs := by
  induction h with
  | refl => exact fun _ hrow => hrow
  | runs _ _ _ ih => exact fun row hrow => ih row (Db.mem_deleteRuns_runs.1 hrow).1
  | artifacts _ _ _ ih => exact ih

variable {ids protectedRuns protectedArtifacts : List ℕ} {plan : FinalizationRetentionPlan}

theorem deletePreparedArtifacts_ok (h : deletePreparedArtifacts db ids protectedArtifacts = .ok db') :
    ∃ victims, db' = db.deleteArtifacts victims ∧ victims.length = ids.length ∧
      ∀ id ∈ victims, id ∈ ids ∧ id ∉ protectedArtifacts ∧ db.referenced id = false := by
  unfold deletePreparedArtifacts at h
  simp only [bind_eq_ok, require_eq_ok] at h
  obtain ⟨-, hlength, h⟩ := h
  cases h
  refine ⟨_, rfl, by rw [List.length_map]; exact hlength, fun id hid => ?_⟩
  obtain ⟨row, hrow, rfl⟩ := List.mem_map.1 hid
  have := (List.mem_filter.1 hrow).2
  simp only [Bool.and_eq_true, decide_eq_true_eq, Bool.not_eq_true'] at this
  exact ⟨this.1.1, this.2, this.1.2⟩

theorem deletePreparedTerminalRuns_ok (h : deletePreparedTerminalRuns db ids protectedRuns = .ok db') :
    ∃ victims, db' = db.deleteRuns victims ∧ victims.length = ids.length ∧
      victims.Sublist (db.runs.map ScanRunRow.scanRunId) ∧
      (∀ id ∈ victims, id ∈ ids ∧ id ∉ protectedRuns) ∧
      ∀ id ∈ victims, ∃ row ∈ db.runs, row.scanRunId = id ∧ row.status ≠ .running := by
  unfold deletePreparedTerminalRuns at h
  simp only [bind_eq_ok, require_eq_ok] at h
  obtain ⟨-, hlength, h⟩ := h
  cases h
  refine ⟨_, rfl, by rw [List.length_map]; exact hlength, List.filter_sublist.map _, fun id hid => ?_,
    fun id hid => ?_⟩
  · obtain ⟨row, hrow, rfl⟩ := List.mem_map.1 hid
    have := (List.mem_filter.1 hrow).2
    simp only [Bool.and_eq_true, decide_eq_true_eq] at this
    exact ⟨this.1.1, this.2⟩
  · obtain ⟨row, hrow, rfl⟩ := List.mem_map.1 hid
    have := List.mem_filter.1 hrow
    simp only [Bool.and_eq_true, decide_eq_true_eq] at this
    exact ⟨row, this.1, rfl, this.2.1.2⟩

theorem applyDeletion_prunes {deletion : PreparedRetentionDelete}
    (h : applyDeletion protectedRuns protectedArtifacts db deletion = .ok db') : Prunes db db' := by
  cases deletion with
  | artifacts ids =>
    obtain ⟨victims, rfl, -, hvictims⟩ := deletePreparedArtifacts_ok h
    exact Prunes.refl.artifacts victims fun id hid => (hvictims id hid).2.2
  | runs ids =>
    obtain ⟨victims, rfl, -, -, -, hvictims⟩ := deletePreparedTerminalRuns_ok h
    exact Prunes.refl.runs victims hvictims

theorem applyArtifactRetentionPlan_prunes
    (h : applyArtifactRetentionPlan db plan protectedRuns protectedArtifacts = .ok db') :
    Prunes db db' := by
  unfold applyArtifactRetentionPlan at h
  simp only [bind_eq_ok] at h
  obtain ⟨applied, happlied, -, -, h⟩ := h
  cases h
  exact foldlM_invariant (I := Prunes db)
    (fun _ _ _ _ hprunes hstep => hprunes.trans (applyDeletion_prunes hstep)) .refl happlied

theorem applyTerminalRetentionPlan_prunes
    (h : applyTerminalRetentionPlan db plan protectedRuns = .ok db') : Prunes db db' := by
  unfold applyTerminalRetentionPlan at h
  simp only [bind_eq_ok] at h
  obtain ⟨applied, happlied, -, -, h⟩ := h
  cases h
  refine foldlM_invariant (I := Prunes db) (fun ids _ before after hprunes hstep => ?_) .refl happlied
  obtain ⟨victims, rfl, -, -, -, hvictims⟩ := deletePreparedTerminalRuns_ok hstep
  exact hprunes.runs victims hvictims

theorem gcArtifacts_unreferenced {id : ℕ} (h : id ∈ gcArtifacts db) : db.referenced id = false := by
  obtain ⟨row, hrow, rfl⟩ := List.mem_map.1 h
  have := mem_sortByKey.1 (List.mem_of_mem_take hrow)
  simpa using (List.mem_filter.1 this).2

theorem mem_finishedRuns {row : ScanRunRow} :
    row ∈ finishedRuns db ↔ row ∈ db.runs ∧ row.status ≠ .running := by
  simp [finishedRuns]

theorem gcRuns_finished {id : ℕ} (h : id ∈ gcRuns db now) :
    ∃ row ∈ db.runs, row.scanRunId = id ∧ row.status ≠ .running := by
  obtain ⟨row, hrow, rfl⟩ := List.mem_map.1 h
  have := mem_finishedRuns.1 (List.mem_filter.1 (List.mem_of_mem_take hrow)).1
  exact ⟨row, this.1, rfl, this.2⟩

theorem runOpportunisticGc_prunes {artifactsStatement runsStatement : Bool}
    (h : runOpportunisticGc db nowMs artifactsStatement runsStatement = .ok db') : Prunes db db' := by
  unfold runOpportunisticGc at h
  simp only [bind_eq_ok] at h
  obtain ⟨now, -, h⟩ := h
  have hartifacts : Prunes db (if artifactsStatement then db.deleteArtifacts (gcArtifacts db) else db) := by
    split_ifs
    · exact Prunes.refl.artifacts _ fun id hid => gcArtifacts_unreferenced hid
    · exact .refl
  cases h
  split_ifs at hartifacts ⊢
  · exact hartifacts.runs _ fun id hid => gcRuns_finished hid
  · exact hartifacts.runs _ fun id hid => gcRuns_finished hid
  · exact hartifacts
  · exact hartifacts

/-! ### Replaying or starting -/

variable [Sha256]

/-- The text of a run whose request is made again is the text of the request. -/
theorem ensureRequestHash_json {run : ScanRunRow}
    (h : ensureExistingRequest (some run) canonical = .ok ()) :
    run.canonicalRequestJson = canonical.json := by
  simp only [ensureExistingRequest, ensureRequestHash, bind_eq_ok, require_eq_ok] at h
  obtain ⟨_, -, -, hjson⟩ := h
  exact hjson

/-- The request has a committed run, and its envelope is returned, or an attempt is started. -/
theorem beginRun_ok
    (h : beginRun db requestId canonical runtime storePath ownerId nowMs = .ok (db', outcome)) :
    (db' = db ∧ ∃ stored, outcome = .stored stored) ∨
      startAttempt db (findRun db requestId) requestId canonical runtime ownerId nowMs =
        .ok (db', outcome) ∧
      (findRun db requestId).all (fun run => !run.status.isTerminal) = true ∧
      requestHash canonical.json = canonical.hash ∧
      ensureExistingRequest (findRun db requestId) canonical = .ok () := by
  unfold beginRun at h
  simp only [bind_eq_ok] at h
  obtain ⟨now, hvalid, ⟨⟩, hexisting, h⟩ := h
  unfold validateBegin at hvalid
  simp only [bind_eq_ok, checkedI64_eq_ok, require_eq_ok] at hvalid
  obtain ⟨-, -, _, ⟨-, rfl⟩, -, ⟨-, -, -, -, hhash⟩, -, -, hvalid⟩ := hvalid
  cases hvalid
  cases hterminal : (findRun db requestId).filter fun run => run.status.isTerminal with
  | some run =>
    rw [hterminal] at h
    simp only [bind_eq_ok] at h
    obtain ⟨stored, -, h⟩ := h
    cases h
    exact .inl ⟨rfl, stored, rfl⟩
  | none =>
    rw [hterminal] at h
    refine .inr ⟨h, ?_, hhash, hexisting⟩
    cases hfind : findRun db requestId with
    | none => rfl
    | some run =>
      rw [hfind, Option.filter_eq_none_iff] at hterminal
      simpa using hterminal run rfl

/-! ### Finalizing -/

/-- What a preparation has read and checked. -/
structure Prepares (db : Db) (active : ActiveRun) (batch : FinalizationBatch) (nowMs : ℕ)
    (p : PreparedFinalization) : Prop where
  active_eq : p.active = active
  batch_eq : p.batch = batch
  now_eq : p.now = nowMs
  valid : validateFinalization active batch = .ok p.envelope
  metadata_eq : p.metadataJson =
    (envelopeMetadata p.envelope batch.refillAudit batch.pdfPageAudits).print
  rebuilds : ∃ metadata snapshot envelope, parseMetadata p.metadataJson = .ok metadata ∧
    loadSnapshot db batch = .ok snapshot ∧
    checkSemantics batch (artifactForRebuild batch snapshot) = .ok () ∧
    rebuilt (rebuildEnvelope metadata p.envelope.summary (artifactForRebuild batch snapshot)) =
      .ok envelope ∧
    canonicalEnvelopeJson envelope = .ok batch.envelopeJson
  dedup : dedupBatch db batch = .ok p.dedupArtifactId
  size_eq : p.artifactSize = (batchArtifactSize batch).getD 0
  runs_eq : p.protectedRuns = protectedRunsOf active batch
  artifacts_eq : p.protectedArtifacts = protectedArtifactsOf batch p.dedupArtifactId
  plan : prepareFinalizationRetentionPlan db active.scanRunId p.protectedRuns p.protectedArtifacts
    (if p.dedupArtifactId = none then batchArtifactSize batch else none) nowMs
    batch.auditSizeBytes = .ok p.plan

theorem prepareFinalization_ok {batch : FinalizationBatch} {p : PreparedFinalization}
    (h : prepareFinalization db active batch nowMs = .ok p) : Prepares db active batch nowMs p := by
  unfold prepareFinalization at h
  simp only [bind_eq_ok, checkedI64_eq_ok, require_eq_ok] at h
  obtain ⟨envelope, hvalid, _, ⟨-, rfl⟩, metadata, hmetadata, snapshot, hsnapshot, ⟨⟩, hsemantics,
    dedup, hdedup, plan, hplan, rebuiltEnvelope, hrebuilt, _, hjson, -, rfl, h⟩ := h
  cases h
  exact ⟨rfl, rfl, rfl, hvalid, rfl,
    ⟨metadata, snapshot, rebuiltEnvelope, hmetadata, hsnapshot, hsemantics, hrebuilt, hjson⟩, hdedup,
    rfl, rfl, rfl, hplan⟩

/-- What a batch that passed its checks says about its run. -/
structure ValidBatch (active : ActiveRun) (batch : FinalizationBatch) (envelope : ContextEnvelope) :
    Prop where
  terminal : batch.status.isTerminal = true
  parsed : ContextEnvelope.ofText batch.envelopeJson = some envelope
  envelope_valid : envelope.validate = .ok ()
  canonical : envelope.json.print = batch.envelopeJson
  requestId_eq : envelope.requestId = active.requestId
  scanRunId_eq : envelope.scanRunId = some active.scanRunId
  status_eq : envelopeStatusMatches batch.status envelope.status = true
  context_valid : validateContextOf active batch envelope = .ok ()

omit [Sha256] in
theorem parseEnvelope_eq_ok {json : Text} {envelope : ContextEnvelope} :
    parseEnvelope json = .ok envelope ↔ ContextEnvelope.ofText json = some envelope := by
  unfold parseEnvelope
  cases ContextEnvelope.ofText json <;> simp

theorem validateFinalization_ok {batch : FinalizationBatch} {envelope : ContextEnvelope}
    (h : validateFinalization active batch = .ok envelope) : ValidBatch active batch envelope := by
  unfold validateFinalization at h
  simp only [bind_eq_ok, requireTerminalStatus, require_eq_ok, parseEnvelope_eq_ok, checked_eq_ok] at h
  obtain ⟨-, hstatus, -, -, -, -, -, -, -, -, -, -, parsed, hparsed, ⟨⟩, hvalid, -, hcanonical, -,
    ⟨hrequest, hscan, hmatch⟩, -, -, ⟨⟩, hcontext, h⟩ := h
  cases h
  exact ⟨hstatus, hparsed, hvalid, hcanonical, hrequest, hscan, hmatch, hcontext⟩

/-- A run that did not fail has a context with the status of the run. -/
theorem ValidBatch.context {batch : FinalizationBatch} {envelope : ContextEnvelope}
    (h : ValidBatch active batch envelope) (hstatus : batch.status ≠ .error) :
    ∃ context, batch.context = some context ∧ context.status = batch.status := by
  have hnoError : envelope.status ≠ .error := by
    intro herror
    have hmatch := h.status_eq
    rw [herror] at hmatch
    cases hs : batch.status with
    | error => exact hstatus hs
    | running | success | partialSuccess | abandoned => rw [hs] at hmatch; cases hmatch
  have hsome := ContextEnvelope.contextRunId_isSome h.envelope_valid hnoError
  have hvalid := h.context_valid
  unfold validateContextOf at hvalid
  cases hid : envelope.contextRunId with
  | none => rw [hid] at hsome; cases hsome
  | some contextRunId =>
    cases hcontext : batch.context with
    | none => rw [hid, hcontext] at hvalid; cases hvalid
    | some context =>
      rw [hid, hcontext] at hvalid
      simp only at hvalid
      split_ifs at hvalid
      unfold validateContextRows at hvalid
      simp only [bind_eq_ok, require_eq_ok] at hvalid
      obtain ⟨-, -, -, ⟨hsame, -⟩, -⟩ := hvalid
      exact ⟨context, rfl, hsame⟩

/-- A run without a context has failed. -/
theorem ValidBatch.error_of_context {batch : FinalizationBatch} {envelope : ContextEnvelope}
    (h : ValidBatch active batch envelope) (hcontext : batch.context = none) :
    batch.status = .error := by
  by_contra hstatus
  obtain ⟨context, hsome, -⟩ := h.context hstatus
  rw [hcontext] at hsome
  cases hsome

variable {p : PreparedFinalization}

omit [Sha256] in
theorem insertContext_ok {context : ContextRunRecord} {artifactId reused : Option ℕ}
    {snapshotHit : Bool}
    (h : insertContext db scanRunId context artifactId snapshotHit reused now = .ok db') :
    (context.status.isTerminal = true ∧ (context.status = .error ↔ artifactId = none)) ∧
      (snapshotHit = true ∨ reused = none) ∧ db.hasContext scanRunId = false ∧
      (∀ id ∈ artifactId, db.hasArtifact id = true) ∧
      (∀ id ∈ reused, id = scanRunId ∨ db.hasContext id = true) ∧
      db' = { db with
        contexts := db.contexts ++
          [{ scanRunId
             contextProfileHash := context.contextProfileHash
             status := context.status
             finalContext := context.finalContext
             contextSha256 := context.contextSha256
             summary := context.summary
             createdAtMs := now
             artifactId, reusedFromContextRunId := reused, snapshotHit }] } := by
  unfold insertContext at h
  simp only [bind_eq_ok, require_eq_ok] at h
  obtain ⟨-, hstatus, -, hhit, -, hnew, -, hartifact, -, hreused, h⟩ := h
  cases h
  exact ⟨hstatus, hhit, hnew, hartifact, hreused, rfl⟩

/-- The artifact is reused or shared, and nothing changes, or there is a new one. -/
theorem storeArtifact_ok {artifactId : ℕ} (h : storeArtifact db p = .ok (db', artifactId)) :
    (db' = db ∧ ∃ hit, p.batch.snapshotHit = some hit ∧ artifactId = hit.artifactId ∧
        db.hasArtifact artifactId = true) ∨
      (db' = db ∧ p.batch.snapshotHit = none ∧ p.dedupArtifactId = some artifactId) ∨
      ∃ draft pruned, p.batch.snapshotHit = none ∧ p.dedupArtifactId = none ∧
        p.batch.artifact = some draft ∧ draft.val.snapshotEligible = p.batch.snapshotKey.isSome ∧
        applyArtifactRetentionPlan db p.plan p.protectedRuns p.protectedArtifacts = .ok pruned ∧
        insertArtifact pruned draft.val p.batch.snapshotKey draft.val.semanticSummary.json.print
          p.artifactSize p.now = .ok (db', artifactId) := by
  unfold storeArtifact at h
  cases hhit : p.batch.snapshotHit with
  | some hit =>
    rw [hhit] at h
    simp only [bind_eq_ok, require_eq_ok] at h
    obtain ⟨-, hpresent, h⟩ := h
    cases h
    exact .inl ⟨rfl, hit, rfl, rfl, hpresent⟩
  | none =>
    rw [hhit] at h
    cases hdraft : p.batch.artifact with
    | none => rw [hdraft] at h; cases h
    | some draft =>
      rw [hdraft] at h
      simp only [bind_eq_ok, require_eq_ok] at h
      obtain ⟨-, heligible, h⟩ := h
      cases hdedup : p.dedupArtifactId with
      | some shared =>
        rw [hdedup] at h
        cases h
        exact .inr (.inl ⟨rfl, rfl, rfl⟩)
      | none =>
        rw [hdedup] at h
        simp only [bind_eq_ok] at h
        obtain ⟨pruned, hpruned, h⟩ := h
        exact .inr (.inr ⟨draft, pruned, rfl, rfl, rfl, heligible, hpruned, h⟩)

/-- Runs, attempts and lease are the same. -/
structure SameRuns (db db' : Db) : Prop where
  runs : db'.runs = db.runs
  attempts : db'.attempts = db.attempts
  lease : db'.lease = db.lease
  nextRun : db'.nextRun = db.nextRun

omit [Sha256] in
/-- A new artifact has a new id, and its row holds the draft. -/
theorem insertArtifact_ok {draft : ArtifactDraft} {key : Option SnapshotKeyParts} {size artifactId : ℕ}
    (h : insertArtifact db draft key draft.semanticSummary.json.print size now =
      .ok (db', artifactId)) :
    artifactId = db.nextArtifact ∧ ∃ row : ContextArtifactRow, row.artifactId = db.nextArtifact ∧
      row.artifactSizeBytes = size ∧
      (key.isSome = draft.snapshotEligible → row.Holds draft) ∧
      db' = { db with artifacts := db.artifacts ++ [row], nextArtifact := db.nextArtifact + 1 } := by
  unfold insertArtifact at h
  simp only [bind_eq_ok] at h
  obtain ⟨-, -, -, -, -, -, -, -, -, -, -, -, -, -, -, -, h⟩ := h
  cases h
  exact ⟨rfl, _, rfl, rfl, fun heligible => ⟨heligible, rfl, rfl, rfl, rfl, rfl⟩, rfl⟩

omit [Sha256] in
theorem insertArtifact_sameRuns {draft : ArtifactDraft} {key : Option SnapshotKeyParts} {json : Text}
    {size artifactId : ℕ} (h : insertArtifact db draft key json size now = .ok (db', artifactId)) :
    SameRuns db db' := by
  unfold insertArtifact at h
  simp only [bind_eq_ok] at h
  obtain ⟨-, -, -, -, -, -, -, -, -, -, -, -, -, -, -, -, h⟩ := h
  cases h
  exact ⟨rfl, rfl, rfl, rfl⟩

/-- Storing an artifact changes the runs by the deletions of the plan only. -/
theorem storeArtifact_prunes {artifactId : ℕ} (h : storeArtifact db p = .ok (db', artifactId)) :
    ∃ pruned, Prunes db pruned ∧ SameRuns pruned db' := by
  rcases storeArtifact_ok h with ⟨rfl, -⟩ | ⟨rfl, -⟩ | ⟨draft, pruned, -, -, -, -, hpruned, hinsert⟩
  · exact ⟨db', .refl, rfl, rfl, rfl, rfl⟩
  · exact ⟨db', .refl, rfl, rfl, rfl, rfl⟩
  · exact ⟨pruned, applyArtifactRetentionPlan_prunes hpruned, insertArtifact_sameRuns hinsert⟩

/-- A batch without a context stores none; a failed run has a context without an artifact. -/
theorem storeContext_ok (h : storeContext db p = .ok db') :
    (p.batch.context = none ∧ db' = db) ∨
      ∃ context, p.batch.context = some context ∧
        (p.batch.status = .error ∧
            insertContext db p.active.scanRunId context none false none p.now = .ok db' ∨
          p.batch.status ≠ .error ∧ ∃ stored artifactId, storeArtifact db p = .ok (stored, artifactId) ∧
            insertContext stored p.active.scanRunId context (some artifactId)
              p.batch.snapshotHit.isSome
              (p.batch.snapshotHit.map SnapshotHitRef.reusedFromContextRunId) p.now = .ok db') := by
  unfold storeContext at h
  cases hcontext : p.batch.context with
  | none =>
    rw [hcontext] at h
    cases h
    exact .inl ⟨rfl, rfl⟩
  | some context =>
    rw [hcontext] at h
    simp only at h
    refine .inr ⟨context, rfl, ?_⟩
    split_ifs at h with herror
    · exact .inl ⟨herror, h⟩
    · simp only [bind_eq_ok] at h
      obtain ⟨⟨stored, artifactId⟩, hstored, h⟩ := h
      exact .inr ⟨herror, stored, artifactId, hstored, h⟩

theorem storeContext_prunes (h : storeContext db p = .ok db') :
    ∃ pruned, Prunes db pruned ∧ SameRuns pruned db' := by
  rcases storeContext_ok h with ⟨-, rfl⟩ | ⟨context, -, ⟨-, h⟩ | ⟨-, stored, artifactId, hstored, h⟩⟩
  · exact ⟨db', .refl, rfl, rfl, rfl, rfl⟩
  · obtain ⟨-, -, -, -, -, rfl⟩ := insertContext_ok h
    exact ⟨db, .refl, rfl, rfl, rfl, rfl⟩
  · obtain ⟨pruned, hpruned, hsame⟩ := storeArtifact_prunes hstored
    obtain ⟨-, -, -, -, -, rfl⟩ := insertContext_ok h
    exact ⟨pruned, hpruned, hsame.runs, hsame.attempts, hsame.lease, hsame.nextRun⟩

theorem finishRows_ok (h : finishRows db p = .ok db') :
    db.runs.countP (ownRun p.active) = 1 ∧ db.attempts.countP (ownAttempt p.active) = 1 ∧
      db' = { db with
        runs := updateWhere (ownRun p.active)
          (ScanRunRow.finish p.batch.status p.now p.metadataJson p.batch.auditSizeBytes) db.runs
        attempts := updateWhere (ownAttempt p.active) (AttemptRow.finish p.batch.status p.now)
          db.attempts } := by
  unfold finishRows at h
  simp only [bind_eq_ok, require_eq_ok] at h
  obtain ⟨-, hruns, -, hattempts, h⟩ := h
  cases h
  exact ⟨hruns, hattempts, rfl⟩

/-- The terminal transaction: a heartbeat, the context, the rows of the run, the deletions, and the
end of the lease. -/
theorem commitFinalization_ok (h : commitFinalization db p = .ok db') :
    ∃ beaten stored finished pruned, heartbeatInTransaction db p.active p.now = .ok beaten ∧
      storeContext beaten p = .ok stored ∧ finishRows stored p = .ok finished ∧
      applyTerminalRetentionPlan finished p.plan p.protectedRuns = .ok pruned ∧
      db' = { pruned with lease := none } := by
  unfold commitFinalization at h
  simp only [bind_eq_ok] at h
  obtain ⟨beaten, hbeaten, -, -, -, -, stored, hstored, finished, hfinished, pruned, hpruned, -, -,
    h⟩ := h
  cases h
  exact ⟨beaten, stored, finished, pruned, hbeaten, hstored, hfinished, hpruned, rfl⟩

end DailyReport.Store
