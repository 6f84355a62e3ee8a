import DailyReport.Store.LeaseMachine
import DailyReport.Store.Rebuilding

/-!
# Terminal replay

What the processes hold stays good while the database moves on (`SystemIntegrity`): the runs that
they began belong to their requests, and the artifacts that they prepared with are unchanged or gone.

* `terminal_replay_exact` : **the replay is exact**: whatever happens after a run was committed, as
  long as the run is stored, beginning its request again returns the envelope text that was
  committed.
-/

namespace DailyReport.Store

open Lib

variable {db db' : Db} {active : ActiveRun} {now : ℤ}

section Replay

variable [Sha256] {p : PreparedFinalization} {nowMs : ℕ}

/-! ### The system -/

/-- What a prepared finalization relies on. -/
structure PreparedInv (s : System) (p : PreparedFinalization) : Prop where
  active : p.active ∈ s.actives
  valid : ValidBatch p.active p.batch p.envelope
  metadata : p.metadataJson =
    (envelopeMetadata p.envelope p.batch.refillAudit p.batch.pdfPageAudits).print
  rebuilds : p.batch.status ≠ .error → ∃ draft, Rebuilds s.db p draft
  protectedRuns : p.protectedRuns = protectedRunsOf p.active p.batch

/-- The run of an active run was begun for its request. -/
structure ActiveInv (db : Db) (active : ActiveRun) : Prop where
  lt : active.scanRunId < db.nextRun
  request : ∀ row ∈ db.runs, row.scanRunId = active.scanRunId → row.requestId = active.requestId

structure SystemIntegrity (s : System) : Prop where
  db : Integrity s.db
  actives : ∀ active ∈ s.actives, ActiveInv s.db active
  prepared : ∀ p ∈ s.prepared, PreparedInv s p

omit [Sha256] in
theorem ActiveInv.evolves (h : ActiveInv db active) (hevolves : Evolves db db') :
    ActiveInv db' active := by
  refine ⟨h.lt.trans_le hevolves.nextRun_le, fun row hrow hid => ?_⟩
  obtain ⟨old, hold, holdId, hrequest, -⟩ := hevolves.kept row hrow (hid ▸ h.lt)
  rw [← hrequest]
  exact h.request old hold (holdId.trans hid)

/-- What the processes hold stays good when the database moves on. -/
theorem SystemIntegrity.moves {s : System} (h : SystemIntegrity s) (hdb : Integrity db')
    (hevolves : Evolves s.db db') (hkept : ArtifactsKept s.db db') :
    SystemIntegrity { s with db := db' } where
  db := hdb
  actives active hactive := (h.actives active hactive).evolves hevolves
  prepared p hp := by
    obtain ⟨hactive, hvalid, hmetadata, hrebuilds, hprotected⟩ := h.prepared p hp
    refine ⟨hactive, hvalid, hmetadata, fun hstatus => ?_, hprotected⟩
    obtain ⟨draft, hdraft⟩ := hrebuilds hstatus
    exact ⟨draft, hdraft.kept hkept⟩

/-- The run that is begun is a run of the request, and has its text. -/
theorem Integrity.beginRun_started {requestId storePath ownerId : Text} {canonical : CanonicalRequest}
    {runtime : AttemptRuntime} {started : ActiveRun} (h : Integrity db) (hdb : Integrity db')
    (hok : Store.beginRun db requestId canonical runtime storePath ownerId nowMs =
      .ok (db', .started started)) :
    started.requestId = requestId ∧ started.scanRunId < db'.nextRun ∧
      ∀ row ∈ db'.runs, row.scanRunId = started.scanRunId →
        row.requestId = requestId ∧ row.canonicalRequestJson = canonical.json := by
  have hevolves := beginRun_evolves hok
  rcases beginRun_ok hok with ⟨-, stored, hnot⟩ | ⟨hstart, -, -, hexisting⟩
  · cases hnot
  · obtain ⟨released, begun, active, hreleased, hstarted, -, hrequest, houtcome, rfl⟩ :=
      startAttempt_ok hstart
    obtain rfl : started = active := by simpa using houtcome
    rcases startRun_ok hstarted with ⟨-, hid, rfl⟩ | ⟨run, hfound, hid, hcount, rfl⟩
    · have hnew : newRun released.nextRun requestId canonical ownerId nowMs ∈
          released.runs ++ [newRun released.nextRun requestId canonical ownerId nowMs] := by simp
      refine ⟨hrequest, hid ▸ Nat.lt_succ_self _, fun row hrow hrowId => ?_⟩
      rw [hdb.runs.eq_of_id hrow hnew (hrowId.trans hid)]
      exact ⟨rfl, rfl⟩
    · have hrun : run ∈ db.runs := List.mem_of_find?_eq_some hfound
      have hrunRequest : run.requestId = requestId := by
        simpa using List.find?_some hfound
      have hlt : started.scanRunId < db.nextRun := hid ▸ h.runs.ids_lt run hrun
      refine ⟨hrequest, hlt.trans_le hevolves.nextRun_le, fun row hrow hrowId => ?_⟩
      obtain ⟨old, hold, holdId, holdRequest, holdJson, -⟩ := hevolves.kept row hrow (hrowId ▸ hlt)
      obtain rfl := h.runs.eq_of_id hold hrun (holdId.trans (hrowId.trans hid))
      rw [hfound] at hexisting
      exact ⟨holdRequest.symm.trans hrunRequest, holdJson.symm.trans (ensureRequestHash_json hexisting)⟩

/-- The run that is begun is a run of the request. -/
theorem Integrity.beginRun_active {requestId storePath ownerId : Text} {canonical : CanonicalRequest}
    {runtime : AttemptRuntime} {started : ActiveRun} (h : Integrity db) (hdb : Integrity db')
    (hok : Store.beginRun db requestId canonical runtime storePath ownerId nowMs =
      .ok (db', .started started)) : ActiveInv db' started := by
  obtain ⟨hrequest, hlt, hrows⟩ := h.beginRun_started hdb hok
  refine ⟨hlt, fun row hrow hid => ?_⟩
  rw [hrequest]
  exact (hrows row hrow hid).1

theorem SystemIntegrity.init : SystemIntegrity .init where
  db := ⟨SystemInv.init.runs, by constructor <;> simp [System.init, Db.empty]⟩
  actives := by simp [System.init]
  prepared := by simp [System.init]

/-- What one event keeps. -/
theorem SystemIntegrity.step {s s' : System} {e : Event} (h : SystemIntegrity s)
    (hok : Store.step s e = .ok s') : SystemIntegrity s' := by
  have hevolves := step_evolves hok
  cases e with
  | beginRun requestId canonical runtime storePath ownerId nowMs =>
    simp only [Store.step, bind_eq_ok] at hok
    obtain ⟨⟨db, outcome⟩, hbegin, hok⟩ := hok
    cases hok
    obtain ⟨hdb, -, hartifacts, hnext⟩ := h.db.beginRun hbegin
    have hmoved := h.moves hdb hevolves (.of_eq hartifacts hnext)
    refine ⟨hdb, fun active hactive => ?_, fun p hp => ?_⟩
    · rcases List.mem_append.1 hactive with hactive | hactive
      · exact hmoved.actives active hactive
      · cases outcome with
        | started started =>
          obtain rfl : active = started := by simpa [BeginRunOutcome.active] using hactive
          exact h.db.beginRun_active hdb hbegin
        | stored envelope => simp [BeginRunOutcome.active] at hactive
    · obtain ⟨hactive, hvalid, hmetadata, hrebuilds, hprotected⟩ := hmoved.prepared p hp
      exact ⟨List.mem_append_left _ hactive, hvalid, hmetadata, hrebuilds, hprotected⟩
  | heartbeat handle nowMs =>
    simp only [Store.step, bind_eq_ok] at hok
    obtain ⟨active, -, db, hbeat, hok⟩ := hok
    cases hok
    have hbeat' := heartbeat_ok hbeat
    exact h.moves ⟨h.db.runs.heartbeat hbeat', h.db.links.heartbeat hbeat'⟩ hevolves
      (heartbeat_kept hbeat')
  | recordWorkerFingerprints handle office pdf nowMs =>
    simp only [Store.step, bind_eq_ok] at hok
    obtain ⟨active, -, db, hrecord, hok⟩ := hok
    cases hok
    have hkept := heartbeat_kept (recordWorkerFingerprints_ok hrecord)
    exact h.moves ⟨h.db.runs.recordWorkerFingerprints hrecord,
      h.db.links.recordWorkerFingerprints hrecord⟩ hevolves ⟨hkept.next_le, hkept.kept⟩
  | abandon handle nowMs =>
    simp only [Store.step, bind_eq_ok] at hok
    obtain ⟨active, -, db, habandon, hok⟩ := hok
    cases hok
    have hdb : Integrity db := ⟨h.db.runs.abandon habandon, h.db.links.abandon habandon⟩
    obtain ⟨lease, -, -, -, rfl⟩ := abandonActiveRun_ok habandon
    exact h.moves hdb hevolves (.of_eq rfl rfl)
  | prepare handle batch nowMs =>
    simp only [Store.step, bind_eq_ok, held_eq_ok] at hok
    obtain ⟨active, hactive, prepared, hprepare, hok⟩ := hok
    cases hok
    refine ⟨h.db, h.actives, fun p hp => ?_⟩
    rcases List.mem_append.1 hp with hp | hp
    · obtain ⟨hpActive, hvalid, hmetadata, hrebuilds, hprotected⟩ := h.prepared p hp
      exact ⟨hpActive, hvalid, hmetadata, hrebuilds, hprotected⟩
    · obtain rfl : p = prepared := by simpa using hp
      have hprepares := prepareFinalization_ok hprepare
      refine ⟨hprepares.active_eq ▸ List.mem_of_getElem? hactive, ?_, ?_, fun hstatus => ?_, ?_⟩
      · rw [hprepares.active_eq, hprepares.batch_eq]
        exact validateFinalization_ok hprepares.valid
      · rw [hprepares.batch_eq]
        exact hprepares.metadata_eq
      · exact hprepares.rebuilds_draft h.db.links (hprepares.batch_eq ▸ hstatus)
      · rw [hprepares.active_eq, hprepares.batch_eq]
        exact hprepares.runs_eq
  | commit handle =>
    simp only [Store.step, bind_eq_ok, held_eq_ok] at hok
    obtain ⟨prepared, hheld, db, hcommit, hok⟩ := hok
    cases hok
    have hprepared := h.prepared prepared (List.mem_of_getElem? hheld)
    exact h.moves (h.db.commit hprepared.valid hcommit) hevolves (commitFinalization_kept hcommit)
  | gc nowMs artifactsStatement runsStatement =>
    simp only [Store.step, bind_eq_ok] at hok
    obtain ⟨db, hgc, hok⟩ := hok
    cases hok
    have hprunes := runOpportunisticGc_prunes hgc
    exact h.moves ⟨hprunes.runsInv h.db.runs, hprunes.linked h.db.links⟩ hevolves
      hprunes.artifactsKept

/-- Every run of the system keeps the tables linked. -/
theorem systemIntegrity_runEvents (events : List Event) : SystemIntegrity (runEvents events) :=
  applyAll_invariant (fun _ _ _ h hok => h.step hok) events .init

/-! ### Replaying -/

omit [Sha256] in
/-- The run of an owner is not committed. -/
theorem Owns.ne_of_committed {lease : LeaseRow} (howns : Owns db active lease) (h : RunsInv db)
    {row : ScanRunRow} (hrow : row ∈ db.runs) (hcommitted : row.status.isTerminal = true) :
    active.scanRunId ≠ row.scanRunId := by
  obtain ⟨own, hown, howner⟩ := howns.run
  have hrunning := ownRun_eq_true.1 howner
  intro hid
  obtain rfl := h.eq_of_id hown hrow (hrunning.1.trans hid)
  rw [hrunning.2.2] at hcommitted
  cases hcommitted

/-- A committed run that stays is answered from the same artifact. -/
theorem step_replay {s s' : System} {e : Event} (h : SystemIntegrity s) (hok : step s e = .ok s')
    {row : ScanRunRow} (hrow : row ∈ s.db.runs) (hcommitted : row.status.isTerminal = true)
    (hrow' : row ∈ s'.db.runs) :
    loadArtifactForReplay s'.db row.scanRunId = loadArtifactForReplay s.db row.scanRunId := by
  cases e with
  | beginRun requestId canonical runtime storePath ownerId nowMs =>
    simp only [step, bind_eq_ok] at hok
    obtain ⟨⟨db, outcome⟩, hbegin, hok⟩ := hok
    cases hok
    obtain ⟨-, hcontexts, hartifacts, -⟩ := h.db.beginRun hbegin
    exact loadArtifactForReplay_of_same hcontexts hartifacts
  | heartbeat handle nowMs =>
    simp only [step, bind_eq_ok] at hok
    obtain ⟨active, -, db, hbeat, hok⟩ := hok
    cases hok
    obtain ⟨lease, -, -, -, rfl⟩ := heartbeatInTransaction_ok (heartbeat_ok hbeat)
    exact loadArtifactForReplay_of_same rfl rfl
  | recordWorkerFingerprints handle office pdf nowMs =>
    simp only [step, bind_eq_ok] at hok
    obtain ⟨active, -, db, hrecord, hok⟩ := hok
    cases hok
    obtain ⟨lease, -, -, -, rfl⟩ := heartbeatInTransaction_ok (recordWorkerFingerprints_ok hrecord)
    exact loadArtifactForReplay_of_same rfl rfl
  | abandon handle nowMs =>
    simp only [step, bind_eq_ok] at hok
    obtain ⟨active, -, db, habandon, hok⟩ := hok
    cases hok
    obtain ⟨lease, -, -, -, rfl⟩ := abandonActiveRun_ok habandon
    exact loadArtifactForReplay_of_same rfl rfl
  | prepare handle batch nowMs =>
    simp only [step, bind_eq_ok] at hok
    obtain ⟨active, -, prepared, -, hok⟩ := hok
    cases hok
    rfl
  | commit handle =>
    simp only [step, bind_eq_ok] at hok
    obtain ⟨prepared, -, db, hcommit, hok⟩ := hok
    cases hok
    obtain ⟨beaten, -, -, -, hbeaten, -⟩ := commitFinalization_ok hcommit
    obtain ⟨lease, howns, -⟩ := heartbeatInTransaction_ok hbeaten
    exact h.db.commit_replay hcommit hrow' (howns.ne_of_committed h.db.runs hrow hcommitted)
  | gc nowMs artifactsStatement runsStatement =>
    simp only [step, bind_eq_ok] at hok
    obtain ⟨db, hgc, hok⟩ := hok
    cases hok
    exact (runOpportunisticGc_prunes hgc).loadArtifactForReplay_eq hrow'

/-- Right after the terminal transaction, the run is answered with the envelope of the batch. -/
theorem Integrity.commit_answers {s : System} (h : Integrity s.db) (hprepared : PreparedInv s p)
    (hok : commitFinalization s.db p = .ok db') (hdb : Integrity db')
    (hactive : ActiveInv db' p.active) {row : ScanRunRow} (hrow : row ∈ db'.runs)
    (hid : row.scanRunId = p.active.scanRunId) :
    row.status.isTerminal = true ∧ Answers db' row p.batch.envelopeJson := by
  obtain ⟨beaten, stored, finished, pruned, hbeaten, hstored, hfinished, hpruned, rfl⟩ :=
    commitFinalization_ok hok
  have hprunes := applyTerminalRetentionPlan_prunes hpruned
  have hstoredRuns := h.runs.storeContext hbeaten hstored
  obtain ⟨hruns, -, rfl⟩ := finishRows_ok hfinished
  -- the row is the finished row of the run
  obtain ⟨own, hfilter⟩ := exists_filter_eq_singleton hruns
  have hown : own ∈ stored.runs ∧ ownRun p.active own = true :=
    List.mem_filter.1 (by rw [hfilter]; simp)
  have hrowEq : row = own.finish p.batch.status p.now p.metadataJson p.batch.auditSizeBytes := by
    rcases mem_updateWhere.1 (hprunes.runs_subset row hrow) with ⟨hmem, hnot⟩ | ⟨old, hold, hmatch, rfl⟩
    · have hsame := hstoredRuns.eq_of_id hmem hown.1
        (hid.trans (ownRun_eq_true.1 hown.2).1.symm)
      rw [hsame, hown.2] at hnot
      cases hnot
    · rw [hstoredRuns.eq_of_id hold hown.1
        ((ownRun_eq_true.1 hmatch).1.trans (ownRun_eq_true.1 hown.2).1.symm)]
  have hreplay : loadArtifactForReplay { pruned with lease := none } row.scanRunId =
      loadArtifactForReplay stored p.active.scanRunId := by
    rw [← hid]
    exact (loadArtifactForReplay_of_same rfl rfl).trans
      ((hprunes.loadArtifactForReplay_eq hrow).trans (loadArtifactForReplay_of_same rfl rfl))
  have hanswers : ∀ {artifact : Option ArtifactDraft},
      loadArtifactForReplay stored p.active.scanRunId = .ok artifact →
      (withContext p.envelope (contextOf artifact)).validate = .ok () →
      (withContext p.envelope (contextOf artifact)).json.print = p.batch.envelopeJson →
      Answers { pruned with lease := none } row p.batch.envelopeJson := fun hload hvalid hjson =>
    answers_of_load hprepared.valid hprepared.metadata hid (hactive.request row hrow hid)
      (hdb.links.hashes row hrow) (by rw [hrowEq]; rfl) (by rw [hrowEq]; rfl) (hreplay.trans hload)
      hvalid hjson
  refine ⟨by rw [hrowEq]; exact hprepared.valid.terminal, ?_⟩
  have hlinks := h.links.heartbeat hbeaten
  by_cases hstatus : p.batch.status = .error
  · obtain ⟨lease, howns, -, -, hbeatenEq⟩ := heartbeatInTransaction_ok hbeaten
    obtain ⟨running, hrunning, hrunningOwn⟩ := howns.run
    have hnew : beaten.hasContext p.active.scanRunId = false := by
      have hopen := ownRun_eq_true.1 hrunningOwn
      rw [hbeatenEq, ← hopen.1]
      exact h.links.hasContext_eq_false h.runs.ids_nodup hrunning (by rw [hopen.2.2]; rfl)
    have hempty : withContext p.envelope (contextOf none) = p.envelope := by
      have herror : p.envelope.status = .error := by
        have hmatch := hprepared.valid.status_eq
        rw [hstatus] at hmatch
        cases hs : p.envelope.status with
        | error => rfl
        | ok | partialOk => rw [hs] at hmatch; cases hmatch
      have hnone := ContextEnvelope.fileContext_of_error hprepared.valid.envelope_valid herror
      calc withContext p.envelope (contextOf none)
          = { p.envelope with fileContext := [] } := rfl
        _ = p.envelope := by rw [← hnone]
    exact hanswers (storeContext_error hstored hstatus hnew)
      (hempty.symm ▸ hprepared.valid.envelope_valid) (hempty.symm ▸ hprepared.valid.canonical)
  · obtain ⟨draft, hdraft⟩ := hprepared.rebuilds hstatus
    obtain ⟨context, hcontext, -⟩ := hprepared.valid.context hstatus
    have hload := (hdraft.kept (heartbeat_kept hbeaten)).storeContext hlinks
      (by rw [hcontext]; rfl) hstatus hstored
    exact hanswers hload hdraft.valid hdraft.json

/-- What is answered stays answered for as long as the run is stored. -/
theorem answers_applyAll {s : System} (h : SystemIntegrity s) {row : ScanRunRow}
    (hrow : row ∈ s.db.runs) (hcommitted : row.status.isTerminal = true) {json : Text}
    (hanswers : Answers s.db row json) (more : List Event)
    (hrow' : row ∈ (applyAll step s more).db.runs) :
    Answers (applyAll step s more).db row json := by
  induction more generalizing s with
  | nil => exact hanswers
  | cons e more ih =>
    rw [applyAll_cons] at hrow' ⊢
    cases hs : step s e with
    | error x =>
      rw [applyEvent_of_error hs] at hrow' ⊢
      exact ih h hrow hanswers hrow'
    | ok s' =>
      rw [applyEvent_of_ok hs] at hrow' ⊢
      -- the row was not deleted in between, because ids are not given twice
      have hmid : row ∈ s'.db.runs := by
        obtain ⟨old, hold, hid, -, -, hsame⟩ := (evolves_applyAll s' more).kept row hrow'
          ((h.db.runs.ids_lt row hrow).trans_le (step_evolves hs).nextRun_le)
        obtain ⟨older, holder, holderId, -, -, holderSame⟩ := (step_evolves hs).kept old hold
          (hid ▸ h.db.runs.ids_lt row hrow)
        obtain rfl := h.db.runs.eq_of_id holder hrow (holderId.trans hid)
        exact holderSame hcommitted ▸ hold
      refine ih (h.step hs) hmid ?_ hrow'
      obtain ⟨stored, hstored, hjson⟩ := hanswers
      exact ⟨stored, (loadStoredEnvelope_congr (step_replay h hs hrow hcommitted hmid)).trans hstored,
        hjson⟩

/-- The request of a stored run finds it. -/
theorem Linked.findRun_eq (h : Linked P db) {row : ScanRunRow} (hrow : row ∈ db.runs) :
    Store.findRun db row.requestId = some row := by
  have hsome : (Store.findRun db row.requestId).isSome = true :=
    List.find?_isSome.2 ⟨row, hrow, by simp⟩
  obtain ⟨found, hfound⟩ := Option.isSome_iff_exists.1 hsome
  have hrequest : found.requestId = row.requestId := by
    simpa using List.find?_some hfound
  rw [hfound, List.inj_on_of_nodup_map h.requests_nodup (List.mem_of_find?_eq_some hfound) hrow
    hrequest]

/-- Beginning the request of a committed run again, with the request that is stored. -/
theorem Integrity.beginRun_answers (h : Integrity db) {row : ScanRunRow} (hrow : row ∈ db.runs)
    (hcommitted : row.status.isTerminal = true) {json : Text} (hanswers : Answers db row json)
    {canonical : CanonicalRequest} {runtime : AttemptRuntime} {storePath ownerId : Text}
    {nowMs : ℕ} {now : ℤ} (hcanonical : canonical.json = row.canonicalRequestJson)
    (hvalid : validateBegin row.requestId canonical runtime storePath nowMs = .ok now) :
    ∃ stored, Store.beginRun db row.requestId canonical runtime storePath ownerId nowMs =
      .ok (db, .stored stored) ∧ stored.envelopeJson = json := by
  obtain ⟨stored, hstored, hjson⟩ := hanswers
  have hhash : requestHash canonical.json = canonical.hash := by
    unfold validateBegin at hvalid
    simp only [bind_eq_ok, require_eq_ok] at hvalid
    obtain ⟨-, -, -, -, -, ⟨-, -, -, -, hhash⟩, -⟩ := hvalid
    exact hhash
  have hstoredHash := h.links.hashes row hrow
  have hexisting : ensureExistingRequest (some row) canonical = .ok () := by
    simp only [ensureExistingRequest, ensureRequestHash, require, hstoredHash, ← hhash, hcanonical,
      bind, Except.bind, if_true, and_self]
  refine ⟨stored, ?_, hjson⟩
  simp only [Store.beginRun, hvalid, h.links.findRun_eq hrow, hexisting, Option.filter_some, hcommitted,
    if_true, hstored, bind, Except.bind]

/-- **Terminal replay is exact.**  After a terminal transaction and whatever events follow it, a run
that was committed and is still stored belongs to the request of its process, and beginning that
request again, with the canonical request that is stored, returns the envelope text that was
committed and leaves the database as it is. -/
theorem terminal_replay_exact (before after : List Event) (handle : ℕ) (p : PreparedFinalization)
    (s' : System) (hheld : (runEvents before).prepared[handle]? = some p)
    (hcommit : step (runEvents before) (.commit handle) = .ok s') (row : ScanRunRow)
    (hrow : row ∈ (runEvents (before ++ .commit handle :: after)).db.runs)
    (hid : row.scanRunId = p.active.scanRunId) (canonical : CanonicalRequest)
    (runtime : AttemptRuntime) (storePath ownerId : Text) (nowMs : ℕ) (now : ℤ)
    (hcanonical : canonical.json = row.canonicalRequestJson)
    (hvalid : validateBegin p.active.requestId canonical runtime storePath nowMs = .ok now) :
    row.requestId = p.active.requestId ∧
      ∃ stored, beginRun (runEvents (before ++ .commit handle :: after)).db p.active.requestId
          canonical runtime storePath ownerId nowMs =
            .ok ((runEvents (before ++ .commit handle :: after)).db, .stored stored) ∧
        stored.envelopeJson = p.batch.envelopeJson := by
  have hbefore := systemIntegrity_runEvents before
  have hcommitted := hbefore.step hcommit
  have hfinal := systemIntegrity_runEvents (before ++ .commit handle :: after)
  have hrun : runEvents (before ++ .commit handle :: after) = applyAll step s' after := by
    rw [runEvents, applyAll_append, applyAll_cons, ← runEvents, applyEvent_of_ok hcommit]
  rw [hrun] at hrow hfinal ⊢
  have hprepared := hbefore.prepared p (List.mem_of_getElem? hheld)
  obtain ⟨other, hother, db', hok, hs'⟩ : ∃ other, held (runEvents before).prepared handle = .ok other ∧
      ∃ db', commitFinalization (runEvents before).db other = .ok db' ∧
        { runEvents before with db := db' } = s' := by
    simpa only [step, bind_eq_ok, Except.ok.injEq] using hcommit
  obtain rfl : other = p := Option.some.inj ((held_eq_ok.1 hother).symm.trans hheld)
  subst hs'
  -- the row is the one that the transaction has left
  have hactive := hcommitted.actives other.active hprepared.active
  obtain ⟨old, hold, holdId, -, -, hsame⟩ := (evolves_applyAll _ after).kept row hrow (hid ▸ hactive.lt)
  obtain ⟨hterminal, hanswers⟩ := hbefore.db.commit_answers hprepared hok hcommitted.db hactive hold
    (holdId.trans hid)
  obtain rfl := hsame hterminal
  have hrequest := hactive.request row hold hid
  refine ⟨hrequest, ?_⟩
  have hstays := answers_applyAll hcommitted hold hterminal hanswers after hrow
  rw [← hrequest] at hvalid ⊢
  exact hfinal.db.beginRun_answers hrow hterminal hstays hcanonical hvalid

end Replay

/-! ### Runs over one file -/

section Memo

/-- The digest of the request of the runs below. -/
def requestDigest : Text := lit "2e19620b6f0a9c5eb3cba47942e072b66fd4091134b05cdfb900bee2da3677a1"
/-- The digest of their context. -/
def memoDigest : Text := lit "edb465624291e4053c6c5ea4b7eb320dec773e10a57d26b95dcf0564f8e310f8"

/-- The digests of the texts of the runs. -/
local instance memoSha256 : Sha256 where
  hex text :=
    if text = lit "request-v1" ++ [Char.ofNat 0] ++ lit "{}" then requestDigest
    else if text = lit "note" then memoDigest
    else []

def memoRuntime : AttemptRuntime where
  normalizedScanDbPath := lit "C:\\data\\scan.db"
  normalizedOfficeWorkerPath := lit "C:\\bin\\office.exe"
  normalizedPdfWorkerPath := lit "C:\\bin\\pdf.exe"
  engineFingerprint := (Json.obj [(lit "contract", .str (lit "ai_daily_context")),
    (lit "protocol_version", .num 1), (lit "binary_name", .str (lit "scanner")),
    (lit "engine_version", .str (lit "1")), (lit "engine_build", .str (lit "b")),
    (lit "target_triple", .str (lit "t"))]).print

def memoCounts : ContextCounts where
  sourceFileCount := 1
  successCount := 1
  timeoutCount := 0
  includedFileCount := 1
  omittedFileCount := 0
  errorFileCount := 0
  inputChars := 4
  outputChars := 4

def memoEnvelope (runId : ℕ) (requestId : Text) : ContextEnvelope where
  contract := lit "ai_daily_context"
  protocolVersion := 1
  requestId := requestId
  engineVersion := lit "1"
  engineBuild := lit "b"
  status := .ok
  fileContext := lit "note"
  summary := { memoCounts with
    totalDurationMs := 1, discoveryDurationMs := 0, parseDurationMs := 1, compressionDurationMs := 0 }
  scanRunId := some runId
  contextRunId := some runId
  warnings := []
  error := none

def memoDecision : ContextDecision where
  relativePath := lit "n.md"
  action := .keep
  reason := lit "within_budget"
  priority := 0
  inputChars := 4
  outputChars := 4
  truncated := false
  errorCode := []

def memoInventory : InventoryRecord where
  fileIdentity := lit "n"
  relativePath := lit "n.md"
  sourceVersion := lit "mtime_ns=1:size=4"
  sourceGuardKind := some (lit "content_sha256_v1")
  sourceGuardSha256 := some memoDigest

/-- The file as it was parsed, or as a snapshot stands for it. -/
def memoResult (snapshot : Bool) : FileResultRecord where
  fileIdentity := lit "n"
  relativePath := lit "n.md"
  sourceVersion := lit "mtime_ns=1:size=4"
  parseProfileHash := memoDigest
  cacheStatus := if snapshot then .fresh else .miss
  cacheMissReason := if snapshot then .none else .newFile
  parseStatus := .success
  parserBackend := lit "light_text_v2"
  workerLane := .rustCore
  truncated := false
  contentSha256 := memoDigest
  primaryDurationMs := 0
  fallbackDurationMs := 0
  parseDurationMs := 0
  failureClass := []
  fallbackBackend := []
  fallbackReasonCode := []
  parseTransport := if snapshot then .snapshot else .rustInProcess
  parseAttemptCount := if snapshot then 0 else 1
  pdfClassification := none
  error := none

def memoFileRow : ArtifactFileRow where
  fileIdentity := lit "n"
  relativePath := lit "n.md"
  legacySourceVersion := lit "mtime_ns=1:size=4"
  sourceGuardKind := some (lit "content_sha256_v1")
  sourceGuardSha256 := some memoDigest
  parseProfileHash := memoDigest
  parseStatus := .success
  parserBackend := lit "light_text_v2"
  workerLane := lit "rust_core"
  truncated := false
  contentSha256 := memoDigest
  classifier := none

def memoArtifact : NewArtifact :=
  ⟨{ snapshotEligible := true
     finalContext := lit "note"
     contextSha256 := memoDigest
     semanticSummary := { memoCounts with reservedChars := 0, renderedChars := 4 }
     fileRows := [memoFileRow]
     decisionRows := [
       { fileIdentity := lit "n", relativePath := lit "n.md", action := .keep
         reason := lit "within_budget", priority := 0, inputChars := 4, outputChars := 4
         truncated := false, errorCode := [] }] },
   { hash := by decide +kernel
     fits := by constructor <;> decide
     counts := by decide +kernel
     files_sorted := by simp
     decisions_sorted := by simp
     rows_of_ineligible := by simp }⟩

/-- The batch of a run over the file, from scratch or by a snapshot. -/
def memoBatch (runId : ℕ) (requestId : Text) (hit : Option SnapshotHitRef) : FinalizationBatch where
  status := .success
  envelopeJson := (memoEnvelope runId requestId).json.print
  inventory := [memoInventory]
  fileResults := [memoResult hit.isSome]
  diagnostics := []
  context := some
    { contextProfileHash := memoDigest
      status := .success
      finalContext := lit "note"
      contextSha256 := memoDigest
      summary := (memoEnvelope runId requestId).summary
      decisions := [⟨lit "n", memoDecision⟩] }
  artifact := if hit.isSome then none else some memoArtifact
  snapshotKey := if hit.isSome then none else some ⟨memoDigest, lit "{}"⟩
  snapshotHit := hit
  refillAudit := none
  pdfPageAudits := none
  auditSizeBytes := 100

def memoRequest (requestId : Text) : CanonicalRequest where
  requestId := requestId
  json := lit "{}"
  hashAlgorithm := requestHashAlgorithm
  hash := requestDigest

def memoWorker : WorkerFingerprint where
  contract := lit "worker"
  version := lit "1"
  build := lit "b"

/-- A whole run over the file by one process, with the given handle. -/
def memoRun (handle runId : ℕ) (requestId : Text) (ownerId : String) (hit : Option SnapshotHitRef)
    (nowMs : ℕ) : List Event :=
  [.beginRun requestId (memoRequest requestId) memoRuntime (lit "C:\\data\\scan.db") (lit ownerId)
      nowMs,
    .recordWorkerFingerprints handle (some memoWorker) (some memoWorker) nowMs,
    .prepare handle (memoBatch runId requestId hit) nowMs, .commit handle]

def firstRequest : Text := lit "00000000-0000-4000-8000-000000000001"
def secondRequest : Text := lit "00000000-0000-4000-8000-000000000002"

/-- The first run, up to its terminal transaction. -/
def preparedMemo : List Event := (memoRun 0 1 firstRequest "owner-a" none 0).take 3

set_option maxRecDepth 10000 in
/-- The run is committed, nothing that is old enough to go is there, and the request is begun again. -/
theorem terminal_replay_exact_memo :
    ∃ stored, beginRun (runEvents (preparedMemo ++ .commit 0 :: [.gc 5 true true])).db firstRequest
        (memoRequest firstRequest) memoRuntime (lit "C:\\data\\scan.db") (lit "owner-b") 7 =
          .ok ((runEvents (preparedMemo ++ .commit 0 :: [.gc 5 true true])).db, .stored stored) ∧
      stored.envelopeJson = (memoEnvelope 1 firstRequest).json.print := by
  have hrun : ((runEvents preparedMemo).prepared[0]?.map fun p => (p.active, p.batch.envelopeJson)) =
        some (⟨1, 1, lit "owner-a", firstRequest⟩, (memoEnvelope 1 firstRequest).json.print) ∧
      (step (runEvents preparedMemo) (.commit 0)).toOption.isSome = true ∧
      (runEvents (preparedMemo ++ .commit 0 :: [.gc 5 true true])).db.runs.any (fun row =>
        decide (row.scanRunId = 1) && decide (row.canonicalRequestJson = lit "{}")) = true := by
    decide +kernel
  obtain ⟨hprepared, hcommit, hstored⟩ := hrun
  obtain ⟨p, hp, hpair⟩ := Option.map_eq_some_iff.1 hprepared
  obtain ⟨hactive, hjson⟩ := Prod.mk.inj hpair
  obtain ⟨row, hrow, hrowIs⟩ := List.any_eq_true.1 hstored
  simp only [Bool.and_eq_true, decide_eq_true_eq] at hrowIs
  cases hstep : step (runEvents preparedMemo) (.commit 0) with
  | error x => rw [hstep] at hcommit; cases hcommit
  | ok s' =>
    have hreplay := terminal_replay_exact preparedMemo [.gc 5 true true] 0 p s' hp hstep row hrow
      (by rw [hactive]; exact hrowIs.1) (memoRequest firstRequest) memoRuntime
      (lit "C:\\data\\scan.db") (lit "owner-b") 7 7 hrowIs.2.symm
      (by rw [hactive]; decide +kernel)
    rw [hactive, hjson] at hreplay
    exact hreplay.2

end Memo

end DailyReport.Store
