import DailyReport.Store.Exclusion

/-!
# The keys between the tables

What the unique and foreign keys of the tables, and the order of the writes, make of runs, contexts
and artifacts (`Linked`): every context belongs to a committed run and finds its artifact, and every
run that answered with a context has one.  Every operation keeps it; `integrity_runEvents` says so
of every run of the system.

Inside the terminal transaction the context is there before its run is finished.  So `Linked` is
about the runs that may have a context: outside they are the committed runs.
-/

namespace DailyReport.Store

open Lib

/-- The run answered with a context. -/
def ScanRunRow.Answered (row : ScanRunRow) : Prop :=
  row.status = .success ∨ row.status = .partialSuccess

def ScanRunRow.Committed (row : ScanRunRow) : Prop := row.status.isTerminal = true

variable [Sha256]

/-- The keys hold, and the runs with a context are among those with `P`. -/
structure Linked (P : ScanRunRow → Prop) (db : Db) : Prop where
  requests_nodup : (db.runs.map ScanRunRow.requestId).Nodup
  hashes : ∀ row ∈ db.runs, requestHash row.canonicalRequestJson = row.requestHash
  artifacts_lt : ∀ row ∈ db.artifacts, row.artifactId < db.nextArtifact
  artifacts_nodup : (db.artifacts.map ContextArtifactRow.artifactId).Nodup
  contexts_nodup : (db.contexts.map ContextRunRow.scanRunId).Nodup
  context_run : ∀ context ∈ db.contexts, ∃ row ∈ db.runs, row.scanRunId = context.scanRunId ∧ P row
  context_artifact : ∀ context ∈ db.contexts, ∀ id ∈ context.artifactId, db.hasArtifact id = true
  context_source : ∀ context ∈ db.contexts, ∀ id ∈ context.reusedFromContextRunId,
    db.hasContext id = true
  sources_of_hits : ∀ context ∈ db.contexts, context.snapshotHit = false →
    context.reusedFromContextRunId = none
  run_context : ∀ row ∈ db.runs, row.Answered →
    ∃ context ∈ db.contexts, context.scanRunId = row.scanRunId ∧ context.artifactId.isSome = true

/-- The keys hold and one run at a time is running. -/
structure Integrity (db : Db) : Prop where
  runs : RunsInv db
  links : Linked ScanRunRow.Committed db

variable {P Q : ScanRunRow → Prop} {db db' : Db} {active : ActiveRun} {now : ℤ}

/-- The keys are about runs, contexts and artifacts only. -/
theorem Linked.of_same (h : Linked P db) (hruns : db'.runs = db.runs)
    (hcontexts : db'.contexts = db.contexts) (hartifacts : db'.artifacts = db.artifacts)
    (hnext : db'.nextArtifact = db.nextArtifact) : Linked P db' := by
  obtain ⟨runs, attempts, lease, artifacts, contexts, nextRun, nextArtifact⟩ := db'
  simp only at hruns hcontexts hartifacts hnext
  subst hruns hcontexts hartifacts hnext
  exact ⟨h.requests_nodup, h.hashes, h.artifacts_lt, h.artifacts_nodup, h.contexts_nodup, h.context_run,
    h.context_artifact, h.context_source, h.sources_of_hits, h.run_context⟩

/-! ### Deletions -/

theorem Linked.deleteRuns (h : Linked P db) (victims : List ℕ) : Linked P (db.deleteRuns victims) where
  requests_nodup := ((deleteWhere_sublist _ _).map _).nodup h.requests_nodup
  hashes row hrow := h.hashes row (Db.mem_deleteRuns_runs.1 hrow).1
  artifacts_lt := h.artifacts_lt
  artifacts_nodup := h.artifacts_nodup
  contexts_nodup := by
    have hkeys : ((db.deleteRuns victims).contexts.map ContextRunRow.scanRunId).Sublist
        (db.contexts.map ContextRunRow.scanRunId) := by
      rw [Db.deleteRuns_contexts, Db.map_deleteContexts]
      exact (deleteWhere_sublist _ _).map _
    exact hkeys.nodup h.contexts_nodup
  context_run context hcontext := by
    obtain ⟨old, hold, hkeep, rfl⟩ := Db.mem_deleteContexts.1 hcontext
    obtain ⟨row, hrow, hid, hP⟩ := h.context_run old hold
    refine ⟨row, Db.mem_deleteRuns_runs.2 ⟨hrow, hid ▸ hkeep⟩, ?_, hP⟩
    split_ifs <;> exact hid
  context_artifact context hcontext := by
    obtain ⟨old, hold, -, rfl⟩ := Db.mem_deleteContexts.1 hcontext
    intro id hartifact
    refine h.context_artifact old hold id ?_
    split_ifs at hartifact <;> exact hartifact
  context_source context hcontext := by
    obtain ⟨old, hold, -, rfl⟩ := Db.mem_deleteContexts.1 hcontext
    intro id hsource
    split_ifs at hsource with hgone
    · cases hsource
    · refine Db.hasContext_deleteContexts.2 ⟨h.context_source old hold id hsource, fun hmem => hgone ?_⟩
      rw [Option.mem_def.1 hsource]
      simpa using hmem
  sources_of_hits context hcontext := by
    obtain ⟨old, hold, -, rfl⟩ := Db.mem_deleteContexts.1 hcontext
    intro hhit
    split_ifs at hhit ⊢
    · rfl
    · exact h.sources_of_hits old hold hhit
  run_context row hrow hanswered := by
    obtain ⟨hmem, hkeep⟩ := Db.mem_deleteRuns_runs.1 hrow
    obtain ⟨context, hcontext, hid, hartifact⟩ := h.run_context row hmem hanswered
    refine ⟨_, Db.mem_deleteContexts.2 ⟨context, hcontext, hid ▸ hkeep, rfl⟩, ?_, ?_⟩ <;>
      split_ifs <;> assumption

theorem Linked.deleteArtifacts (h : Linked P db) {victims : List ℕ}
    (hvictims : ∀ id ∈ victims, db.referenced id = false) : Linked P (db.deleteArtifacts victims) where
  requests_nodup := h.requests_nodup
  hashes := h.hashes
  artifacts_lt row hrow := h.artifacts_lt row (Db.mem_deleteArtifacts.1 hrow).1
  artifacts_nodup := ((deleteWhere_sublist _ _).map _).nodup h.artifacts_nodup
  contexts_nodup := h.contexts_nodup
  context_run := h.context_run
  context_artifact context hcontext id hartifact := by
    -- an artifact that a context refers to is no victim
    have hkeep : id ∉ victims := fun hmem =>
      Db.referenced_eq_false.1 (hvictims id hmem) context hcontext hartifact
    obtain ⟨row, hrow, hid⟩ := Db.hasArtifact_eq_true.1 (h.context_artifact context hcontext id hartifact)
    exact Db.hasArtifact_eq_true.2 ⟨row, Db.mem_deleteArtifacts.2 ⟨hrow, hid ▸ hkeep⟩, hid⟩
  context_source := h.context_source
  sources_of_hits := h.sources_of_hits
  run_context := h.run_context

theorem Prunes.linked (hprunes : Prunes db db') (h : Linked P db) : Linked P db' := by
  induction hprunes with
  | refl => exact h
  | runs victims _ _ ih => exact ih.deleteRuns victims
  | artifacts victims _ hvictims ih => exact ih.deleteArtifacts hvictims

/-! ### Updates of runs -/

/-- An update of runs that keeps what identifies them. -/
theorem Linked.updateRuns (h : Linked P db) {p : ScanRunRow → Bool} {f : ScanRunRow → ScanRunRow}
    {rows : List AttemptRow} {lease : Option LeaseRow} {next : ℕ}
    (hf : ∀ row, (f row).scanRunId = row.scanRunId ∧ (f row).requestId = row.requestId ∧
      (f row).canonicalRequestJson = row.canonicalRequestJson ∧ (f row).requestHash = row.requestHash)
    (hP : ∀ row, P row → Q (if p row then f row else row))
    (hanswered : ∀ row ∈ db.runs, p row = true → (f row).Answered →
      ∃ context ∈ db.contexts, context.scanRunId = row.scanRunId ∧ context.artifactId.isSome = true) :
    Linked Q { db with
      runs := updateWhere p f db.runs, attempts := rows, lease, nextRun := next } where
  requests_nodup := by
    have hrequests : (updateWhere p f db.runs).map ScanRunRow.requestId =
        db.runs.map ScanRunRow.requestId := map_updateWhere _ fun row => (hf row).2.1
    exact hrequests ▸ h.requests_nodup
  hashes row hrow := by
    rcases mem_updateWhere.1 hrow with ⟨hrow, -⟩ | ⟨old, hold, -, rfl⟩
    · exact h.hashes row hrow
    · rw [(hf old).2.2.1, (hf old).2.2.2]
      exact h.hashes old hold
  artifacts_lt := h.artifacts_lt
  artifacts_nodup := h.artifacts_nodup
  contexts_nodup := h.contexts_nodup
  context_run context hcontext := by
    obtain ⟨row, hrow, hid, hrun⟩ := h.context_run context hcontext
    refine ⟨_, List.mem_map_of_mem hrow, ?_, hP row hrun⟩
    split_ifs
    · rw [(hf row).1, hid]
    · exact hid
  context_artifact := h.context_artifact
  context_source := h.context_source
  sources_of_hits := h.sources_of_hits
  run_context row hrow hrowAnswered := by
    rcases mem_updateWhere.1 hrow with ⟨hrow, -⟩ | ⟨old, hold, hmatch, rfl⟩
    · exact h.run_context row hrow hrowAnswered
    · rw [(hf old).1]
      exact hanswered old hold hmatch hrowAnswered

/-- An update of runs that leaves committed runs alone and commits none. -/
theorem Linked.updateOpen (h : Linked ScanRunRow.Committed db) {p : ScanRunRow → Bool}
    {f : ScanRunRow → ScanRunRow} {rows : List AttemptRow} {lease : Option LeaseRow} {next : ℕ}
    (hf : ∀ row, (f row).scanRunId = row.scanRunId ∧ (f row).requestId = row.requestId ∧
      (f row).canonicalRequestJson = row.canonicalRequestJson ∧ (f row).requestHash = row.requestHash)
    (hopen : ∀ row, p row = true →
      row.status.isTerminal = false ∧ (f row).status.isTerminal = false) :
    Linked ScanRunRow.Committed { db with
      runs := updateWhere p f db.runs, attempts := rows, lease, nextRun := next } := by
  refine h.updateRuns hf (fun row hrow => ?_) fun row _ hmatch hanswered => ?_
  · split_ifs with hp
    · rw [ScanRunRow.Committed, (hopen row hp).1] at hrow
      cases hrow
    · exact hrow
  · have hstatus := (hopen row hmatch).2
    rcases hanswered with hs | hs <;> rw [hs] at hstatus <;> cases hstatus

theorem Linked.heartbeat (h : Linked ScanRunRow.Committed db)
    (hok : heartbeatInTransaction db active now = .ok db') : Linked ScanRunRow.Committed db' := by
  obtain ⟨lease, -, -, -, rfl⟩ := heartbeatInTransaction_ok hok
  refine h.updateOpen (f := fun row => { row with updatedAtMs := now })
    (fun _ => ⟨rfl, rfl, rfl, rfl⟩) fun row hrow => ?_
  have hstatus : row.status.isTerminal = false := by rw [(ownRun_eq_true.1 hrow).2.2]; rfl
  exact ⟨hstatus, hstatus⟩

theorem Linked.recordWorkerFingerprints {office pdf : Option WorkerFingerprint} {nowMs : ℕ}
    (h : Linked ScanRunRow.Committed db)
    (hok : recordWorkerFingerprints db active office pdf nowMs = .ok db') :
    Linked ScanRunRow.Committed db' := by
  have hlinks : Linked ScanRunRow.Committed { db with
      attempts := updateWhere (ownAttempt active) (fun row => { row with office, pdf })
        db.attempts } := h.of_same rfl rfl rfl rfl
  exact hlinks.heartbeat (recordWorkerFingerprints_ok hok)

theorem Linked.abandon {nowMs : ℕ} (h : Linked ScanRunRow.Committed db)
    (hok : abandonActiveRun db active nowMs = .ok db') : Linked ScanRunRow.Committed db' := by
  obtain ⟨lease, -, -, -, rfl⟩ := abandonActiveRun_ok hok
  refine h.updateOpen (f := ScanRunRow.abandon nowMs) (fun _ => ⟨rfl, rfl, rfl, rfl⟩)
    fun row hrow => ⟨?_, rfl⟩
  rw [(ownRun_eq_true.1 hrow).2.2]
  rfl

theorem Linked.release {existing : Option ScanRunRow} (h : Linked ScanRunRow.Committed db)
    (hok : releaseLease db existing now = .ok db') : Linked ScanRunRow.Committed db' := by
  rcases releaseLease_ok hok with ⟨-, -, rfl⟩ | ⟨lease, -, -, rfl⟩
  · exact h
  · refine h.updateOpen (f := ScanRunRow.abandon now) (fun _ => ⟨rfl, rfl, rfl, rfl⟩)
      fun row hrow => ⟨?_, rfl⟩
    simp only [runningRun, Bool.and_eq_true, decide_eq_true_eq] at hrow
    rw [hrow.2]
    rfl

/-! ### Beginning a run -/

/-- Deleting the context of a run that has none. -/
theorem Linked.deleteContexts_eq (h : Linked P db) {scanRunId : ℕ}
    (hnone : db.hasContext scanRunId = false) : db.deleteContexts [scanRunId] = db := by
  have hkeep : ∀ context ∈ db.contexts, context.scanRunId ≠ scanRunId := by
    intro context hcontext hid
    rw [Db.hasContext_eq_true.2 ⟨context, hcontext, hid⟩] at hnone
    cases hnone
  -- no context reuses it either, because sources are there
  have hsource : ∀ context ∈ db.contexts,
      (context.reusedFromContextRunId.any fun id => decide (id ∈ [scanRunId])) = false := by
    intro context hcontext
    cases hreused : context.reusedFromContextRunId with
    | none => rfl
    | some id =>
      have hid := h.context_source context hcontext id hreused
      have hne : id ≠ scanRunId := by
        rintro rfl
        rw [hnone] at hid
        cases hid
      simpa using hne
  have hcontexts : (db.deleteContexts [scanRunId]).contexts = db.contexts := by
    have hdelete : deleteWhere (fun row => decide (row.scanRunId ∈ [scanRunId])) db.contexts =
        db.contexts := by
      refine List.filter_eq_self.2 fun context hcontext => ?_
      simpa using hkeep context hcontext
    simp only [Db.deleteContexts, hdelete, updateWhere]
    refine (List.map_congr_left fun context hcontext => ?_).trans (List.map_id _)
    rw [if_neg (by rw [hsource context hcontext]; exact Bool.false_ne_true)]
    rfl
  calc db.deleteContexts [scanRunId]
      = { db with contexts := (db.deleteContexts [scanRunId]).contexts } := rfl
    _ = db := by rw [hcontexts]

/-- A run that is not committed has no context. -/
theorem Linked.hasContext_eq_false (h : Linked ScanRunRow.Committed db)
    (hids : (db.runs.map ScanRunRow.scanRunId).Nodup) {row : ScanRunRow} (hrow : row ∈ db.runs)
    (hopen : row.status.isTerminal = false) : db.hasContext row.scanRunId = false := by
  by_contra hcontext
  obtain ⟨context, hmem, hid⟩ := Db.hasContext_eq_true.1 (Bool.of_not_eq_false hcontext)
  obtain ⟨other, hother, hotherId, hcommitted⟩ := h.context_run context hmem
  obtain rfl := List.inj_on_of_nodup_map hids hother hrow (hotherId.trans hid)
  rw [ScanRunRow.Committed, hopen] at hcommitted
  cases hcommitted

theorem Linked.createRun (h : Linked ScanRunRow.Committed db) {requestId ownerId : Text}
    {canonical : CanonicalRequest} (hfresh : findRun db requestId = none)
    (hhash : requestHash canonical.json = canonical.hash) {rows : List AttemptRow}
    {lease : Option LeaseRow} {next : ℕ} :
    Linked ScanRunRow.Committed { db with
      runs := db.runs ++ [newRun db.nextRun requestId canonical ownerId now]
      attempts := rows, lease, nextRun := next } where
  requests_nodup := by
    have hnew : requestId ∉ db.runs.map ScanRunRow.requestId := by
      intro hmem
      obtain ⟨row, hrow, hrequest⟩ := List.mem_map.1 hmem
      have := List.find?_eq_none.1 hfresh row hrow
      simp [hrequest] at this
    rw [List.map_append, List.nodup_append]
    refine ⟨h.requests_nodup, by simp, fun id hid other hother => ?_⟩
    obtain rfl : other = requestId := by simpa [newRun] using hother
    exact fun heq => hnew (heq ▸ hid)
  hashes row hrow := by
    rcases List.mem_append.1 hrow with hrow | hrow
    · exact h.hashes row hrow
    · obtain rfl : row = newRun db.nextRun requestId canonical ownerId now := by simpa using hrow
      exact hhash
  artifacts_lt := h.artifacts_lt
  artifacts_nodup := h.artifacts_nodup
  contexts_nodup := h.contexts_nodup
  context_run context hcontext := by
    obtain ⟨row, hrow, hid⟩ := h.context_run context hcontext
    exact ⟨row, List.mem_append_left _ hrow, hid⟩
  context_artifact := h.context_artifact
  context_source := h.context_source
  sources_of_hits := h.sources_of_hits
  run_context row hrow hanswered := by
    rcases List.mem_append.1 hrow with hrow | hrow
    · exact h.run_context row hrow hanswered
    · obtain rfl : row = newRun db.nextRun requestId canonical ownerId now := by simpa using hrow
      rcases hanswered with hs | hs <;> cases hs

/-- The run that is begun leaves the contexts and the artifacts as they are. -/
theorem Linked.startRun {existing : Option ScanRunRow} {requestId ownerId : Text}
    {canonical : CanonicalRequest} {scanRunId : ℕ}
    (hok : startRun db existing requestId canonical ownerId now = .ok (db', scanRunId))
    (h : Linked ScanRunRow.Committed db) (hids : (db.runs.map ScanRunRow.scanRunId).Nodup)
    (hexisting : existing = none → findRun db requestId = none)
    (hhash : requestHash canonical.json = canonical.hash) :
    Linked ScanRunRow.Committed db' ∧ db'.contexts = db.contexts ∧ db'.artifacts = db.artifacts ∧
      db'.nextArtifact = db.nextArtifact := by
  rcases startRun_ok hok with ⟨rfl, -, rfl⟩ | ⟨run, rfl, -, hcount, rfl⟩
  · exact ⟨h.createRun (hexisting rfl) hhash, rfl, rfl, rfl⟩
  · obtain ⟨row, hrow⟩ := exists_filter_eq_singleton hcount
    have hmem : row ∈ db.runs ∧ abandonedRun run.scanRunId row = true :=
      List.mem_filter.1 (by rw [hrow]; simp)
    have hrowIs := hmem.2
    simp only [abandonedRun, Bool.and_eq_true, decide_eq_true_eq] at hrowIs
    have hnone : db.hasContext run.scanRunId = false := by
      rw [← hrowIs.1]
      exact h.hasContext_eq_false hids hmem.1 (by rw [hrowIs.2]; rfl)
    rw [h.deleteContexts_eq hnone]
    refine ⟨h.updateOpen (f := ScanRunRow.restart ownerId now) (fun _ => ⟨rfl, rfl, rfl, rfl⟩)
      fun other hother => ⟨?_, rfl⟩, rfl, rfl, rfl⟩
    simp only [abandonedRun, Bool.and_eq_true, decide_eq_true_eq] at hother
    rw [hother.2]
    rfl

omit [Sha256] in
/-- Releasing the lease changes no context, no artifact and no request. -/
theorem releaseLease_same {existing : Option ScanRunRow}
    (h : releaseLease db existing now = .ok db') :
    db'.contexts = db.contexts ∧ db'.artifacts = db.artifacts ∧
      db'.nextArtifact = db.nextArtifact ∧
      db'.runs.map ScanRunRow.requestId = db.runs.map ScanRunRow.requestId := by
  rcases releaseLease_ok h with ⟨-, -, rfl⟩ | ⟨lease, -, -, rfl⟩
  · exact ⟨rfl, rfl, rfl, rfl⟩
  · exact ⟨rfl, rfl, rfl, map_updateWhere _ fun _ => rfl⟩

omit [Sha256] in
theorem findRun_eq_none {requestId : Text} :
    findRun db requestId = none ↔ requestId ∉ db.runs.map ScanRunRow.requestId := by
  simp [findRun]

theorem Integrity.startAttempt {requestId ownerId : Text} {canonical : CanonicalRequest}
    {runtime : AttemptRuntime} {outcome : BeginRunOutcome} (h : Integrity db)
    (hhash : requestHash canonical.json = canonical.hash)
    (hok : startAttempt db (findRun db requestId) requestId canonical runtime ownerId now =
      .ok (db', outcome)) :
    Linked ScanRunRow.Committed db' ∧ db'.contexts = db.contexts ∧ db'.artifacts = db.artifacts ∧
      db'.nextArtifact = db.nextArtifact := by
  obtain ⟨released, started, active, hreleased, hstarted, -, -, -, rfl⟩ := startAttempt_ok hok
  obtain ⟨hcontexts, hartifacts, hnext, hrequests⟩ := releaseLease_same hreleased
  have hlinks := h.links.release hreleased
  have hruns := (h.runs.release hreleased).1
  -- the lease that is taken plays no part
  have hfresh : findRun db requestId = none → findRun released requestId = none := by
    intro hnone
    rw [findRun_eq_none, hrequests, ← findRun_eq_none]
    exact hnone
  obtain ⟨hlinked, hcontexts', hartifacts', hnext'⟩ := Linked.startRun hstarted
    (hlinks.of_same rfl rfl rfl rfl) hruns.ids_nodup hfresh hhash
  exact ⟨hlinked.of_same rfl rfl rfl rfl, hcontexts'.trans hcontexts, hartifacts'.trans hartifacts,
    hnext'.trans hnext⟩

theorem Integrity.beginRun {requestId storePath ownerId : Text} {canonical : CanonicalRequest}
    {runtime : AttemptRuntime} {nowMs : ℕ} {outcome : BeginRunOutcome} (h : Integrity db)
    (hok : beginRun db requestId canonical runtime storePath ownerId nowMs = .ok (db', outcome)) :
    Integrity db' ∧ db'.contexts = db.contexts ∧ db'.artifacts = db.artifacts ∧
      db'.nextArtifact = db.nextArtifact := by
  rcases beginRun_ok hok with ⟨rfl, -⟩ | ⟨hstart, -, hhash, -⟩
  · exact ⟨h, rfl, rfl, rfl⟩
  · obtain ⟨hlinked, hsame⟩ := h.startAttempt hhash hstart
    exact ⟨⟨h.runs.beginRun hok, hlinked⟩, hsame⟩

/-! ### The terminal transaction -/

theorem Linked.mono (h : Linked P db) (hPQ : ∀ row, P row → Q row) : Linked Q db where
  requests_nodup := h.requests_nodup
  hashes := h.hashes
  artifacts_lt := h.artifacts_lt
  artifacts_nodup := h.artifacts_nodup
  contexts_nodup := h.contexts_nodup
  context_run context hcontext := by
    obtain ⟨row, hrow, hid, hP⟩ := h.context_run context hcontext
    exact ⟨row, hrow, hid, hPQ row hP⟩
  context_artifact := h.context_artifact
  context_source := h.context_source
  sources_of_hits := h.sources_of_hits
  run_context := h.run_context

theorem Linked.insertArtifact (h : Linked P db) {row : ContextArtifactRow}
    (hid : row.artifactId = db.nextArtifact) :
    Linked P { db with artifacts := db.artifacts ++ [row], nextArtifact := db.nextArtifact + 1 } where
  requests_nodup := h.requests_nodup
  hashes := h.hashes
  artifacts_lt other hother := by
    rcases List.mem_append.1 hother with hother | hother
    · exact (h.artifacts_lt other hother).trans (Nat.lt_succ_self _)
    · obtain rfl : other = row := by simpa using hother
      exact hid ▸ Nat.lt_succ_self _
  artifacts_nodup := by
    rw [List.map_append, List.nodup_append]
    refine ⟨h.artifacts_nodup, by simp, fun id hother other hnew heq => ?_⟩
    obtain ⟨old, hold, rfl⟩ := List.mem_map.1 hother
    obtain rfl : other = row.artifactId := by simpa using hnew
    have hlt := h.artifacts_lt old hold
    omega
  contexts_nodup := h.contexts_nodup
  context_run := h.context_run
  context_artifact context hcontext id hartifact := by
    obtain ⟨other, hother, hotherId⟩ := Db.hasArtifact_eq_true.1
      (h.context_artifact context hcontext id hartifact)
    exact Db.hasArtifact_eq_true.2 ⟨other, List.mem_append_left _ hother, hotherId⟩
  context_source := h.context_source
  sources_of_hits := h.sources_of_hits
  run_context := h.run_context

theorem Linked.insertContext (h : Linked P db) {row : ContextRunRow}
    (hrun : ∃ run ∈ db.runs, run.scanRunId = row.scanRunId ∧ P run)
    (hnew : db.hasContext row.scanRunId = false)
    (hartifact : ∀ id ∈ row.artifactId, db.hasArtifact id = true)
    (hsource : ∀ id ∈ row.reusedFromContextRunId, id = row.scanRunId ∨ db.hasContext id = true)
    (hhit : row.snapshotHit = true ∨ row.reusedFromContextRunId = none) :
    Linked P { db with contexts := db.contexts ++ [row] } := by
  have hkept : ∀ {id}, db.hasContext id = true →
      Db.hasContext { db with contexts := db.contexts ++ [row] } id = true := by
    intro id hid
    obtain ⟨context, hcontext, rfl⟩ := Db.hasContext_eq_true.1 hid
    exact Db.hasContext_eq_true.2 ⟨context, List.mem_append_left _ hcontext, rfl⟩
  have hself : Db.hasContext { db with contexts := db.contexts ++ [row] } row.scanRunId = true :=
    Db.hasContext_eq_true.2 ⟨row, by simp, rfl⟩
  refine ⟨h.requests_nodup, h.hashes, h.artifacts_lt, h.artifacts_nodup, ?_, ?_, ?_, ?_, ?_, ?_⟩
  · rw [List.map_append, List.nodup_append]
    refine ⟨h.contexts_nodup, by simp, fun id hid other hother heq => ?_⟩
    obtain ⟨context, hcontext, rfl⟩ := List.mem_map.1 hid
    obtain rfl : other = row.scanRunId := by simpa using hother
    rw [Db.hasContext_eq_true.2 ⟨context, hcontext, heq⟩] at hnew
    cases hnew
  · intro context hcontext
    rcases List.mem_append.1 hcontext with hcontext | hcontext
    · exact h.context_run context hcontext
    · obtain rfl : context = row := by simpa using hcontext
      exact hrun
  · intro context hcontext
    rcases List.mem_append.1 hcontext with hcontext | hcontext
    · exact h.context_artifact context hcontext
    · obtain rfl : context = row := by simpa using hcontext
      exact hartifact
  · intro context hcontext id hid
    rcases List.mem_append.1 hcontext with hcontext | hcontext
    · exact hkept (h.context_source context hcontext id hid)
    · obtain rfl : context = row := by simpa using hcontext
      rcases hsource id hid with rfl | hthere
      · exact hself
      · exact hkept hthere
  · intro context hcontext hmiss
    rcases List.mem_append.1 hcontext with hcontext | hcontext
    · exact h.sources_of_hits context hcontext hmiss
    · obtain rfl : context = row := by simpa using hcontext
      rcases hhit with hhit | hnone
      · rw [hhit] at hmiss; cases hmiss
      · exact hnone
  · intro run hrun hanswered
    obtain ⟨context, hcontext, hid⟩ := h.run_context run hrun hanswered
    exact ⟨context, List.mem_append_left _ hcontext, hid⟩

variable {p : PreparedFinalization}

theorem Linked.storeArtifact {artifactId : ℕ} (h : Linked P db)
    (hok : storeArtifact db p = .ok (db', artifactId)) : Linked P db' := by
  rcases storeArtifact_ok hok with ⟨rfl, -⟩ | ⟨rfl, -⟩ | ⟨draft, pruned, -, -, -, -, hpruned, hinsert⟩
  · exact h
  · exact h
  · obtain ⟨-, row, hid, -, -, rfl⟩ := insertArtifact_ok hinsert
    exact ((applyArtifactRetentionPlan_prunes hpruned).linked h).insertArtifact hid

/-- Storing the context of a run that is there.  A run that did not fail gets one. -/
theorem Linked.storeContext (h : Linked P db) (hok : storeContext db p = .ok db')
    (hrun : ∃ run ∈ db'.runs, run.scanRunId = p.active.scanRunId ∧ P run) :
    Linked P db' ∧ (p.batch.context.isSome = true → p.batch.status ≠ .error →
      ∃ context ∈ db'.contexts,
        context.scanRunId = p.active.scanRunId ∧ context.artifactId.isSome = true) := by
  rcases storeContext_ok hok with ⟨hnone, rfl⟩ | ⟨context, -, ⟨herror, hinsert⟩ | ⟨-, stored, id, hstored,
    hinsert⟩⟩
  · exact ⟨h, fun hsome => by rw [hnone] at hsome; cases hsome⟩
  · obtain ⟨-, hhit, hnew, hartifact, hsource, rfl⟩ := insertContext_ok hinsert
    exact ⟨h.insertContext hrun hnew hartifact hsource hhit, fun _ hstatus => absurd herror hstatus⟩
  · obtain ⟨-, hhit, hnew, hartifact, hsource, rfl⟩ := insertContext_ok hinsert
    refine ⟨(h.storeArtifact hstored).insertContext hrun hnew hartifact hsource hhit, fun _ _ => ?_⟩
    exact ⟨_, List.mem_append_right _ (List.mem_singleton_self _), rfl, rfl⟩

/-- The runs that have a context inside the terminal transaction of an active run. -/
def CommittedOr (active : ActiveRun) (row : ScanRunRow) : Prop :=
  row.Committed ∨ ownRun active row = true

/-- Before the terminal deletions, everything is in place. -/
theorem Integrity.finishing {beaten stored finished : Db} (h : Integrity db)
    (hvalid : ValidBatch p.active p.batch p.envelope)
    (hbeaten : heartbeatInTransaction db p.active p.now = .ok beaten)
    (hstored : storeContext beaten p = .ok stored) (hfinished : finishRows stored p = .ok finished) :
    Linked ScanRunRow.Committed finished := by
  obtain ⟨hruns, -, rfl⟩ := finishRows_ok hfinished
  obtain ⟨row, hrow⟩ := exists_filter_eq_singleton hruns
  have hmem : row ∈ stored.runs ∧ ownRun p.active row = true :=
    List.mem_filter.1 (by rw [hrow]; simp)
  have hbeatenLinks : Linked (CommittedOr p.active) beaten :=
    (h.links.heartbeat hbeaten).mono fun _ => .inl
  obtain ⟨hlinks, hcontext⟩ := hbeatenLinks.storeContext hstored
    ⟨row, hmem.1, (ownRun_eq_true.1 hmem.2).1, .inr hmem.2⟩
  refine hlinks.updateRuns
    (f := ScanRunRow.finish p.batch.status p.now p.metadataJson p.batch.auditSizeBytes)
    (fun _ => ⟨rfl, rfl, rfl, rfl⟩) (fun other hother => ?_) fun other _ hmatch hanswered => ?_
  · split_ifs with hown
    · exact hvalid.terminal
    · exact hother.resolve_right hown
  · have hstatus : p.batch.status ≠ .error := by
      intro herror
      have hfinal : p.batch.status = .success ∨ p.batch.status = .partialSuccess := hanswered
      rcases hfinal with hs | hs <;> rw [hs] at herror <;> cases herror
    obtain ⟨record, hrecord, -⟩ := hvalid.context hstatus
    obtain ⟨context, hmemContext, hid, hartifact⟩ := hcontext (by rw [hrecord]; rfl) hstatus
    exact ⟨context, hmemContext, hid.trans (ownRun_eq_true.1 hmatch).1.symm, hartifact⟩

theorem Integrity.commit (h : Integrity db) (hvalid : ValidBatch p.active p.batch p.envelope)
    (hok : commitFinalization db p = .ok db') : Integrity db' := by
  have hstatus := RunStatus.ne_running_of_isTerminal hvalid.terminal
  refine ⟨h.runs.commit hstatus hok, ?_⟩
  obtain ⟨beaten, stored, finished, pruned, hbeaten, hstored, hfinished, hpruned, rfl⟩ :=
    commitFinalization_ok hok
  have hlinks := (applyTerminalRetentionPlan_prunes hpruned).linked
    (h.finishing hvalid hbeaten hstored hfinished)
  exact hlinks.of_same rfl rfl rfl rfl

end DailyReport.Store
