import DailyReport.Store.Integrity

/-!
# What a run is answered from

A committed run is answered from its metadata and its artifact.  The artifact may be new, shared with
other runs or reused from one; it stays as it is for as long as a context refers to it
(`Prunes.loadArtifactForReplay_eq`, `Integrity.commit_replay`).  A preparation finds out from which
draft the envelope is rebuilt (`Prepares.rebuilds_draft`), and the transaction stores, shares or
reuses an artifact that is loaded as this draft (`Rebuilds.storeContext`).
-/

namespace DailyReport.Store

open Lib

variable {db db' db'' : Db} {active : ActiveRun} {now : ℤ}

/-! ### Artifacts stay as they are -/

/-- The artifacts of before are unchanged or deleted, and new ones have new ids. -/
structure ArtifactsKept (db db' : Db) : Prop where
  next_le : db.nextArtifact ≤ db'.nextArtifact
  kept : ∀ row ∈ db'.artifacts, row.artifactId < db.nextArtifact → row ∈ db.artifacts

theorem ArtifactsKept.trans (h : ArtifactsKept db db') (h' : ArtifactsKept db' db'') :
    ArtifactsKept db db'' :=
  ⟨h.next_le.trans h'.next_le, fun row hrow hlt =>
    h.kept row (h'.kept row hrow (hlt.trans_le h.next_le)) hlt⟩

theorem ArtifactsKept.of_eq (hartifacts : db'.artifacts = db.artifacts)
    (hnext : db'.nextArtifact = db.nextArtifact) : ArtifactsKept db db' :=
  ⟨hnext.ge, fun _ hrow _ => hartifacts ▸ hrow⟩

theorem Prunes.artifactsKept (h : Prunes db db') : ArtifactsKept db db' := by
  induction h with
  | refl => exact .of_eq rfl rfl
  | runs victims _ _ ih => exact ih.trans (.of_eq rfl rfl)
  | artifacts victims _ _ ih =>
    exact ih.trans ⟨le_rfl, fun row hrow _ => (Db.mem_deleteArtifacts.1 hrow).1⟩

section Kept

variable [Sha256] {p : PreparedFinalization}

theorem storeArtifact_kept {artifactId : ℕ} (h : storeArtifact db p = .ok (db', artifactId)) :
    ArtifactsKept db db' := by
  rcases storeArtifact_ok h with ⟨rfl, -⟩ | ⟨rfl, -⟩ | ⟨draft, pruned, -, -, -, -, hpruned, hinsert⟩
  · exact .of_eq rfl rfl
  · exact .of_eq rfl rfl
  · obtain ⟨-, row, hid, -, -, rfl⟩ := insertArtifact_ok hinsert
    refine (applyArtifactRetentionPlan_prunes hpruned).artifactsKept.trans
      ⟨Nat.le_succ _, fun other hother hlt => ?_⟩
    rcases List.mem_append.1 hother with hother | hother
    · exact hother
    · obtain rfl : other = row := by simpa using hother
      exact absurd (hid ▸ hlt) (lt_irrefl _)

theorem storeContext_kept (h : storeContext db p = .ok db') : ArtifactsKept db db' := by
  rcases storeContext_ok h with ⟨-, rfl⟩ | ⟨context, -, ⟨-, hinsert⟩ | ⟨-, stored, id, hstored,
    hinsert⟩⟩
  · exact .of_eq rfl rfl
  · obtain ⟨-, -, -, -, -, rfl⟩ := insertContext_ok hinsert
    exact .of_eq rfl rfl
  · obtain ⟨-, -, -, -, -, rfl⟩ := insertContext_ok hinsert
    exact (storeArtifact_kept hstored).trans (.of_eq rfl rfl)

omit [Sha256] in
theorem heartbeat_kept (h : heartbeatInTransaction db active now = .ok db') :
    ArtifactsKept db db' := by
  obtain ⟨lease, -, -, -, rfl⟩ := heartbeatInTransaction_ok h
  exact .of_eq rfl rfl

theorem commitFinalization_kept (h : commitFinalization db p = .ok db') : ArtifactsKept db db' := by
  obtain ⟨beaten, stored, finished, pruned, hbeaten, hstored, hfinished, hpruned, rfl⟩ :=
    commitFinalization_ok h
  obtain ⟨-, -, rfl⟩ := finishRows_ok hfinished
  have hend := (applyTerminalRetentionPlan_prunes hpruned).artifactsKept
  exact (heartbeat_kept hbeaten).trans ((storeContext_kept hstored).trans ⟨hend.next_le, hend.kept⟩)

end Kept

/-! ### What a run is answered from -/

section Replay

variable [Sha256]

/-- The artifact of a run is found as before. -/
theorem loadArtifactForReplay_of_same {scanRunId : ℕ} (hcontexts : db'.contexts = db.contexts)
    (hartifacts : db'.artifacts = db.artifacts) :
    loadArtifactForReplay db' scanRunId = loadArtifactForReplay db scanRunId := by
  simp only [loadArtifactForReplay, loadArtifact, findArtifact, hcontexts, hartifacts]

theorem loadStoredEnvelope_congr {row : ScanRunRow} {requestId : Text}
    (h : loadArtifactForReplay db' row.scanRunId = loadArtifactForReplay db row.scanRunId) :
    loadStoredEnvelope db' row requestId = loadStoredEnvelope db row requestId := by
  simp only [loadStoredEnvelope, rebuildEnvelopeFromMetadata, h]

theorem loadArtifactForReplay_deleteRuns {victims : List ℕ} {scanRunId : ℕ}
    (h : scanRunId ∉ victims) :
    loadArtifactForReplay (db.deleteRuns victims) scanRunId = loadArtifactForReplay db scanRunId := by
  have hfind : ((db.deleteRuns victims).contexts.find? fun row =>
        decide (row.scanRunId = scanRunId)).bind ContextRunRow.artifactId =
      (db.contexts.find? fun row => decide (row.scanRunId = scanRunId)).bind
        ContextRunRow.artifactId := by
    have hkeep : ∀ row : ContextRunRow, decide (row.scanRunId = scanRunId) = true →
        decide (row.scanRunId ∈ victims) = false := by
      intro row hrow
      rw [of_decide_eq_true hrow]
      exact decide_eq_false h
    rw [Db.deleteRuns_contexts, Db.deleteContexts, find?_updateWhere
      (f := fun row : ContextRunRow => { row with reusedFromContextRunId := none }) fun _ => rfl,
      find?_deleteWhere_of_not hkeep]
    cases db.contexts.find? fun row => decide (row.scanRunId = scanRunId) with
    | none => rfl
    | some row =>
      simp only [Option.map_some, Option.bind_some]
      split_ifs <;> rfl
  simp only [loadArtifactForReplay, hfind]
  rfl

theorem loadArtifactForReplay_deleteArtifacts {victims : List ℕ} {scanRunId : ℕ}
    (hvictims : ∀ id ∈ victims, db.referenced id = false) :
    loadArtifactForReplay (db.deleteArtifacts victims) scanRunId =
      loadArtifactForReplay db scanRunId := by
  simp only [loadArtifactForReplay, Db.deleteArtifacts_contexts]
  cases hcontext : (db.contexts.find? fun row => decide (row.scanRunId = scanRunId)).bind
      ContextRunRow.artifactId with
  | none => rfl
  | some id =>
    obtain ⟨context, hfind, hartifact⟩ := Option.bind_eq_some_iff.1 hcontext
    -- an artifact that a context refers to is no victim
    have hkeep : id ∉ victims := fun hmem =>
      Db.referenced_eq_false.1 (hvictims id hmem) context (List.mem_of_find?_eq_some hfind) hartifact
    have hsame : findArtifact (db.deleteArtifacts victims) id = findArtifact db id :=
      find?_deleteWhere_of_not fun row hrow => by
        rw [of_decide_eq_true hrow]; exact decide_eq_false hkeep
    simp only [loadArtifact, hsame]

/-- What a run that stays is answered from survives deletions. -/
theorem Prunes.loadArtifactForReplay_eq (h : Prunes db db') {row : ScanRunRow}
    (hrow : row ∈ db'.runs) :
    loadArtifactForReplay db' row.scanRunId = loadArtifactForReplay db row.scanRunId := by
  induction h with
  | refl => rfl
  | runs victims _ _ ih =>
    obtain ⟨hmem, hkeep⟩ := Db.mem_deleteRuns_runs.1 hrow
    rw [loadArtifactForReplay_deleteRuns hkeep, ih hmem]
  | artifacts victims _ hvictims ih =>
    rw [loadArtifactForReplay_deleteArtifacts hvictims, ih hrow]

omit [Sha256] in
theorem findArtifact_append {row : ContextArtifactRow} {id : ℕ} (h : db.hasArtifact id = true) :
    findArtifact { db with artifacts := db.artifacts ++ [row], nextArtifact := db.nextArtifact + 1 }
      id = findArtifact db id := by
  obtain ⟨other, hother, hid⟩ := Db.hasArtifact_eq_true.1 h
  have hsome : (db.artifacts.find? fun row => decide (row.artifactId = id)).isSome = true :=
    List.find?_isSome.2 ⟨other, hother, by simpa using hid⟩
  simp only [findArtifact, List.find?_append]
  exact Option.or_of_isSome hsome

/-- What another run is answered from survives a new artifact. -/
theorem Linked.loadArtifactForReplay_insertArtifact {P : ScanRunRow → Prop} (h : Linked P db)
    {row : ContextArtifactRow} {scanRunId : ℕ} :
    loadArtifactForReplay
        { db with artifacts := db.artifacts ++ [row], nextArtifact := db.nextArtifact + 1 } scanRunId =
      loadArtifactForReplay db scanRunId := by
  simp only [loadArtifactForReplay]
  cases hcontext : (db.contexts.find? fun row => decide (row.scanRunId = scanRunId)).bind
      ContextRunRow.artifactId with
  | none => rfl
  | some id =>
    obtain ⟨context, hfind, hartifact⟩ := Option.bind_eq_some_iff.1 hcontext
    have hthere := h.context_artifact context (List.mem_of_find?_eq_some hfind) id hartifact
    simp only [loadArtifact, findArtifact_append hthere]

/-- What another run is answered from survives a new context. -/
theorem loadArtifactForReplay_insertContext {row : ContextRunRow} {scanRunId : ℕ}
    (hne : row.scanRunId ≠ scanRunId) :
    loadArtifactForReplay { db with contexts := db.contexts ++ [row] } scanRunId =
      loadArtifactForReplay db scanRunId := by
  have hfind : ((db.contexts ++ [row]).find? fun row => decide (row.scanRunId = scanRunId)) =
      db.contexts.find? fun row => decide (row.scanRunId = scanRunId) := by
    rw [List.find?_append, List.find?_singleton, if_neg (by simpa using hne), Option.or_none]
  simp only [loadArtifactForReplay, hfind]
  rfl

/-! ### What the terminal transaction keeps -/

variable {P : ScanRunRow → Prop} {p : PreparedFinalization}

theorem Linked.storeArtifact_replay {artifactId : ℕ} (h : Linked P db)
    (hok : Store.storeArtifact db p = .ok (db', artifactId)) {row : ScanRunRow} (hrow : row ∈ db'.runs) :
    loadArtifactForReplay db' row.scanRunId = loadArtifactForReplay db row.scanRunId := by
  rcases storeArtifact_ok hok with ⟨rfl, -⟩ | ⟨rfl, -⟩ | ⟨draft, pruned, -, -, -, -, hpruned, hinsert⟩
  · rfl
  · rfl
  · obtain ⟨-, new, -, -, -, rfl⟩ := insertArtifact_ok hinsert
    have hprunes := applyArtifactRetentionPlan_prunes hpruned
    rw [(hprunes.linked h).loadArtifactForReplay_insertArtifact, hprunes.loadArtifactForReplay_eq hrow]

theorem Linked.storeContext_replay (h : Linked P db) (hok : Store.storeContext db p = .ok db')
    {row : ScanRunRow} (hrow : row ∈ db'.runs) (hne : p.active.scanRunId ≠ row.scanRunId) :
    loadArtifactForReplay db' row.scanRunId = loadArtifactForReplay db row.scanRunId := by
  rcases storeContext_ok hok with ⟨-, rfl⟩ | ⟨context, -, ⟨-, hinsert⟩ | ⟨-, stored, id, hstored,
    hinsert⟩⟩
  · rfl
  · obtain ⟨-, -, -, -, -, rfl⟩ := insertContext_ok hinsert
    exact loadArtifactForReplay_insertContext hne
  · obtain ⟨-, -, -, -, -, rfl⟩ := insertContext_ok hinsert
    rw [loadArtifactForReplay_insertContext hne, h.storeArtifact_replay hstored hrow]

/-- Another run that stays is answered from the same artifact after the transaction. -/
theorem Integrity.commit_replay (h : Integrity db) (hok : commitFinalization db p = .ok db')
    {row : ScanRunRow} (hrow : row ∈ db'.runs) (hne : p.active.scanRunId ≠ row.scanRunId) :
    loadArtifactForReplay db' row.scanRunId = loadArtifactForReplay db row.scanRunId := by
  obtain ⟨beaten, stored, finished, pruned, hbeaten, hstored, hfinished, hpruned, rfl⟩ :=
    commitFinalization_ok hok
  have hprunes := applyTerminalRetentionPlan_prunes hpruned
  have hend : loadArtifactForReplay { pruned with lease := none } row.scanRunId =
      loadArtifactForReplay finished row.scanRunId :=
    (loadArtifactForReplay_of_same rfl rfl).trans (hprunes.loadArtifactForReplay_eq hrow)
  obtain ⟨-, -, rfl⟩ := finishRows_ok hfinished
  -- the row was there when the context was stored, perhaps not finished yet
  obtain ⟨old, hold, hid⟩ : ∃ old ∈ stored.runs, old.scanRunId = row.scanRunId := by
    rcases mem_updateWhere.1 (hprunes.runs_subset row hrow) with ⟨hold, -⟩ | ⟨old, hold, -, rfl⟩
    · exact ⟨row, hold, rfl⟩
    · exact ⟨old, hold, rfl⟩
  have hstoredEq := (h.links.heartbeat hbeaten).storeContext_replay hstored hold (hid ▸ hne)
  obtain ⟨lease, -, -, -, rfl⟩ := heartbeatInTransaction_ok hbeaten
  rw [hend, ← hid]
  exact (loadArtifactForReplay_of_same rfl rfl).trans
    (hstoredEq.trans (loadArtifactForReplay_of_same rfl rfl))

/-! ### The run that is committed -/

/-- Every stored version of the artifact is loaded as the draft. -/
structure Loads (db : Db) (artifactId : ℕ) (draft : ArtifactDraft) : Prop where
  lt : artifactId < db.nextArtifact
  loads : ∀ row ∈ db.artifacts, row.artifactId = artifactId → row.load = .ok draft

theorem Loads.kept {artifactId : ℕ} {draft : ArtifactDraft} (h : Loads db artifactId draft)
    (hkept : ArtifactsKept db db') : Loads db' artifactId draft :=
  ⟨h.lt.trans_le hkept.next_le, fun row hrow hid =>
    h.loads row (hkept.kept row hrow (hid ▸ h.lt)) hid⟩

theorem Loads.loadArtifact {artifactId : ℕ} {draft : ArtifactDraft} (h : Loads db artifactId draft)
    (hthere : db.hasArtifact artifactId = true) : loadArtifact db artifactId = .ok draft := by
  obtain ⟨other, hother, hid⟩ := Db.hasArtifact_eq_true.1 hthere
  have hsome : (findArtifact db artifactId).isSome = true :=
    List.find?_isSome.2 ⟨other, hother, by simpa using hid⟩
  obtain ⟨row, hrow⟩ := Option.isSome_iff_exists.1 hsome
  have hrowId : row.artifactId = artifactId := by
    simpa using List.find?_some hrow
  rw [Store.loadArtifact, hrow]
  exact h.loads row (List.mem_of_find?_eq_some hrow) hrowId

/-- The envelope with another context. -/
def withContext (envelope : ContextEnvelope) (fileContext : Text) : ContextEnvelope :=
  { envelope with fileContext }

/-- The context of an artifact; without one there is none. -/
def contextOf (artifact : Option ArtifactDraft) : Text :=
  (artifact.map ArtifactDraft.finalContext).getD []

/-- What a prepared finalization has found out about the artifact that it will use: the envelope with
the context of the artifact is the envelope that is committed. -/
structure Rebuilds (db : Db) (p : PreparedFinalization) (draft : ArtifactDraft) : Prop where
  valid : (withContext p.envelope draft.finalContext).validate = .ok ()
  json : (withContext p.envelope draft.finalContext).json.print = p.batch.envelopeJson
  hit : ∀ hit ∈ p.batch.snapshotHit, Loads db hit.artifactId draft
  fresh : p.batch.snapshotHit = none → ∃ new, p.batch.artifact = some new ∧ new.val = draft
  dedup : p.batch.snapshotHit = none → ∀ id ∈ p.dedupArtifactId, Loads db id draft

theorem Rebuilds.kept {draft : ArtifactDraft} (h : Rebuilds db p draft)
    (hkept : ArtifactsKept db db') : Rebuilds db' p draft :=
  ⟨h.valid, h.json, fun hit hhit => (h.hit hit hhit).kept hkept, h.fresh, fun hnone id hid =>
    (h.dedup hnone id hid).kept hkept⟩

/-- The artifact that the transaction stores, shares or reuses holds the prepared draft. -/
theorem Rebuilds.storeArtifact {draft : ArtifactDraft} {artifactId : ℕ} (h : Rebuilds db p draft)
    (hlinked : Linked P db) (hok : Store.storeArtifact db p = .ok (db', artifactId))
    (hthere : db'.hasArtifact artifactId = true) : loadArtifact db' artifactId = .ok draft := by
  rcases storeArtifact_ok hok with ⟨rfl, hit, hhit, rfl, -⟩ | ⟨rfl, hnone, hdedup⟩ |
    ⟨new, pruned, hnone, -, hnew, heligible, hpruned, hinsert⟩
  · exact (h.hit hit hhit).loadArtifact hthere
  · exact (h.dedup hnone artifactId hdedup).loadArtifact hthere
  · obtain ⟨other, hother, hval⟩ := h.fresh hnone
    obtain rfl : new = other := Option.some.inj (hnew.symm.trans hother)
    obtain ⟨rfl, row, hid, -, hholds, rfl⟩ := insertArtifact_ok hinsert
    have hprunedLinks := (applyArtifactRetentionPlan_prunes hpruned).linked hlinked
    have hloads : Loads { pruned with
        artifacts := pruned.artifacts ++ [row], nextArtifact := pruned.nextArtifact + 1 }
        pruned.nextArtifact draft := by
      refine ⟨Nat.lt_succ_self _, fun stored hstored hstoredId => ?_⟩
      rcases List.mem_append.1 hstored with hstored | hstored
      · have hlt := hprunedLinks.artifacts_lt stored hstored
        exact absurd (hstoredId ▸ hlt) (lt_irrefl _)
      · obtain rfl : stored = row := by simpa using hstored
        rw [ContextArtifactRow.load_of_holds (hholds heligible.symm) new.property, hval]
    exact hloads.loadArtifact hthere

/-- After the context of a run that did not fail is stored, the run is answered from the draft. -/
theorem Rebuilds.storeContext {draft : ArtifactDraft} (h : Rebuilds db p draft)
    (hlinked : Linked P db) (hcontext : p.batch.context.isSome = true)
    (hstatus : p.batch.status ≠ .error) (hok : Store.storeContext db p = .ok db') :
    loadArtifactForReplay db' p.active.scanRunId = .ok (some draft) := by
  rcases storeContext_ok hok with ⟨hnone, -⟩ | ⟨context, -, ⟨herror, -⟩ | ⟨-, stored, id, hstored,
    hinsert⟩⟩
  · rw [hnone] at hcontext; cases hcontext
  · exact absurd herror hstatus
  · obtain ⟨-, -, hnew, hartifact, -, rfl⟩ := insertContext_ok hinsert
    have hnone : (stored.contexts.find? fun row => decide (row.scanRunId = p.active.scanRunId)) =
        none := List.find?_eq_none.2 fun row hrow hid => by
      rw [Db.hasContext_eq_true.2 ⟨row, hrow, of_decide_eq_true hid⟩] at hnew
      cases hnew
    have hload := h.storeArtifact hlinked hstored (hartifact id rfl)
    simp only [loadArtifactForReplay, List.find?_append, hnone, Option.none_or, List.find?_singleton,
      decide_true, if_true, Option.bind_some]
    exact congrArg (Except.map some) hload

/-- A failed run is answered without an artifact. -/
theorem storeContext_error (hok : storeContext db p = .ok db') (hstatus : p.batch.status = .error)
    (hnew : db.hasContext p.active.scanRunId = false) :
    loadArtifactForReplay db' p.active.scanRunId = .ok none := by
  have hnone : (db.contexts.find? fun row => decide (row.scanRunId = p.active.scanRunId)) = none :=
    List.find?_eq_none.2 fun row hrow hid => by
      rw [Db.hasContext_eq_true.2 ⟨row, hrow, of_decide_eq_true hid⟩] at hnew
      cases hnew
  rcases storeContext_ok hok with ⟨-, rfl⟩ | ⟨context, -, ⟨-, hinsert⟩ | ⟨hother, -⟩⟩
  · simp only [loadArtifactForReplay, hnone, Option.bind_none]
  · obtain ⟨-, -, -, -, -, rfl⟩ := insertContext_ok hinsert
    simp only [loadArtifactForReplay, List.find?_append, hnone, Option.none_or, List.find?_singleton,
      decide_true, if_true, Option.bind_some]
  · exact absurd hstatus hother

/-- The run is answered with the text. -/
def Answers (db : Db) (row : ScanRunRow) (json : Text) : Prop :=
  ∃ stored, loadStoredEnvelope db row row.requestId = .ok stored ∧ stored.envelopeJson = json

/-- A finished row is answered with the envelope of its metadata and the context of its artifact. -/
theorem answers_of_load (hvalid : ValidBatch p.active p.batch p.envelope)
    (hmetadata : p.metadataJson =
      (envelopeMetadata p.envelope p.batch.refillAudit p.batch.pdfPageAudits).print)
    {row : ScanRunRow} (hid : row.scanRunId = p.active.scanRunId)
    (hrequest : row.requestId = p.active.requestId)
    (hhash : requestHash row.canonicalRequestJson = row.requestHash)
    (hstatus : row.status = p.batch.status)
    (hrowMetadata : row.finalEnvelopeMetadataJson = some p.metadataJson)
    {artifact : Option ArtifactDraft} (hload : loadArtifactForReplay db row.scanRunId = .ok artifact)
    (henvelope : (withContext p.envelope (contextOf artifact)).validate = .ok ())
    (hjson : (withContext p.envelope (contextOf artifact)).json.print = p.batch.envelopeJson) :
    Answers db row p.batch.envelopeJson := by
  have hfits := ContextEnvelope.fits_of_ofText hvalid.parsed
  have hparsed : parseMetadata p.metadataJson =
      .ok (envelopeMetadata p.envelope p.batch.refillAudit p.batch.pdfPageAudits) := by
    rw [parseMetadata, hmetadata, Json.parse_print]
  have henvelopeRebuilt : rebuildEnvelope
      (envelopeMetadata p.envelope p.batch.refillAudit p.batch.pdfPageAudits) p.envelope.summary
        artifact = .ok (withContext p.envelope (contextOf artifact)) := by
    rw [rebuildEnvelope_metadata hfits]
    change ((withContext p.envelope (contextOf artifact)).validate >>= fun _ => _) = _
    rw [henvelope]
    rfl
  have hrebuilt : rebuildEnvelopeFromMetadata db row.scanRunId p.metadataJson =
      .ok (withContext p.envelope (contextOf artifact)) := by
    simp only [rebuildEnvelopeFromMetadata, hparsed, metadataSummary_metadata hfits, hload,
      henvelopeRebuilt, henvelope, bind, Except.bind, rebuilt, require, if_true]
  have hcanonical : canonicalEnvelopeJson (withContext p.envelope (contextOf artifact)) =
      .ok p.batch.envelopeJson := by
    simp only [canonicalEnvelopeJson, henvelope, hjson]
  have hmatches : (withContext p.envelope (contextOf artifact)).requestId = row.requestId ∧
      (withContext p.envelope (contextOf artifact)).scanRunId = some row.scanRunId ∧
      envelopeStatusMatches row.status
        (withContext p.envelope (contextOf artifact)).status = true := by
    rw [hrequest, hid, hstatus]
    exact ⟨hvalid.requestId_eq, hvalid.scanRunId_eq, hvalid.status_eq⟩
  have hterminal : row.status.isTerminal = true := hstatus ▸ hvalid.terminal
  refine ⟨⟨row.scanRunId, p.batch.envelopeJson, withContext p.envelope (contextOf artifact)⟩, ?_, rfl⟩
  simp only [loadStoredEnvelope, require, hhash, hterminal, terminalMetadata, hrowMetadata, hrebuilt,
    hcanonical, hmatches, bind, Except.bind, if_true, and_self]

/-! ### What a preparation finds out -/

omit [Sha256] in
theorem rebuilt_eq_ok {result : Except Text ContextEnvelope} {envelope : ContextEnvelope} :
    rebuilt result = .ok envelope ↔ result = .ok envelope := by
  cases result <;> simp [rebuilt]

omit [Sha256] in
theorem canonicalEnvelopeJson_ok {envelope : ContextEnvelope} {json : Text}
    (h : canonicalEnvelopeJson envelope = .ok json) :
    envelope.validate = .ok () ∧ envelope.json.print = json := by
  unfold canonicalEnvelopeJson at h
  split at h
  · cases h
  · next hvalid => exact ⟨hvalid, by simpa using h⟩

/-- A stored row with its id is the only one. -/
theorem Linked.loads (h : Linked P db) {row : ContextArtifactRow} (hrow : row ∈ db.artifacts)
    {draft : ArtifactDraft} (hload : row.load = .ok draft) : Loads db row.artifactId draft :=
  ⟨h.artifacts_lt row hrow, fun other hother hid => by
    rw [List.inj_on_of_nodup_map h.artifacts_nodup hother hrow hid, hload]⟩

theorem loadArtifact_ok {artifactId : ℕ} {draft : ArtifactDraft}
    (h : loadArtifact db artifactId = .ok draft) :
    ∃ row ∈ db.artifacts, row.artifactId = artifactId ∧ row.load = .ok draft := by
  unfold loadArtifact at h
  cases hfind : findArtifact db artifactId with
  | none => rw [hfind] at h; cases h
  | some row =>
    rw [hfind] at h
    exact ⟨row, List.mem_of_find?_eq_some hfind, by simpa using List.find?_some hfind, h⟩

theorem dedupArtifact_ok {draft : ArtifactDraft} {key : SnapshotKeyParts} {artifactId : ℕ}
    (h : dedupArtifact db draft key = .ok (some artifactId)) :
    ∃ row ∈ db.artifacts, row.artifactId = artifactId ∧ row.load = .ok draft := by
  unfold dedupArtifact at h
  cases hfind : findSnapshot db key.sha256 with
  | none => rw [hfind] at h; cases h
  | some row =>
    rw [hfind] at h
    simp only [bind_eq_ok] at h
    obtain ⟨existing, hload, h⟩ := h
    split_ifs at h with hsame
    cases h
    exact ⟨row, List.mem_of_find?_eq_some hfind, rfl, hsame.2 ▸ hload⟩

variable {batch : FinalizationBatch} {nowMs : ℕ}

/-- A run that did not fail is prepared with the artifact that its envelope is rebuilt from. -/
theorem Prepares.rebuilds_draft (h : Prepares db active batch nowMs p) (hlinked : Linked P db)
    (hstatus : batch.status ≠ .error) : ∃ draft, Rebuilds db p draft := by
  obtain ⟨metadata, snapshot, envelope, hmetadata, hsnapshot, hsemantics, hrebuilt, hjson⟩ := h.rebuilds
  have hvalid := validateFinalization_ok h.valid
  have hfits := ContextEnvelope.fits_of_ofText hvalid.parsed
  obtain ⟨context, hcontext, -⟩ := hvalid.context hstatus
  -- the context comes with an artifact
  obtain ⟨draft, hdraft⟩ : ∃ draft, artifactForRebuild batch snapshot = some draft := by
    cases hartifact : artifactForRebuild batch snapshot with
    | some draft => exact ⟨draft, rfl⟩
    | none =>
      rw [checkSemantics, hcontext, hartifact] at hsemantics
      simp only [if_neg hstatus] at hsemantics
      cases hsemantics
  have henvelope : envelope = withContext p.envelope draft.finalContext := by
    rw [rebuilt_eq_ok, hdraft] at hrebuilt
    have hparsed : metadata = envelopeMetadata p.envelope batch.refillAudit batch.pdfPageAudits := by
      rw [h.metadata_eq, parseMetadata, Json.parse_print] at hmetadata
      exact (Except.ok.inj hmetadata).symm
    rw [hparsed, rebuildEnvelope_metadata hfits] at hrebuilt
    simp only [bind_eq_ok] at hrebuilt
    obtain ⟨-, -, hrebuilt⟩ := hrebuilt
    exact (Except.ok.inj hrebuilt).symm
  obtain ⟨henvelopeValid, henvelopeJson⟩ := canonicalEnvelopeJson_ok hjson
  refine ⟨draft, henvelope ▸ henvelopeValid, ?_, fun hit hhit => ?_, fun hnone => ?_,
    fun hnone id hid => ?_⟩
  · rw [h.batch_eq, ← henvelope]
    exact henvelopeJson
  · rw [h.batch_eq] at hhit
    rw [loadSnapshot, Option.mem_def.1 hhit, map_eq_ok] at hsnapshot
    obtain ⟨loaded, hload, rfl⟩ := hsnapshot
    obtain rfl : loaded = draft := by simpa [artifactForRebuild] using hdraft
    obtain ⟨row, hrow, hid, hrowLoad⟩ := loadArtifact_ok hload
    exact hid ▸ hlinked.loads hrow hrowLoad
  · rw [h.batch_eq] at hnone ⊢
    rw [loadSnapshot, hnone] at hsnapshot
    obtain rfl : snapshot = none := (Except.ok.inj hsnapshot).symm
    rw [artifactForRebuild, Option.none_or] at hdraft
    exact Option.map_eq_some_iff.1 hdraft
  · rw [h.batch_eq] at hnone
    rw [loadSnapshot, hnone] at hsnapshot
    obtain rfl : snapshot = none := (Except.ok.inj hsnapshot).symm
    have hdedup := h.dedup
    rw [Option.mem_def.1 hid, dedupBatch] at hdedup
    cases hnew : batch.artifact with
    | none => rw [hnew] at hdedup; cases hdedup
    | some new =>
      cases hkey : batch.snapshotKey with
      | none => rw [hnew, hkey] at hdedup; cases hdedup
      | some key =>
        rw [hnew, hkey] at hdedup
        obtain rfl : new.val = draft := by simpa [artifactForRebuild, hnew] using hdraft
        obtain ⟨row, hrow, hrowId, hrowLoad⟩ := dedupArtifact_ok hdedup
        exact hrowId ▸ hlinked.loads hrow hrowLoad

end Replay

end DailyReport.Store
