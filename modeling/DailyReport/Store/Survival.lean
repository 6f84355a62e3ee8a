import DailyReport.Store.Exactness

/-!
# What retention leaves behind

A run that answered with a context can be loaded as evidence as long as its artifact is there and,
where it reused a snapshot, its source is named.  Deleting a run takes its name out of the contexts
that reuse it, and the loader takes such a context for a corrupt one.

* `retention_undamaged` : in a run whose events delete no source of a snapshot hit that stays, **no
  run that stays is damaged**;
* `retention_damages` : a run that is old enough to go damages the younger run that reused it.
-/

namespace DailyReport.Store

open Lib

/-! ### Loading the provenance -/

inductive EvidenceAuditError
  | runCorrupt (message : Text)
  deriving DecidableEq

/-- The artifact and the source of the context of a run, and whether it is a snapshot hit. -/
def loadContextRunProvenance (db : Db) (scanRunId : ℕ) :
    Except EvidenceAuditError (Option ℕ × Option ℕ × Bool) :=
  match db.contexts.find? fun row => decide (row.scanRunId = scanRunId) with
  | none => .ok (none, none, false)
  | some row =>
    if row.snapshotHit = true ∧ row.reusedFromContextRunId = none then
      .error (.runCorrupt (lit "snapshot hit context run has no reused_from source"))
    else if row.snapshotHit = false ∧ row.reusedFromContextRunId ≠ none then
      .error (.runCorrupt (lit "non-snapshot context run has a reused_from source"))
    else .ok (row.artifactId, row.reusedFromContextRunId, row.snapshotHit)

/-- The provenance of the run is loaded, and its artifact is there. -/
def EvidenceLoads (db : Db) (scanRunId : ℕ) : Prop :=
  ∃ artifactId source hit, loadContextRunProvenance db scanRunId = .ok (some artifactId, source, hit) ∧
    db.hasArtifact artifactId = true ∧ (hit = true → source.isSome = true)

/-- Every run that answered with a context can be loaded as evidence and replayed. -/
def Undamaged [Sha256] (db : Db) : Prop :=
  ∀ row ∈ db.runs, row.Answered →
    EvidenceLoads db row.scanRunId ∧ ∃ json, Answers db row json

/-! ### Sources of snapshot hits -/

/-- The victims are no source of a snapshot hit that stays. -/
def SourcesSpared (db : Db) (victims : List ℕ) : Prop :=
  ∀ context ∈ db.contexts, context.snapshotHit = true →
    ∀ source ∈ context.reusedFromContextRunId, source ∈ victims → context.scanRunId ∈ victims

instance (db : Db) (victims : List ℕ) : Decidable (SourcesSpared db victims) :=
  inferInstanceAs (Decidable (∀ context ∈ db.contexts, context.snapshotHit = true →
    ∀ source ∈ context.reusedFromContextRunId, source ∈ victims → context.scanRunId ∈ victims))

/-- Every snapshot hit names its source. -/
def SourcesNamed (db : Db) : Prop :=
  ∀ context ∈ db.contexts, context.snapshotHit = true → context.reusedFromContextRunId.isSome = true

variable {db db' : Db} {base : List ContextRunRow} {gone victims : List ℕ}

/-- Contexts that are left of `base` when the runs `gone` were deleted: a context that stays has lost
its source if the source is gone. -/
def LeftOf (base : List ContextRunRow) (gone : List ℕ) (db : Db) : Prop :=
  ∀ context ∈ db.contexts, ∃ old ∈ base, old.scanRunId = context.scanRunId ∧
    old.snapshotHit = context.snapshotHit ∧ context.scanRunId ∉ gone ∧
    (context.reusedFromContextRunId = old.reusedFromContextRunId ∨
      ∃ source ∈ gone, old.reusedFromContextRunId = some source)

theorem leftOf_self : LeftOf db.contexts [] db :=
  fun context hcontext => ⟨context, hcontext, rfl, rfl, by simp, .inl rfl⟩

theorem LeftOf.deleteRuns (h : LeftOf base gone db) :
    LeftOf base (gone ++ victims) (db.deleteRuns victims) := by
  intro context hcontext
  obtain ⟨kept, hkept, hnot, rfl⟩ := Db.mem_deleteContexts.1 hcontext
  obtain ⟨old, hold, hid, hhit, hgone, hsource⟩ := h kept hkept
  by_cases hlost : (kept.reusedFromContextRunId.any fun id => decide (id ∈ victims)) = true
  · rw [if_pos hlost]
    refine ⟨old, hold, hid, hhit, by simp [hgone, hnot], .inr ?_⟩
    rcases hsource with hsame | ⟨source, hmem, hold'⟩
    · obtain ⟨source, hkeptSource, hvictim⟩ := (Option.any_eq_true _ _).1 hlost
      exact ⟨source, List.mem_append_right _ (of_decide_eq_true hvictim), hsame ▸ hkeptSource⟩
    · exact ⟨source, List.mem_append_left _ hmem, hold'⟩
  · rw [if_neg hlost]
    refine ⟨old, hold, hid, hhit, by simp [hgone, hnot], ?_⟩
    rcases hsource with hsame | ⟨source, hmem, hold'⟩
    · exact .inl hsame
    · exact .inr ⟨source, List.mem_append_left _ hmem, hold'⟩

theorem LeftOf.of_same (h : LeftOf base gone db) (hcontexts : db'.contexts = db.contexts) :
    LeftOf base gone db' := fun context hcontext => h context (hcontexts ▸ hcontext)

/-- The contexts that are left name their sources, if they did and their sources were spared. -/
theorem LeftOf.named {db' : Db} (h : LeftOf db.contexts gone db') (hnamed : SourcesNamed db)
    (hspared : SourcesSpared db gone) : SourcesNamed db' := by
  intro context hcontext hhit
  obtain ⟨old, hold, hid, hsameHit, hnot, hsource⟩ := h context hcontext
  rcases hsource with hsame | ⟨source, hmem, hsome⟩
  · rw [hsame]
    exact hnamed old hold (hsameHit.trans hhit)
  · exact absurd (hid ▸ hspared old hold (hsameHit.trans hhit) source hsome hmem) hnot

theorem LeftOf.congr (h : LeftOf base gone db) (hgone : ∀ id, id ∈ gone ↔ id ∈ victims) :
    LeftOf base victims db := by
  intro context hcontext
  obtain ⟨old, hold, hid, hhit, hnot, hsource⟩ := h context hcontext
  refine ⟨old, hold, hid, hhit, fun hmem => hnot ((hgone _).2 hmem), ?_⟩
  rcases hsource with hsame | ⟨source, hmem, hsome⟩
  · exact .inl hsame
  · exact .inr ⟨source, (hgone _).1 hmem, hsome⟩

theorem LeftOf.insert (h : LeftOf base gone db) {row : ContextRunRow} (hrow : row.scanRunId ∉ gone) :
    LeftOf (base ++ [row]) gone { db with contexts := db.contexts ++ [row] } := by
  intro context hcontext
  rcases List.mem_append.1 hcontext with hcontext | hcontext
  · obtain ⟨old, hold, hrest⟩ := h context hcontext
    exact ⟨old, List.mem_append_left _ hold, hrest⟩
  · obtain rfl : context = row := by simpa using hcontext
    exact ⟨context, by simp, rfl, rfl, hrow, .inl rfl⟩

/-! ### Planned deletions -/

variable {ids protectedRuns protectedArtifacts : List ℕ} {plan : FinalizationRetentionPlan}

def IdsNodup (db : Db) : Prop := (db.runs.map ScanRunRow.scanRunId).Nodup

/-- A batch that is applied deletes exactly its runs. -/
theorem deletePreparedTerminalRuns_exact (hnodup : IdsNodup db)
    (h : deletePreparedTerminalRuns db ids protectedRuns = .ok db') :
    ∃ victims, db' = db.deleteRuns victims ∧ (∀ id, id ∈ victims ↔ id ∈ ids) ∧
      ∀ id ∈ ids, id ∉ protectedRuns := by
  obtain ⟨victims, rfl, hlength, hsub, hmem, -⟩ := deletePreparedTerminalRuns_ok h
  have hperm : victims.Perm ids :=
    (List.subperm_of_subset (hsub.nodup hnodup) fun id hid => (hmem id hid).1).perm_of_length_le
      hlength.ge
  exact ⟨victims, rfl, fun id => hperm.mem_iff, fun id hid => (hmem id (hperm.mem_iff.2 hid)).2⟩

theorem IdsNodup.deleteRuns (h : IdsNodup db) : IdsNodup (db.deleteRuns victims) :=
  ((deleteWhere_sublist _ _).map _).nodup h

theorem LeftOf.deletePrepared (h : LeftOf base gone db) (hnodup : IdsNodup db)
    (hok : deletePreparedTerminalRuns db ids protectedRuns = .ok db') :
    LeftOf base (gone ++ ids) db' ∧ IdsNodup db' ∧ ∀ id ∈ ids, id ∉ protectedRuns := by
  obtain ⟨victims, rfl, hexact, hprotected⟩ := deletePreparedTerminalRuns_exact hnodup hok
  refine ⟨h.deleteRuns.congr fun id => ?_, hnodup.deleteRuns, hprotected⟩
  rw [List.mem_append, List.mem_append, hexact id]

theorem LeftOf.deleteBatches {batches : List (List ℕ)} (h : LeftOf base gone db)
    (hnodup : IdsNodup db)
    (hok : batches.foldlM (fun db ids => deletePreparedTerminalRuns db ids protectedRuns) db =
      .ok db') :
    LeftOf base (gone ++ batches.flatten) db' ∧ ∀ id ∈ batches.flatten, id ∉ protectedRuns := by
  induction batches generalizing db gone with
  | nil =>
    cases hok
    simpa using h
  | cons ids batches ih =>
    obtain ⟨mid, hmid, hok⟩ := foldlM_cons_eq_ok.1 hok
    obtain ⟨hleft, hnodup', hids⟩ := h.deletePrepared hnodup hmid
    obtain ⟨hrest, hprotected⟩ := ih hleft hnodup' hok
    rw [List.flatten_cons]
    refine ⟨by rw [← List.append_assoc]; exact hrest, fun id hid => ?_⟩
    rcases List.mem_append.1 hid with hid | hid
    · exact hids id hid
    · exact hprotected id hid

theorem LeftOf.deleteRoom {room : List PreparedRetentionDelete} (h : LeftOf base gone db)
    (hnodup : IdsNodup db)
    (hok : room.foldlM (applyDeletion protectedRuns protectedArtifacts) db = .ok db') :
    LeftOf base (gone ++ roomRuns room) db' ∧ IdsNodup db' ∧
      ∀ id ∈ roomRuns room, id ∉ protectedRuns := by
  induction room generalizing db gone with
  | nil =>
    cases hok
    exact ⟨by simpa [roomRuns] using h, hnodup, by simp [roomRuns]⟩
  | cons deletion room ih =>
    obtain ⟨mid, hmid, hnext⟩ := foldlM_cons_eq_ok.1 hok
    cases deletion with
    | artifacts ids =>
      obtain ⟨victims, rfl, -⟩ := deletePreparedArtifacts_ok hmid
      have hsame : LeftOf base gone (db.deleteArtifacts victims) := h.of_same rfl
      exact ih hsame hnodup hnext
    | runs ids =>
      obtain ⟨hleft, hnodup', hids⟩ := h.deletePrepared hnodup hmid
      obtain ⟨hrest, hnodup'', hprotected⟩ := ih hleft hnodup' hnext
      have hcons : roomRuns (.runs ids :: room) = ids ++ roomRuns room := rfl
      rw [hcons]
      refine ⟨by rw [← List.append_assoc]; exact hrest, hnodup'', fun id hid => ?_⟩
      rcases List.mem_append.1 hid with hid | hid
      · exact hids id hid
      · exact hprotected id hid

section Runs

/-! ### The terminal transaction -/

variable [Sha256] {p : PreparedFinalization}

/-- The transaction stores a new artifact, and makes room for it first. -/
def storesArtifact (p : PreparedFinalization) : Bool :=
  p.batch.context.isSome && decide (p.batch.status ≠ .error) && p.batch.snapshotHit.isNone &&
    p.dedupArtifactId.isNone

/-- The runs that the transaction deletes to make room. -/
def plannedRoom (p : PreparedFinalization) : List ℕ :=
  if storesArtifact p then roomRuns p.plan.artifactRoom else []

/-- The runs that the transaction deletes. -/
def plannedRuns (p : PreparedFinalization) : List ℕ :=
  plannedRoom p ++ p.plan.terminalRunBatches.flatten

/-- The contexts after the context of the run is stored: what is left of the old ones, and the new
one, whose source is protected. -/
theorem storeContext_left (hok : storeContext db p = .ok db') (hnodup : IdsNodup db)
    (hprotected : p.protectedRuns = protectedRunsOf p.active p.batch) :
    ∃ extra, LeftOf (db.contexts ++ extra) (plannedRoom p) db' ∧ IdsNodup db' ∧
      (∀ row ∈ extra, row.snapshotHit = true →
        ∃ source ∈ p.protectedRuns, row.reusedFromContextRunId = some source) ∧
      ∀ id ∈ plannedRoom p, id ∉ p.protectedRuns := by
  have hactive : p.active.scanRunId ∈ p.protectedRuns := by
    rw [hprotected]; exact List.mem_cons_self
  rcases storeContext_ok hok with ⟨hnone, rfl⟩ | ⟨context, hcontext, ⟨herror, hinsert⟩ |
    ⟨hstatus, stored, id, hstored, hinsert⟩⟩
  · have hroom : plannedRoom p = [] := by simp [plannedRoom, storesArtifact, hnone]
    rw [hroom]
    exact ⟨[], by simpa using leftOf_self, hnodup, by simp, by simp⟩
  · have hroom : plannedRoom p = [] := by simp [plannedRoom, storesArtifact, herror]
    obtain ⟨-, -, -, -, -, rfl⟩ := insertContext_ok hinsert
    rw [hroom]
    exact ⟨_, leftOf_self.insert (by simp), hnodup, by simp, by simp⟩
  · -- up to the context, the room is made where a new artifact needs it
    have hstoredLeft : LeftOf db.contexts (plannedRoom p) stored ∧ IdsNodup stored ∧
        ∀ id ∈ plannedRoom p, id ∉ p.protectedRuns := by
      rcases storeArtifact_ok hstored with ⟨rfl, hit, hhit, -⟩ | ⟨rfl, -, hdedup⟩ |
        ⟨draft, pruned, hnone, hdedup, -, -, hpruned, hstoredArtifact⟩
      · have hroom : plannedRoom p = [] := by simp [plannedRoom, storesArtifact, hhit]
        rw [hroom]
        exact ⟨leftOf_self, hnodup, by simp⟩
      · have hroom : plannedRoom p = [] := by simp [plannedRoom, storesArtifact, hdedup]
        rw [hroom]
        exact ⟨leftOf_self, hnodup, by simp⟩
      · have hroom : plannedRoom p = roomRuns p.plan.artifactRoom := by
          simp [plannedRoom, storesArtifact, hcontext, hstatus, hnone, hdedup]
        obtain ⟨-, row, -, -, -, rfl⟩ := insertArtifact_ok hstoredArtifact
        unfold applyArtifactRetentionPlan at hpruned
        simp only [bind_eq_ok] at hpruned
        obtain ⟨applied, happlied, -, -, hpruned⟩ := hpruned
        cases hpruned
        rw [hroom]
        obtain ⟨hleft, hnodup', hids⟩ := leftOf_self.deleteRoom hnodup happlied
        exact ⟨hleft.of_same rfl, hnodup', hids⟩
    obtain ⟨hleft, hnodup', hids⟩ := hstoredLeft
    obtain ⟨-, -, -, -, -, rfl⟩ := insertContext_ok hinsert
    refine ⟨_, hleft.insert fun hmem => hids _ hmem hactive, hnodup', fun row hrow hhit => ?_, hids⟩
    obtain rfl := List.mem_singleton.1 hrow
    cases hsnapshot : p.batch.snapshotHit with
    | none => simp [hsnapshot] at hhit
    | some hit =>
      refine ⟨hit.reusedFromContextRunId, ?_, rfl⟩
      rw [hprotected, protectedRunsOf, hsnapshot]
      simp

/-- After the transaction the snapshot hits name their sources, if their sources were spared. -/
theorem SourcesNamed.commit (hnamed : SourcesNamed db) (hnodup : IdsNodup db)
    (hprotected : p.protectedRuns = protectedRunsOf p.active p.batch)
    (hspared : SourcesSpared db (plannedRuns p)) (hok : commitFinalization db p = .ok db') :
    SourcesNamed db' := by
  obtain ⟨beaten, stored, finished, pruned, hbeaten, hstored, hfinished, hpruned, rfl⟩ :=
    commitFinalization_ok hok
  have hbeatenNodup : IdsNodup beaten := by
    obtain ⟨lease, -, -, -, rfl⟩ := heartbeatInTransaction_ok hbeaten
    unfold IdsNodup
    rw [map_updateWhere (f := fun row : ScanRunRow => { row with updatedAtMs := p.now })
      ScanRunRow.scanRunId fun _ => rfl]
    exact hnodup
  have hbeatenContexts : beaten.contexts = db.contexts := by
    obtain ⟨lease, -, -, -, rfl⟩ := heartbeatInTransaction_ok hbeaten
    rfl
  obtain ⟨extra, hleft, hstoredNodup, hextra, hroom⟩ := storeContext_left hstored hbeatenNodup hprotected
  rw [hbeatenContexts] at hleft
  obtain ⟨-, -, hfinishedEq⟩ := finishRows_ok hfinished
  have hfinishedNodup : IdsNodup finished := by
    unfold IdsNodup
    rw [hfinishedEq, map_updateWhere
      (f := ScanRunRow.finish p.batch.status p.now p.metadataJson p.batch.auditSizeBytes)
      ScanRunRow.scanRunId fun _ => rfl]
    exact hstoredNodup
  have hfinishedLeft : LeftOf (db.contexts ++ extra) (plannedRoom p) finished :=
    hleft.of_same (by rw [hfinishedEq])
  unfold applyTerminalRetentionPlan at hpruned
  simp only [bind_eq_ok] at hpruned
  obtain ⟨applied, happlied, -, -, hpruned⟩ := hpruned
  cases hpruned
  obtain ⟨hend, hterminal⟩ := hfinishedLeft.deleteBatches hfinishedNodup happlied
  intro context hcontext hhit
  obtain ⟨old, hold, hid, hsameHit, hnot, hsource⟩ := hend context hcontext
  rcases List.mem_append.1 hold with hold | hold
  · rcases hsource with hsame | ⟨source, hmem, hsome⟩
    · rw [hsame]
      exact hnamed old hold (hsameHit.trans hhit)
    · exact absurd (hid ▸ hspared old hold (hsameHit.trans hhit) source hsome hmem) hnot
  · -- the source of the new context is protected
    obtain ⟨protectedSource, hmemProtected, hsome⟩ := hextra old hold (hsameHit.trans hhit)
    rcases hsource with hsame | ⟨source, hmem, hsome'⟩
    · rw [hsame, hsome]
      rfl
    · obtain rfl : protectedSource = source := Option.some.inj (hsome.symm.trans hsome')
      rcases List.mem_append.1 hmem with hmem | hmem
      · exact absurd hmemProtected (hroom _ hmem)
      · exact absurd hmemProtected (hterminal _ hmem)

/-! ### Runs of the system -/

/-- The event deletes no source of a snapshot hit that stays. -/
def Spares (s : System) : Event → Prop
  | .gc nowMs _ runsStatement => runsStatement = true → SourcesSpared s.db (gcRuns s.db nowMs)
  | .commit handle => ∀ p ∈ s.prepared[handle]?, SourcesSpared s.db (plannedRuns p)
  | .beginRun _ _ _ _ _ _ | .heartbeat _ _ | .recordWorkerFingerprints _ _ _ _ | .abandon _ _
  | .prepare _ _ _ => True

instance (s : System) : (e : Event) → Decidable (Spares s e)
  | .gc nowMs _ runsStatement =>
    inferInstanceAs (Decidable (runsStatement = true → SourcesSpared s.db (gcRuns s.db nowMs)))
  | .commit handle =>
    inferInstanceAs (Decidable (∀ p ∈ s.prepared[handle]?, SourcesSpared s.db (plannedRuns p)))
  | .beginRun _ _ _ _ _ _ | .heartbeat _ _ | .recordWorkerFingerprints _ _ _ _ | .abandon _ _
  | .prepare _ _ _ => isTrue trivial

/-- What an event that spares the sources keeps. -/
theorem SourcesNamed.step {s s' : System} {e : Event} (hnamed : SourcesNamed s.db)
    (h : SystemIntegrity s) (hspares : Spares s e) (hok : Store.step s e = .ok s') :
    SourcesNamed s'.db := by
  cases e with
  | beginRun requestId canonical runtime storePath ownerId nowMs =>
    simp only [Store.step, bind_eq_ok] at hok
    obtain ⟨⟨db, outcome⟩, hbegin, hok⟩ := hok
    cases hok
    obtain ⟨-, hcontexts, -⟩ := h.db.beginRun hbegin
    exact fun context hcontext => hnamed context (hcontexts ▸ hcontext)
  | heartbeat handle nowMs =>
    simp only [Store.step, bind_eq_ok] at hok
    obtain ⟨active, -, db, hbeat, hok⟩ := hok
    cases hok
    obtain ⟨lease, -, -, -, rfl⟩ := heartbeatInTransaction_ok (heartbeat_ok hbeat)
    exact hnamed
  | recordWorkerFingerprints handle office pdf nowMs =>
    simp only [Store.step, bind_eq_ok] at hok
    obtain ⟨active, -, db, hrecord, hok⟩ := hok
    cases hok
    obtain ⟨lease, -, -, -, rfl⟩ := heartbeatInTransaction_ok (recordWorkerFingerprints_ok hrecord)
    exact hnamed
  | abandon handle nowMs =>
    simp only [Store.step, bind_eq_ok] at hok
    obtain ⟨active, -, db, habandon, hok⟩ := hok
    cases hok
    obtain ⟨lease, -, -, -, rfl⟩ := abandonActiveRun_ok habandon
    exact hnamed
  | prepare handle batch nowMs =>
    simp only [Store.step, bind_eq_ok] at hok
    obtain ⟨active, -, prepared, -, hok⟩ := hok
    cases hok
    exact hnamed
  | commit handle =>
    simp only [Store.step, bind_eq_ok, held_eq_ok] at hok
    obtain ⟨p, hheld, db, hcommit, hok⟩ := hok
    cases hok
    have hprepared := h.prepared p (List.mem_of_getElem? hheld)
    exact hnamed.commit h.db.runs.ids_nodup hprepared.protectedRuns (hspares p hheld) hcommit
  | gc nowMs artifactsStatement runsStatement =>
    simp only [Store.step, bind_eq_ok] at hok
    obtain ⟨db, hgc, hok⟩ := hok
    cases hok
    unfold runOpportunisticGc at hgc
    simp only [bind_eq_ok, checkedI64_eq_ok] at hgc
    obtain ⟨now, ⟨-, rfl⟩, hgc⟩ := hgc
    cases hgc
    -- deleting artifacts touches no context
    have hartifacts : ∀ db : Db, (if artifactsStatement then db.deleteArtifacts (gcArtifacts db)
        else db).contexts = db.contexts ∧ (if artifactsStatement then
          db.deleteArtifacts (gcArtifacts db) else db).runs = db.runs := by
      intro db
      split_ifs <;> exact ⟨rfl, rfl⟩
    obtain ⟨hcontexts, hruns⟩ := hartifacts s.db
    by_cases hstatement : runsStatement = true
    · rw [if_pos hstatement]
      have hvictims : gcRuns (if artifactsStatement then s.db.deleteArtifacts (gcArtifacts s.db)
          else s.db) nowMs = gcRuns s.db nowMs := by
        simp only [gcRuns, finishedRuns, hruns]
      rw [hvictims]
      exact LeftOf.named (LeftOf.deleteRuns (leftOf_self.of_same hcontexts)) hnamed
        (hspares hstatement)
    · rw [if_neg hstatement]
      exact fun context hcontext => hnamed context (hcontexts ▸ hcontext)

/-! ### Committed runs are answered -/

/-- Every committed run can be replayed. -/
def AllAnswered (db : Db) : Prop :=
  ∀ row ∈ db.runs, row.status.isTerminal = true → ∃ json, Answers db row json

omit [Sha256] in
/-- An update that commits nothing. -/
theorem mem_of_mem_updateWhere {rows : List ScanRunRow} {q : ScanRunRow → Bool}
    {f : ScanRunRow → ScanRunRow} {row : ScanRunRow} (hrow : row ∈ updateWhere q f rows)
    (hterminal : row.status.isTerminal = true)
    (hf : ∀ old, q old = true → (f old).status.isTerminal = false) : row ∈ rows := by
  rcases mem_updateWhere.1 hrow with ⟨hrow, -⟩ | ⟨old, -, hmatch, rfl⟩
  · exact hrow
  · rw [hf old hmatch] at hterminal
    cases hterminal

omit [Sha256] in
theorem heartbeat_committed {active : ActiveRun} {now : ℤ}
    (hok : heartbeatInTransaction db active now = .ok db') {row : ScanRunRow} (hrow : row ∈ db'.runs)
    (hterminal : row.status.isTerminal = true) : row ∈ db.runs := by
  obtain ⟨lease, -, -, -, rfl⟩ := heartbeatInTransaction_ok hok
  exact mem_of_mem_updateWhere hrow hterminal fun old hold => ownRun_not_terminal hold

omit [Sha256] in
theorem startAttempt_committed {existing : Option ScanRunRow} {requestId ownerId : Text}
    {canonical : CanonicalRequest} {runtime : AttemptRuntime} {now : ℤ} {outcome : BeginRunOutcome}
    (hok : startAttempt db existing requestId canonical runtime ownerId now = .ok (db', outcome))
    {row : ScanRunRow} (hrow : row ∈ db'.runs) (hterminal : row.status.isTerminal = true) :
    row ∈ db.runs := by
  obtain ⟨released, started, active, hreleased, hstarted, -, -, -, rfl⟩ := startAttempt_ok hok
  have hreleasedRow : row ∈ released.runs := by
    rcases startRun_ok hstarted with ⟨-, -, rfl⟩ | ⟨run, -, -, -, rfl⟩
    · rcases List.mem_append.1 hrow with hrow | hrow
      · exact hrow
      · obtain rfl := List.mem_singleton.1 hrow
        cases hterminal
    · exact mem_of_mem_updateWhere hrow hterminal fun _ _ => rfl
  rcases releaseLease_ok hreleased with ⟨-, -, rfl⟩ | ⟨lease, -, -, rfl⟩
  · exact hreleasedRow
  · exact mem_of_mem_updateWhere hreleasedRow hterminal fun _ _ => rfl

/-- The transaction commits the run of its process only. -/
theorem commitFinalization_committed (hok : commitFinalization db p = .ok db') {row : ScanRunRow}
    (hrow : row ∈ db'.runs) (hterminal : row.status.isTerminal = true) :
    row ∈ db.runs ∨ row.scanRunId = p.active.scanRunId := by
  obtain ⟨beaten, stored, finished, pruned, hbeaten, hstored, hfinished, hpruned, rfl⟩ :=
    commitFinalization_ok hok
  obtain ⟨-, -, rfl⟩ := finishRows_ok hfinished
  rcases mem_updateWhere.1 ((applyTerminalRetentionPlan_prunes hpruned).runs_subset row hrow) with
    ⟨hmem, -⟩ | ⟨old, -, hown, rfl⟩
  · obtain ⟨mid, hmid, hsame⟩ := storeContext_prunes hstored
    exact .inl (heartbeat_committed hbeaten (hmid.runs_subset row (hsame.runs ▸ hmem)) hterminal)
  · exact .inr (ownRun_eq_true.1 hown).1

/-- What one event keeps. -/
theorem AllAnswered.step {s s' : System} {e : Event} (hanswered : AllAnswered s.db)
    (h : SystemIntegrity s) (hok : Store.step s e = .ok s') : AllAnswered s'.db := by
  intro row hrow hterminal
  -- a run that was committed before is answered as before
  suffices hcases : row ∈ s.db.runs ∨ ∃ json, Answers s'.db row json by
    rcases hcases with hold | hnew
    · obtain ⟨json, stored, hstored, hjson⟩ := hanswered row hold hterminal
      exact ⟨json, stored, (loadStoredEnvelope_congr (step_replay h hok hold hterminal hrow)).trans
        hstored, hjson⟩
    · exact hnew
  have hafter := h.step hok
  cases e with
  | beginRun requestId canonical runtime storePath ownerId nowMs =>
    simp only [Store.step, bind_eq_ok] at hok
    obtain ⟨⟨db, outcome⟩, hbegin, hok⟩ := hok
    cases hok
    rcases beginRun_ok hbegin with ⟨rfl, -⟩ | ⟨hstart, -⟩
    · exact .inl hrow
    · exact .inl (startAttempt_committed hstart hrow hterminal)
  | heartbeat handle nowMs =>
    simp only [Store.step, bind_eq_ok] at hok
    obtain ⟨active, -, db, hbeat, hok⟩ := hok
    cases hok
    exact .inl (heartbeat_committed (heartbeat_ok hbeat) hrow hterminal)
  | recordWorkerFingerprints handle office pdf nowMs =>
    simp only [Store.step, bind_eq_ok] at hok
    obtain ⟨active, -, db, hrecord, hok⟩ := hok
    cases hok
    have hmem := heartbeat_committed (recordWorkerFingerprints_ok hrecord) hrow hterminal
    exact .inl hmem
  | abandon handle nowMs =>
    simp only [Store.step, bind_eq_ok] at hok
    obtain ⟨active, -, db, habandon, hok⟩ := hok
    cases hok
    obtain ⟨lease, -, -, -, rfl⟩ := abandonActiveRun_ok habandon
    exact .inl (mem_of_mem_updateWhere hrow hterminal fun _ _ => rfl)
  | prepare handle batch nowMs =>
    simp only [Store.step, bind_eq_ok] at hok
    obtain ⟨active, -, prepared, -, hok⟩ := hok
    cases hok
    exact .inl hrow
  | commit handle =>
    simp only [Store.step, bind_eq_ok, held_eq_ok] at hok
    obtain ⟨p, hheld, db, hcommit, hok⟩ := hok
    cases hok
    rcases commitFinalization_committed hcommit hrow hterminal with hold | hid
    · exact .inl hold
    · have hprepared := h.prepared p (List.mem_of_getElem? hheld)
      exact .inr ⟨_, (h.db.commit_answers hprepared hcommit hafter.db
        (hafter.actives p.active hprepared.active) hrow hid).2⟩
  | gc nowMs artifactsStatement runsStatement =>
    simp only [Store.step, bind_eq_ok] at hok
    obtain ⟨db, hgc, hok⟩ := hok
    cases hok
    exact .inl ((runOpportunisticGc_prunes hgc).runs_subset row hrow)

/-! ### No run is damaged -/

/-- Where the keys hold and the snapshot hits name their sources, evidence is loaded. -/
theorem Linked.evidenceLoads {P : ScanRunRow → Prop} (h : Linked P db) (hnamed : SourcesNamed db)
    {row : ScanRunRow} (hrow : row ∈ db.runs) (hanswered : row.Answered) :
    EvidenceLoads db row.scanRunId := by
  obtain ⟨context, hcontext, hid, hartifact⟩ := h.run_context row hrow hanswered
  obtain ⟨artifactId, hartifactId⟩ := Option.isSome_iff_exists.1 hartifact
  have hfind : (db.contexts.find? fun other => decide (other.scanRunId = row.scanRunId)) =
      some context := by
    have hsome : (db.contexts.find? fun other =>
        decide (other.scanRunId = row.scanRunId)).isSome = true :=
      List.find?_isSome.2 ⟨context, hcontext, by simpa using hid⟩
    obtain ⟨found, hfound⟩ := Option.isSome_iff_exists.1 hsome
    have hfoundId : found.scanRunId = row.scanRunId := by
      simpa using List.find?_some hfound
    rw [hfound, List.inj_on_of_nodup_map h.contexts_nodup (List.mem_of_find?_eq_some hfound) hcontext
      (hfoundId.trans hid.symm)]
  refine ⟨artifactId, context.reusedFromContextRunId, context.snapshotHit, ?_,
    h.context_artifact context hcontext artifactId hartifactId, hnamed context hcontext⟩
  have hhit : ¬(context.snapshotHit = true ∧ context.reusedFromContextRunId = none) := by
    rintro ⟨hhit, hnone⟩
    have hsome := hnamed context hcontext hhit
    rw [hnone] at hsome
    cases hsome
  have hmiss : ¬(context.snapshotHit = false ∧ context.reusedFromContextRunId ≠ none) :=
    fun ⟨hmiss, hsource⟩ => hsource (h.sources_of_hits context hcontext hmiss)
  simp only [loadContextRunProvenance, hfind, if_neg hhit, if_neg hmiss, hartifactId]

omit [Sha256] in
theorem ScanRunRow.Answered.terminal {row : ScanRunRow} (h : row.Answered) :
    row.status.isTerminal = true := by
  rcases h with hs | hs <;> rw [hs] <;> rfl

/-- **No run that stays is damaged**: in every run whose events delete no source of a snapshot hit
that stays, every run that answered with a context can be loaded as evidence and replayed. -/
theorem retention_undamaged (events : List Event) (h : AllSteps step Spares System.init events) :
    Undamaged (runEvents events).db := by
  have hinv : SystemIntegrity (runEvents events) ∧ SourcesNamed (runEvents events).db ∧
      AllAnswered (runEvents events).db := by
    refine applyAll_invariant_of (I := fun s : System => SystemIntegrity s ∧ SourcesNamed s.db ∧
      AllAnswered s.db) (fun s e s' hs hspares hok => ?_) events System.init ?_ h
    · exact ⟨hs.1.step hok, hs.2.1.step hs.1 hspares hok, hs.2.2.step hs.1 hok⟩
    · exact ⟨.init, by simp [SourcesNamed, System.init, Db.empty],
        by simp [AllAnswered, System.init, Db.empty]⟩
  intro row hrow hanswered
  exact ⟨hinv.1.db.links.evidenceLoads hinv.2.1 hrow hanswered,
    hinv.2.2 row hrow hanswered.terminal⟩

end Runs

section Memo

local instance : Sha256 := memoSha256

/-- A run over the file, and a second one that reuses its artifact a second later. -/
def reusedMemo : List Event :=
  memoRun 0 1 firstRequest "owner-a" none 0 ++ memoRun 1 2 secondRequest "owner-b" (some ⟨1, 1⟩) 1000

set_option maxRecDepth 10000 in
/-- Both runs are young when old runs are deleted. -/
theorem retention_undamaged_memo :
    Undamaged (runEvents (reusedMemo ++ [.gc 2000 true true])).db :=
  retention_undamaged (reusedMemo ++ [.gc 2000 true true]) (by decide +kernel)

/-- The time at which the first run is ninety days old and the second one is not. -/
def afterNinetyDays : ℕ := 90 * 86400000 + 1

set_option maxRecDepth 10000 in
/-- **The older run takes the evidence of the younger one along.** -/
theorem retention_damages :
    ¬ ∀ events : List Event, Undamaged (runEvents events).db := by
  intro h
  have hdamaged : (runEvents (reusedMemo ++ [.gc afterNinetyDays true true])).db.runs.any
        (fun row => decide (row.scanRunId = 2) && decide (row.status = .success)) = true ∧
      loadContextRunProvenance
        (runEvents (reusedMemo ++ [.gc afterNinetyDays true true])).db 2 =
          .error (.runCorrupt (lit "snapshot hit context run has no reused_from source")) := by
    decide +kernel
  obtain ⟨hstays, herror⟩ := hdamaged
  obtain ⟨row, hrow, hrowIs⟩ := List.any_eq_true.1 hstays
  simp only [Bool.and_eq_true, decide_eq_true_eq] at hrowIs
  obtain ⟨⟨artifactId, source, hit, hload, -⟩, -⟩ := h _ row hrow (.inl hrowIs.2)
  rw [hrowIs.1, herror] at hload
  cases hload

end Memo

end DailyReport.Store
