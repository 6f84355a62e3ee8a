import DailyReport.Store.Exclusion

/-!
# The run and lease state machine

No operation changes a committed run but by deleting it (`Evolves`), and an owner gets the lease by
beginning a run only (`step_leaseOwned`).

* `run_lease_machine` : **the state machine over whole runs**: one run at a time, committed runs that
  stay as they are, and an owner whose lease was reclaimed can do nothing any more.
-/

namespace DailyReport.Store

open Lib

variable {db db' db'' : Db} {active : ActiveRun} {now : ℤ}

/-! ### Committed runs -/

/-- A run of before that is still there has its old id and request, and is unchanged if it was
committed. -/
structure Evolves (db db' : Db) : Prop where
  nextRun_le : db.nextRun ≤ db'.nextRun
  kept : ∀ row' ∈ db'.runs, row'.scanRunId < db.nextRun →
    ∃ row ∈ db.runs, row.scanRunId = row'.scanRunId ∧ row.requestId = row'.requestId ∧
      row.canonicalRequestJson = row'.canonicalRequestJson ∧
      (row.status.isTerminal = true → row' = row)

theorem Evolves.trans (h : Evolves db db') (h' : Evolves db' db'') : Evolves db db'' := by
  refine ⟨h.nextRun_le.trans h'.nextRun_le, fun row'' hrow'' hlt => ?_⟩
  obtain ⟨row', hrow', hid', hrequest', hjson', hsame'⟩ :=
    h'.kept row'' hrow'' (hlt.trans_le h.nextRun_le)
  obtain ⟨row, hrow, hid, hrequest, hjson, hsame⟩ := h.kept row' hrow' (hid' ▸ hlt)
  refine ⟨row, hrow, hid.trans hid', hrequest.trans hrequest', hjson.trans hjson',
    fun hterminal => ?_⟩
  obtain rfl := hsame hterminal
  exact hsame' hterminal

/-- Rows that were there before. -/
theorem Evolves.of_subset (hruns : ∀ row ∈ db'.runs, row ∈ db.runs)
    (hnext : db'.nextRun = db.nextRun) : Evolves db db' :=
  ⟨hnext.ge, fun row hrow _ => ⟨row, hruns row hrow, rfl, rfl, rfl, fun _ => rfl⟩⟩

/-- An update of rows that are not committed. -/
theorem Evolves.of_update {p : ScanRunRow → Bool} {f : ScanRunRow → ScanRunRow}
    (hruns : db'.runs = updateWhere p f db.runs) (hnext : db'.nextRun = db.nextRun)
    (hp : ∀ row, p row = true → row.status.isTerminal = false)
    (hf : ∀ row, (f row).scanRunId = row.scanRunId ∧ (f row).requestId = row.requestId ∧
      (f row).canonicalRequestJson = row.canonicalRequestJson) :
    Evolves db db' := by
  refine ⟨hnext.ge, fun row' hrow' _ => ?_⟩
  rw [hruns] at hrow'
  rcases mem_updateWhere.1 hrow' with ⟨hrow', -⟩ | ⟨row, hrow, hmatch, rfl⟩
  · exact ⟨row', hrow', rfl, rfl, rfl, fun _ => rfl⟩
  · obtain ⟨hid, hrequest, hjson⟩ := hf row
    refine ⟨row, hrow, hid.symm, hrequest.symm, hjson.symm, fun hterminal => ?_⟩
    rw [hp row hmatch] at hterminal
    cases hterminal

theorem ownRun_not_terminal {row : ScanRunRow} (h : ownRun active row = true) :
    row.status.isTerminal = false := by
  rw [(ownRun_eq_true.1 h).2.2]
  rfl

theorem Prunes.evolves (h : Prunes db db') : Evolves db db' := by
  induction h with
  | refl => exact .of_subset (fun _ hrow => hrow) rfl
  | runs victims _ _ ih =>
    exact ih.trans (.of_subset (fun _ hrow => (Db.mem_deleteRuns_runs.1 hrow).1) rfl)
  | artifacts victims _ _ ih => exact ih.trans (.of_subset (fun _ hrow => hrow) rfl)

theorem SameRuns.evolves (h : SameRuns db db') : Evolves db db' :=
  .of_subset (fun _ hrow => h.runs ▸ hrow) h.nextRun

theorem heartbeat_evolves (h : heartbeatInTransaction db active now = .ok db') : Evolves db db' := by
  obtain ⟨lease, -, -, -, rfl⟩ := heartbeatInTransaction_ok h
  exact .of_update (f := fun row => { row with updatedAtMs := now }) rfl rfl
    (fun _ => ownRun_not_terminal) fun _ => ⟨rfl, rfl, rfl⟩

theorem releaseLease_evolves {existing : Option ScanRunRow}
    (h : releaseLease db existing now = .ok db') : Evolves db db' := by
  rcases releaseLease_ok h with ⟨-, -, rfl⟩ | ⟨lease, -, -, rfl⟩
  · exact .of_subset (fun _ hrow => hrow) rfl
  · refine .of_update (f := ScanRunRow.abandon now) rfl rfl (fun row hrow => ?_) fun _ => ⟨rfl, rfl, rfl⟩
    simp only [runningRun, Bool.and_eq_true, decide_eq_true_eq] at hrow
    rw [hrow.2]
    rfl

theorem startRun_evolves {existing : Option ScanRunRow} {requestId ownerId : Text}
    {canonical : CanonicalRequest} {scanRunId : ℕ}
    (h : startRun db existing requestId canonical ownerId now = .ok (db', scanRunId)) :
    Evolves db db' := by
  rcases startRun_ok h with ⟨-, -, rfl⟩ | ⟨run, -, -, -, rfl⟩
  · refine ⟨Nat.le_succ _, fun row' hrow' hlt => ?_⟩
    rcases List.mem_append.1 hrow' with hrow' | hrow'
    · exact ⟨row', hrow', rfl, rfl, rfl, fun _ => rfl⟩
    · obtain rfl : row' = newRun db.nextRun requestId canonical ownerId now := by simpa using hrow'
      exact absurd hlt (lt_irrefl _)
  · refine .of_update (f := ScanRunRow.restart ownerId now) rfl rfl (fun row hrow => ?_) fun _ => ⟨rfl, rfl, rfl⟩
    simp only [abandonedRun, Bool.and_eq_true, decide_eq_true_eq] at hrow
    rw [hrow.2]
    rfl

theorem abandonActiveRun_evolves {nowMs : ℕ} (h : abandonActiveRun db active nowMs = .ok db') :
    Evolves db db' := by
  obtain ⟨lease, -, -, -, rfl⟩ := abandonActiveRun_ok h
  exact .of_update (f := ScanRunRow.abandon nowMs) rfl rfl (fun _ => ownRun_not_terminal) fun _ => ⟨rfl, rfl, rfl⟩

section Runs

variable [Sha256]

theorem beginRun_evolves {requestId storePath ownerId : Text} {canonical : CanonicalRequest}
    {runtime : AttemptRuntime} {nowMs : ℕ} {outcome : BeginRunOutcome}
    (h : beginRun db requestId canonical runtime storePath ownerId nowMs = .ok (db', outcome)) :
    Evolves db db' := by
  rcases beginRun_ok h with ⟨rfl, -⟩ | ⟨hstart, -⟩
  · exact .of_subset (fun _ hrow => hrow) rfl
  · obtain ⟨released, started, active, hreleased, hstarted, -, -, -, rfl⟩ := startAttempt_ok hstart
    have hleased := startRun_evolves hstarted
    exact (releaseLease_evolves hreleased).trans ⟨hleased.nextRun_le, hleased.kept⟩

theorem commitFinalization_evolves {p : PreparedFinalization}
    (h : commitFinalization db p = .ok db') : Evolves db db' := by
  obtain ⟨beaten, stored, finished, pruned, hbeaten, hstored, hfinished, hpruned, rfl⟩ :=
    commitFinalization_ok h
  obtain ⟨mid, hmid, hsame⟩ := storeContext_prunes hstored
  obtain ⟨-, -, rfl⟩ := finishRows_ok hfinished
  have hstart : Evolves db stored := (heartbeat_evolves hbeaten).trans (hmid.evolves.trans hsame.evolves)
  have hfinish : Evolves stored { stored with
      runs := updateWhere (ownRun p.active)
        (ScanRunRow.finish p.batch.status p.now p.metadataJson p.batch.auditSizeBytes) stored.runs
      attempts := updateWhere (ownAttempt p.active) (AttemptRow.finish p.batch.status p.now)
        stored.attempts } :=
    .of_update rfl rfl (fun _ => ownRun_not_terminal) fun _ => ⟨rfl, rfl, rfl⟩
  have hend := (applyTerminalRetentionPlan_prunes hpruned).evolves
  exact hstart.trans (hfinish.trans ⟨hend.nextRun_le, hend.kept⟩)

/-- An event changes no committed run but by deleting it. -/
theorem step_evolves {s s' : System} {e : Event} (h : step s e = .ok s') : Evolves s.db s'.db := by
  cases e with
  | beginRun requestId canonical runtime storePath ownerId nowMs =>
    simp only [step, bind_eq_ok] at h
    obtain ⟨⟨db, outcome⟩, hbegin, h⟩ := h
    cases h
    exact beginRun_evolves hbegin
  | heartbeat handle nowMs =>
    simp only [step, bind_eq_ok] at h
    obtain ⟨active, -, db, hbeat, h⟩ := h
    cases h
    exact heartbeat_evolves (heartbeat_ok hbeat)
  | recordWorkerFingerprints handle office pdf nowMs =>
    simp only [step, bind_eq_ok] at h
    obtain ⟨active, -, db, hrecord, h⟩ := h
    cases h
    have hbeat := heartbeat_evolves (recordWorkerFingerprints_ok hrecord)
    exact ⟨hbeat.nextRun_le, hbeat.kept⟩
  | abandon handle nowMs =>
    simp only [step, bind_eq_ok] at h
    obtain ⟨active, -, db, habandon, h⟩ := h
    cases h
    exact abandonActiveRun_evolves habandon
  | prepare handle batch nowMs =>
    simp only [step, bind_eq_ok] at h
    obtain ⟨active, -, prepared, -, h⟩ := h
    cases h
    exact .of_subset (fun _ hrow => hrow) rfl
  | commit handle =>
    simp only [step, bind_eq_ok] at h
    obtain ⟨prepared, -, db, hcommit, h⟩ := h
    cases h
    exact commitFinalization_evolves hcommit
  | gc nowMs artifactsStatement runsStatement =>
    simp only [step, bind_eq_ok] at h
    obtain ⟨db, hgc, h⟩ := h
    cases h
    exact (runOpportunisticGc_prunes hgc).evolves

/-- What is committed at some point of a run stays as it is, or is deleted. -/
theorem evolves_applyAll (s : System) (more : List Event) :
    Evolves s.db (applyAll step s more).db :=
  applyAll_invariant (I := fun s' => Evolves s.db s'.db) (fun _ _ _ h hok => h.trans (step_evolves hok))
    more (.of_subset (fun _ hrow => hrow) rfl)

/-! ### Owners of the lease -/

section Owners

omit [Sha256]

variable {ownerId : Text}

theorem heartbeat_owned (h : heartbeatInTransaction db active now = .ok db') :
    leaseOwned db active.ownerId = true := by
  obtain ⟨lease, howns, -⟩ := heartbeatInTransaction_ok h
  exact leaseOwned_eq_true.2 ⟨lease, howns.held, howns.owner⟩

theorem heartbeat_lease (h : heartbeatInTransaction db active now = .ok db') :
    leaseOwned db' ownerId = leaseOwned db ownerId := by
  obtain ⟨lease, howns, -, -, rfl⟩ := heartbeatInTransaction_ok h
  simp [leaseOwned, howns.held]

theorem leaseOwned_of_eq (h : db'.lease = db.lease) : leaseOwned db' ownerId = leaseOwned db ownerId := by
  simp [leaseOwned, h]

theorem leaseOwned_of_none (h : db.lease = none) : leaseOwned db ownerId = false := by
  simp [leaseOwned, h]

theorem startRun_lease {existing : Option ScanRunRow} {requestId : Text}
    {canonical : CanonicalRequest} {scanRunId : ℕ}
    (h : startRun db existing requestId canonical ownerId now = .ok (db', scanRunId)) :
    db'.lease = db.lease := by
  rcases startRun_ok h with ⟨-, -, rfl⟩ | ⟨run, -, -, -, rfl⟩ <;> rfl

end Owners

/-- Who begins a run gets the lease; who is answered with a stored envelope does not. -/
theorem beginRun_lease {requestId storePath ownerId : Text} {canonical : CanonicalRequest}
    {runtime : AttemptRuntime} {nowMs : ℕ} {outcome : BeginRunOutcome}
    (h : beginRun db requestId canonical runtime storePath ownerId nowMs = .ok (db', outcome)) :
    (db' = db ∧ outcome.active = []) ∨
      ∃ lease, db'.lease = some lease ∧ lease.ownerId = ownerId := by
  rcases beginRun_ok h with ⟨rfl, stored, rfl⟩ | ⟨hstart, -⟩
  · exact .inl ⟨rfl, rfl⟩
  · obtain ⟨released, started, active, -, hstarted, -, -, -, rfl⟩ := startAttempt_ok hstart
    exact .inr ⟨_, startRun_lease hstarted, rfl⟩

theorem commitFinalization_lease {p : PreparedFinalization}
    (h : commitFinalization db p = .ok db') :
    leaseOwned db p.active.ownerId = true ∧ db'.lease = none := by
  obtain ⟨beaten, -, -, -, hbeaten, -, -, -, rfl⟩ := commitFinalization_ok h
  exact ⟨heartbeat_owned hbeaten, rfl⟩

/-- An owner that holds the lease after an event held it before, or has begun a run now. -/
theorem step_leaseOwned {s s' : System} {e : Event} {ownerId : Text} (h : step s e = .ok s')
    (howned : leaseOwned s'.db ownerId = true) :
    leaseOwned s.db ownerId = true ∨ e.owner? = some ownerId := by
  cases e with
  | beginRun requestId canonical runtime storePath newOwner nowMs =>
    simp only [step, bind_eq_ok] at h
    obtain ⟨⟨db, outcome⟩, hbegin, h⟩ := h
    cases h
    rcases beginRun_lease hbegin with ⟨rfl, -⟩ | ⟨lease, hlease, hnew⟩
    · exact .inl howned
    · obtain ⟨held, hheld, howner⟩ := leaseOwned_eq_true.1 howned
      obtain rfl : held = lease := Option.some.inj (hheld.symm.trans hlease)
      exact .inr (congrArg some (hnew.symm.trans howner))
  | heartbeat handle nowMs =>
    simp only [step, bind_eq_ok] at h
    obtain ⟨active, -, db, hbeat, h⟩ := h
    cases h
    exact .inl (heartbeat_lease (heartbeat_ok hbeat) ▸ howned)
  | recordWorkerFingerprints handle office pdf nowMs =>
    simp only [step, bind_eq_ok] at h
    obtain ⟨active, -, db, hrecord, h⟩ := h
    cases h
    exact .inl (heartbeat_lease (recordWorkerFingerprints_ok hrecord) ▸ howned)
  | abandon handle nowMs =>
    simp only [step, bind_eq_ok] at h
    obtain ⟨active, -, db, habandon, h⟩ := h
    cases h
    obtain ⟨lease, -, -, -, rfl⟩ := abandonActiveRun_ok habandon
    simp [leaseOwned] at howned
  | prepare handle batch nowMs =>
    simp only [step, bind_eq_ok] at h
    obtain ⟨active, -, prepared, -, h⟩ := h
    cases h
    exact .inl howned
  | commit handle =>
    simp only [step, bind_eq_ok] at h
    obtain ⟨prepared, -, db, hcommit, h⟩ := h
    cases h
    rw [leaseOwned_of_none (commitFinalization_lease hcommit).2] at howned
    cases howned
  | gc nowMs artifactsStatement runsStatement =>
    simp only [step, bind_eq_ok] at h
    obtain ⟨db, hgc, h⟩ := h
    cases h
    exact .inl (leaseOwned_of_eq (runOpportunisticGc_prunes hgc).lease_eq ▸ howned)

/-- The event is an operation on a run that the owner began: a heartbeat, a record of workers, an
end of the run, or the terminal transaction.  (A preparation only reads.) -/
def Event.ActsFor (s : System) (ownerId : Text) : Event → Prop
  | .heartbeat handle _ | .recordWorkerFingerprints handle _ _ _ | .abandon handle _ =>
    ∃ active, s.actives[handle]? = some active ∧ active.ownerId = ownerId
  | .commit handle => ∃ p, s.prepared[handle]? = some p ∧ p.active.ownerId = ownerId
  | .beginRun _ _ _ _ _ _ | .prepare _ _ _ | .gc _ _ _ => False

/-- An operation of an owner succeeds only while the owner holds the lease. -/
theorem step_actsFor {s s' : System} {e : Event} {ownerId : Text} (hacts : e.ActsFor s ownerId)
    (h : step s e = .ok s') : leaseOwned s.db ownerId = true := by
  cases e with
  | heartbeat handle nowMs =>
    obtain ⟨active, hactive, rfl⟩ := hacts
    simp only [step, bind_eq_ok, held_eq_ok] at h
    obtain ⟨other, hother, db, hbeat, -⟩ := h
    obtain rfl : active = other := Option.some.inj (hactive.symm.trans hother)
    exact heartbeat_owned (heartbeat_ok hbeat)
  | recordWorkerFingerprints handle office pdf nowMs =>
    obtain ⟨active, hactive, rfl⟩ := hacts
    simp only [step, bind_eq_ok, held_eq_ok] at h
    obtain ⟨other, hother, db, hrecord, -⟩ := h
    obtain rfl : active = other := Option.some.inj (hactive.symm.trans hother)
    have howned := heartbeat_owned (recordWorkerFingerprints_ok hrecord)
    exact howned
  | abandon handle nowMs =>
    obtain ⟨active, hactive, rfl⟩ := hacts
    simp only [step, bind_eq_ok, held_eq_ok] at h
    obtain ⟨other, hother, db, habandon, -⟩ := h
    obtain rfl : active = other := Option.some.inj (hactive.symm.trans hother)
    obtain ⟨lease, howns, -⟩ := abandonActiveRun_ok habandon
    exact leaseOwned_eq_true.2 ⟨lease, howns.held, howns.owner⟩
  | commit handle =>
    obtain ⟨p, hp, rfl⟩ := hacts
    simp only [step, bind_eq_ok, held_eq_ok] at h
    obtain ⟨other, hother, db, hcommit, -⟩ := h
    obtain rfl : p = other := Option.some.inj (hp.symm.trans hother)
    exact (commitFinalization_lease hcommit).1
  | beginRun | prepare | gc => exact hacts.elim

/-- The event begins a run, and takes the lease from an owner that still held it. -/
def Event.Reclaims (s : System) (ownerId : Text) (e : Event) : Prop :=
  leaseOwned s.db ownerId = true ∧
    ∃ requestId canonical runtime storePath newOwner nowMs db active,
      e = .beginRun requestId canonical runtime storePath newOwner nowMs ∧
        Store.beginRun s.db requestId canonical runtime storePath newOwner nowMs =
          .ok (db, .started active)

/-- Only owners that have begun a run hold the lease. -/
theorem leaseOwned_history (events : List Event) {ownerId : Text}
    (howned : leaseOwned (runEvents events).db ownerId = true) :
    ownerId ∈ events.filterMap Event.owner? := by
  refine applyAll_invariant_history
    (I := fun done (s : System) => leaseOwned s.db ownerId = true → ownerId ∈ done.filterMap Event.owner?)
    (fun h => by cases h) (fun done e s _ h howned => ?_) howned
  rw [List.filterMap_append, List.mem_append]
  cases hs : step s e with
  | error x =>
    rw [applyEvent_of_error hs] at howned
    exact .inl (h howned)
  | ok s' =>
    rw [applyEvent_of_ok hs] at howned
    rcases step_leaseOwned hs howned with hbefore | hnew
    · exact .inl (h hbefore)
    · exact .inr (List.mem_filterMap.2 ⟨e, by simp, hnew⟩)

/-- An owner that does not begin a run gets no lease. -/
theorem not_leaseOwned_applyAll {s : System} {ownerId : Text} (h : leaseOwned s.db ownerId = false) :
    ∀ more : List Event, ownerId ∉ more.filterMap Event.owner? →
      leaseOwned (applyAll step s more).db ownerId = false := by
  intro more
  induction more generalizing s with
  | nil => exact fun _ => h
  | cons e more ih =>
    intro hmore
    rw [applyAll_cons]
    have hne : e.owner? ≠ some ownerId := fun he =>
      hmore (List.mem_filterMap.2 ⟨e, List.mem_cons_self, he⟩)
    have hrest : ownerId ∉ more.filterMap Event.owner? := fun hmem => by
      obtain ⟨e', he', howner⟩ := List.mem_filterMap.1 hmem
      exact hmore (List.mem_filterMap.2 ⟨e', List.mem_cons_of_mem _ he', howner⟩)
    refine ih (applyEvent_keeps (I := fun s : System => leaseOwned s.db ownerId = false) h fun s' hs => ?_) hrest
    by_contra howned
    rcases step_leaseOwned hs (Bool.of_not_eq_false howned) with hbefore | hnew
    · rw [h] at hbefore; cases hbefore
    · exact hne hnew

/-- Once the lease of an owner was reclaimed, the owner never holds it again: the owners that
processes draw are distinct. -/
theorem not_leaseOwned_of_reclaims {events more : List Event} {e : Event} {ownerId : Text}
    (howners : ((events ++ e :: more).filterMap Event.owner?).Nodup)
    (hreclaims : e.Reclaims (runEvents events) ownerId) :
    leaseOwned (runEvents (events ++ e :: more)).db ownerId = false := by
  obtain ⟨howned, requestId, canonical, runtime, storePath, newOwner, nowMs, db, active, rfl, hbegin⟩ :=
    hreclaims
  rw [List.filterMap_append, List.nodup_append] at howners
  have hfresh : ownerId ∉
      newOwner :: more.filterMap Event.owner? := fun hmem =>
    howners.2.2 ownerId (leaseOwned_history events howned) ownerId hmem rfl
  rw [List.mem_cons, not_or] at hfresh
  rw [runEvents, applyAll_append, applyAll_cons]
  refine not_leaseOwned_applyAll ?_ more hfresh.2
  have hstep : step (runEvents events)
      (.beginRun requestId canonical runtime storePath newOwner nowMs) =
        .ok { runEvents events with db, actives := (runEvents events).actives ++ [active] } := by
    simp only [step, hbegin]
    rfl
  rw [← runEvents, applyEvent_of_ok hstep]
  by_contra hafter
  obtain ⟨lease, hlease, hleaseOwner⟩ := leaseOwned_eq_true.1 (Bool.of_not_eq_false hafter)
  rcases beginRun_lease hbegin with ⟨-, hnone⟩ | ⟨new, hnew, hnewOwner⟩
  · cases hnone
  · obtain rfl : lease = new := Option.some.inj (hlease.symm.trans hnew)
    exact hfresh.1 (hleaseOwner.symm.trans hnewOwner)

/-! ### The state machine -/

/-- **The run and lease state machine.**  After every run of the system: nothing is running and
nobody holds the lease, or one run is running in one attempt and its owner holds the lease; whatever
happens later, a committed run that is still stored is unchanged; and once an event has reclaimed the
lease of an owner, every later operation of that owner is refused. -/
theorem run_lease_machine (events : List Event) :
    Exclusive (runEvents events).db ∧
    (∀ more : List Event, ∀ row ∈ (runEvents events).db.runs, row.status.isTerminal = true →
      ∀ row' ∈ (runEvents (events ++ more)).db.runs, row'.scanRunId = row.scanRunId → row' = row) ∧
    ∀ (e : Event) (more : List Event) (ownerId : Text),
      ((events ++ e :: more).filterMap Event.owner?).Nodup → e.Reclaims (runEvents events) ownerId →
        ∀ later : Event, later.ActsFor (runEvents (events ++ e :: more)) ownerId →
          ∃ error, step (runEvents (events ++ e :: more)) later = .error error := by
  have hinv := (systemInv_runEvents events).runs
  refine ⟨hinv.exclusive, fun more row hrow hterminal row' hrow' hid => ?_,
    fun e more ownerId howners hreclaims later hacts => ?_⟩
  · have hevolves := evolves_applyAll (runEvents events) more
    rw [runEvents, applyAll_append] at hrow'
    obtain ⟨old, hold, holdId, -, -, hsame⟩ := hevolves.kept row' hrow' (hid ▸ hinv.ids_lt row hrow)
    obtain rfl : old = row := hinv.eq_of_id hold hrow (holdId.trans hid)
    exact hsame hterminal
  · have hgone := not_leaseOwned_of_reclaims howners hreclaims
    cases hs : step (runEvents (events ++ e :: more)) later with
    | error error => exact ⟨error, rfl⟩
    | ok s' => rw [step_actsFor hacts hs] at hgone; cases hgone

end Runs

section Reclaimed

/-- The digest of the request of the run below. -/
def emptyRequestDigest : Text :=
  lit "2e19620b6f0a9c5eb3cba47942e072b66fd4091134b05cdfb900bee2da3677a1"

local instance : Sha256 where
  hex text :=
    if text = lit "request-v1" ++ [Char.ofNat 0] ++ lit "{}" then emptyRequestDigest else []

def emptyRequest : CanonicalRequest where
  requestId := lit "req-1"
  json := lit "{}"
  hashAlgorithm := requestHashAlgorithm
  hash := emptyRequestDigest

def workerRuntime : AttemptRuntime where
  normalizedScanDbPath := lit "C:\\data\\scan.db"
  normalizedOfficeWorkerPath := lit "C:\\bin\\office.exe"
  normalizedPdfWorkerPath := lit "C:\\bin\\pdf.exe"
  engineFingerprint := lit "{}"

def beginBy (owner : String) (nowMs : ℕ) : Event :=
  .beginRun (lit "req-1") emptyRequest workerRuntime (lit "C:\\data\\scan.db") (lit owner) nowMs

/-- The second owner begins the request when the lease of the first has just expired. -/
theorem run_lease_machine_reclaimed :
    Exclusive (runEvents [beginBy "owner-a" 0]).db ∧
      ∃ error, step (runEvents [beginBy "owner-a" 0, beginBy "owner-b" 20000])
        (.heartbeat 0 20001) = .error error := by
  have hmachine := run_lease_machine [beginBy "owner-a" 0]
  have hstarted : (beginRun (runEvents [beginBy "owner-a" 0]).db (lit "req-1") emptyRequest
      workerRuntime (lit "C:\\data\\scan.db") (lit "owner-b") 20000).map Prod.snd =
        .ok (.started ⟨1, 2, lit "owner-b", lit "req-1"⟩) := by decide +kernel
  obtain ⟨⟨db, outcome⟩, hbegin, rfl⟩ := map_eq_ok.1 hstarted
  have hreclaims : (beginBy "owner-b" 20000).Reclaims (runEvents [beginBy "owner-a" 0])
      (lit "owner-a") :=
    ⟨by decide +kernel, _, _, _, _, _, _, db, _, rfl, hbegin⟩
  exact ⟨hmachine.1, hmachine.2.2 _ [] _ (by decide +kernel) hreclaims _
    ⟨⟨1, 1, lit "owner-a", lit "req-1"⟩, by decide +kernel, rfl⟩⟩

end Reclaimed

end DailyReport.Store
