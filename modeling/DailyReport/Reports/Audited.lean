import DailyReport.Reports.Laws

/-!
# The calls of the runner are audited

`CoreInv` links the table of calls with the history and the snapshot files; `StageInv` says what the
running execution knows.  Every event keeps both (`ModelInv.step`).
-/

namespace DailyReport.Reports

open Lib ModelRules

section Audited

variable [Sha256] [ModelRules]

/-! ### What a call is documented by -/

/-- The reference is to a file with the digest of the text. -/
def Stored (snapshots : Snapshots) (reference : SnapshotRef) (t : Text) : Prop :=
  ∃ found, snapshots.readBytes reference = .ok found ∧ Sha256.hex found = Sha256.hex t

/-- The call was made for the run, with a step that is a revision of the root. -/
structure Documented (s : ModelSystem) (call : ModelCallRow) (run : RunRecord) (root step : Plan) :
    Prop where
  found : s.db.findRun call.runId = some run
  generationId : call.generationId = run.generationId
  named : call.logicalStep = logicalStep step
  fingerprint : call.requestFingerprint = requestIdentity run step
  request : ∃ reference, call.request = some reference ∧ Stored s.snapshots reference (bytes step)
  audit : ∃ revision, call.audit = some (auditJson root step revision) ∧
    Stored s.snapshots revision (text step)
  samePlan : identity step = identity root
  hashed : ∀ t ∈ [text root, text step, bytes step, identityText run step], t ∈ s.hashed

/-- The response of the call says the output. -/
def Answered (s : ModelSystem) (call : ModelCallRow) (root : Plan) (output : Output) : Prop :=
  ∃ run step response body, Documented s call run root step ∧ call.response = some response ∧
    Stored s.snapshots response body ∧ body ∈ s.hashed ∧ validateResponse step body = .ok output

/-- The stores only grow. -/
structure Extends (s s' : ModelSystem) : Prop where
  runs : RunsKept s.db.runs s'.db.runs
  snapshots : s.snapshots.Grows s'.snapshots
  hashed : ∀ t ∈ s.hashed, t ∈ s'.hashed

/-- What stays of a call once it is reserved. -/
structure SameCall (call call' : ModelCallRow) : Prop where
  reservation : call'.reservation = call.reservation
  request : call'.request = call.request
  audit : call'.audit = call.audit

variable {s s' : ModelSystem} {call call' : ModelCallRow} {run : RunRecord} {root step : Plan}
  {output : Output}

omit [Sha256] [ModelRules] in
theorem SameCall.refl (call : ModelCallRow) : SameCall call call := ⟨rfl, rfl, rfl⟩

omit [ModelRules] in
theorem Stored.grows {snapshots snapshots' : Snapshots} {reference : SnapshotRef} {t : Text}
    (h : Stored snapshots reference t) (hgrows : snapshots.Grows snapshots') :
    Stored snapshots' reference t := by
  obtain ⟨found, hfound, hhash⟩ := h
  exact ⟨found, hgrows.readBytes hfound, hhash⟩

/-- The identity of a request is the same for the run's later rows. -/
theorem identityText_sameWork {run' : RunRecord} (h : run.SameWork run') (step : Plan) :
    identityText run' step = identityText run step := by
  unfold identityText
  rw [h.configFingerprint, h.generationId]

theorem Documented.extend (h : Documented s call run root step) (hext : Extends s s')
    (hsame : SameCall call call') : ∃ run', run.SameWork run' ∧ Documented s' call' run' root step := by
  obtain ⟨run', hrun', hwork⟩ := hext.runs _ _ h.found
  obtain ⟨reference, hrequest, hstored⟩ := h.request
  obtain ⟨revision, haudit, hrevision⟩ := h.audit
  have hreservation := hsame.reservation
  unfold ModelCallRow.reservation at hreservation
  obtain ⟨-, hid, hgeneration, hfingerprint, hstep, -⟩ := Reservation.mk.inj hreservation
  refine ⟨run', hwork, ?_, ?_, ?_, ?_, ⟨reference, ?_, hstored.grows hext.snapshots⟩,
    ⟨revision, ?_, hrevision.grows hext.snapshots⟩, h.samePlan, ?_⟩
  · rw [hid]
    exact hrun'
  · rw [hgeneration, h.generationId, hwork.generationId]
  · rw [hstep, h.named]
  · unfold requestIdentity
    rw [hfingerprint, h.fingerprint, identityText_sameWork hwork]
    rfl
  · rw [hsame.request, hrequest]
  · rw [hsame.audit, haudit]
  · rw [identityText_sameWork hwork]
    exact fun t ht => hext.hashed t (h.hashed t ht)

theorem Documented.mark (h : Documented s call run root step) :
    call.audit.map auditedRoot = some (rootMark root) := by
  obtain ⟨revision, haudit, -⟩ := h.audit
  rw [haudit, Option.map_some, auditedRoot_auditJson]

theorem Answered.extend (h : Answered s call root output) (hext : Extends s s')
    (hsame : SameCall call call') (hresponse : call'.response = call.response) :
    Answered s' call' root output := by
  obtain ⟨run, step, response, body, hdocumented, hfile, hstored, hbody, hvalid⟩ := h
  obtain ⟨run', -, hdocumented'⟩ := hdocumented.extend hext hsame
  exact ⟨run', step, response, body, hdocumented', hresponse.trans hfile,
    hstored.grows hext.snapshots, hext.hashed _ hbody, hvalid⟩

/-! ### The invariant -/

/-- The table of calls, the history and the files agree. -/
structure CoreInv (s : ModelSystem) : Prop where
  numbered : Numbered s.db
  rows : s.db.calls.map ModelCallRow.reservation = reservations s.history
  documented : ∀ call ∈ s.db.calls, ∃ run root step, Documented s call run root step
  files : ∀ path bytes, s.snapshots.files.lookup path = some bytes → bytes ∈ s.hashed
  sent : ∀ r limit, Entry.sent r limit ∈ s.history → r.callId < s.db.nextCall
  sends : ∀ generationId logicalStep, (sendsOf generationId logicalStep s.history).length ≤
    attemptsOf s.db generationId logicalStep
  recorded : ∀ r root llm output, Entry.recorded r root llm output ∈ s.history → ∃ call ∈ s.db.calls,
    call.reservation = r ∧ call.status = .succeeded ∧ Answered s call root output
  succeeded : ∀ call ∈ s.db.calls, call.status = .succeeded →
    ∃ root llm output, Entry.recorded call.reservation root llm output ∈ s.history
  unique : ∀ call ∈ s.db.calls, ∀ other ∈ s.db.calls, call.status = .succeeded →
    other.status = .succeeded → call.generationId = other.generationId →
      call.requestFingerprint = other.requestFingerprint → call = other
  lawful : EachAfter CallLaw s.history

/-- The execution runs for a run of the store, and the calls of its step have its root. -/
structure ExecutionInv (s : ModelSystem) (x : Execution) : Prop where
  found : ∃ run, s.db.findRun x.run.runId = some run ∧ x.run.SameWork run
  valid : validateIdentity x.root x.llm = .ok ()
  samePlan : identity x.step = identity x.root
  hashed : text x.root ∈ s.hashed ∧ text x.step ∈ s.hashed
  roots : ∀ call ∈ s.db.calls, call.generationId = x.run.generationId →
    call.logicalStep = logicalStep x.root → call.audit.map auditedRoot = some (rootMark x.root)

/-- The call of the execution waits for its reply. -/
structure PendingInv (s : ModelSystem) (x : Execution) (r : Reservation) : Prop where
  row : ∃ call ∈ s.db.calls, call.reservation = r ∧ call.status = .reserved ∧
    ∃ run, x.run.SameWork run ∧ Documented s call run x.root x.step
  columns : r.runId = x.run.runId ∧ r.generationId = x.run.generationId ∧
    r.requestFingerprint = requestIdentity x.run x.step ∧ r.logicalStep = logicalStep x.step
  unanswered : ∀ call ∈ s.db.calls, call.generationId = r.generationId →
    call.requestFingerprint = r.requestFingerprint → call.status ≠ .succeeded
  reserved : Entry.reserved r ∈ s.history

/-- The request of the execution is not yet sent. -/
structure UnsentInv (s : ModelSystem) (x : Execution) (r : Reservation) : Prop where
  attempt : r.attempt ≤ maxRetries x.llm ∧ maxRetries x.llm ≤ 3
  sends : (sendsOf r.generationId r.logicalStep s.history).length < r.attempt
  fresh : ∀ r' limit, Entry.sent r' limit ∈ s.history → r'.callId ≠ r.callId
  count : r.attempt = attemptsOf s.db r.generationId r.logicalStep

def StageInv (s : ModelSystem) : Prop :=
  match s.stage with
  | .idle => True
  | .looking x => ExecutionInv s x
  | .reserved x r => ExecutionInv s x ∧ PendingInv s x r ∧ UnsentInv s x r
  | .sent x r => ExecutionInv s x ∧ PendingInv s x r ∧ ∃ limit, Entry.sent r limit ∈ s.history

structure ModelInv (s : ModelSystem) : Prop where
  core : CoreInv s
  stage : StageInv s

/-! ### Histories -/

omit [Sha256] in
@[simp] theorem reservations_append (history : List Entry) (entry : Entry) :
    reservations (history ++ [entry]) = reservations history ++ entry.reservation?.toList := by
  unfold reservations
  rw [List.filterMap_append]
  cases hentry : entry.reservation? <;> simp [hentry]

omit [Sha256] in
@[simp] theorem sendsOf_append (generationId logicalStep : Text) (history : List Entry)
    (entry : Entry) : sendsOf generationId logicalStep (history ++ [entry]) =
      sendsOf generationId logicalStep history ++ (entry.sending? generationId logicalStep).toList := by
  unfold sendsOf
  rw [List.filterMap_append]
  cases hentry : entry.sending? generationId logicalStep <;> simp [hentry]

/-! ### Changes that add no call -/

/-- The calls are the same ones. -/
def SameCalls (db db' : Db) : Prop :=
  ∃ f : ModelCallRow → ModelCallRow, db'.calls = db.calls.map f ∧ ∀ call ∈ db.calls, SameCall call (f call)

omit [Sha256] [ModelRules] in
theorem SameCalls.of_eq {db db' : Db} (h : db'.calls = db.calls) : SameCalls db db' :=
  ⟨id, by rw [h, List.map_id], fun call _ => .refl call⟩

omit [Sha256] [ModelRules] in
theorem SameCalls.reservations {db db' : Db} (h : SameCalls db db') :
    db'.calls.map ModelCallRow.reservation = db.calls.map ModelCallRow.reservation := by
  obtain ⟨f, hcalls, hsame⟩ := h
  rw [hcalls, List.map_map]
  exact List.map_congr_left fun call hcall => (hsame call hcall).reservation

omit [Sha256] [ModelRules] in
theorem attemptsOf_eq (db : Db) (generationId logicalStep : Text) :
    attemptsOf db generationId logicalStep =
      ((db.calls.map ModelCallRow.reservation).filter (·.isOf generationId logicalStep)).length := by
  rw [← List.countP_eq_length_filter, List.countP_map]
  rfl

omit [Sha256] [ModelRules] in
theorem SameCalls.attemptsOf_eq {db db' : Db} (h : SameCalls db db') (generationId logicalStep : Text) :
    attemptsOf db' generationId logicalStep = attemptsOf db generationId logicalStep := by
  rw [Reports.attemptsOf_eq, Reports.attemptsOf_eq, h.reservations]

omit [Sha256] [ModelRules] in
theorem Numbered.of_same {db db' : Db} (h : Numbered db) (hsame : SameCalls db db')
    (hnext : db'.nextCall = db.nextCall) : Numbered db' := by
  have hids : ∀ rows : List ModelCallRow,
      rows.map ModelCallRow.callId = (rows.map ModelCallRow.reservation).map Reservation.callId := by
    intro rows
    rw [List.map_map]
    rfl
  have heq : db'.calls.map ModelCallRow.callId = db.calls.map ModelCallRow.callId := by
    rw [hids, hids, hsame.reservations]
  constructor
  · rw [← List.pairwise_map (f := ModelCallRow.callId) (R := (· < ·)), heq, List.pairwise_map]
    exact h.1
  · intro call hcall
    have hmem : call.callId ∈ db'.calls.map ModelCallRow.callId := List.mem_map_of_mem hcall
    rw [heq] at hmem
    obtain ⟨old, hold, hid⟩ := List.mem_map.1 hmem
    rw [← hid, hnext]
    exact h.2 old hold

/-- What changes neither the history nor which calls succeeded. -/
structure Settled (s s' : ModelSystem) : Prop where
  extend : Extends s s'
  calls : ∃ f : ModelCallRow → ModelCallRow, s'.db.calls = s.db.calls.map f ∧
    ∀ call ∈ s.db.calls, SameCall call (f call) ∧
      ((f call).status = .succeeded ↔ call.status = .succeeded) ∧
        (call.status = .succeeded → (f call).response = call.response)
  nextCall : s'.db.nextCall = s.db.nextCall
  files : (∀ path bytes, s.snapshots.files.lookup path = some bytes → bytes ∈ s.hashed) →
    ∀ path bytes, s'.snapshots.files.lookup path = some bytes → bytes ∈ s'.hashed

omit [Sha256] in
theorem Settled.same (h : Settled s s') : SameCalls s.db s'.db := by
  obtain ⟨f, hcalls, hsame⟩ := h.calls
  exact ⟨f, hcalls, fun call hcall => (hsame call hcall).1⟩

theorem CoreInv.settle (h : CoreInv s) (hsettled : Settled s s') (hhistory : s'.history = s.history) :
    CoreInv s' := by
  obtain ⟨f, hcalls, hf⟩ := hsettled.calls
  have hmem : ∀ {call'}, call' ∈ s'.db.calls → ∃ call ∈ s.db.calls, f call = call' := by
    intro call' hcall'
    rw [hcalls] at hcall'
    exact List.mem_map.1 hcall'
  refine ⟨h.numbered.of_same hsettled.same hsettled.nextCall, ?_, ?_, hsettled.files h.files, ?_, ?_, ?_,
    ?_, ?_, hhistory ▸ h.lawful⟩
  · rw [hsettled.same.reservations, h.rows, hhistory]
  · intro call' hcall'
    obtain ⟨call, hcall, rfl⟩ := hmem hcall'
    obtain ⟨run, root, step, hdocumented⟩ := h.documented call hcall
    obtain ⟨run', -, hdocumented'⟩ := hdocumented.extend hsettled.extend (hf call hcall).1
    exact ⟨run', root, step, hdocumented'⟩
  · intro r limit hsent
    rw [hhistory] at hsent
    rw [hsettled.nextCall]
    exact h.sent r limit hsent
  · intro generationId logicalStep
    rw [hhistory, hsettled.same.attemptsOf_eq]
    exact h.sends generationId logicalStep
  · intro r root llm output hrecorded
    rw [hhistory] at hrecorded
    obtain ⟨call, hcall, hreservation, hstatus, hanswered⟩ := h.recorded r root llm output hrecorded
    obtain ⟨hsame, hsucceeded, hresponse⟩ := hf call hcall
    refine ⟨f call, hcalls ▸ List.mem_map_of_mem hcall, hsame.reservation.trans hreservation,
      hsucceeded.2 hstatus, hanswered.extend hsettled.extend hsame (hresponse hstatus)⟩
  · intro call' hcall' hstatus
    obtain ⟨call, hcall, rfl⟩ := hmem hcall'
    obtain ⟨hsame, hsucceeded, -⟩ := hf call hcall
    rw [hsame.reservation, hhistory]
    exact h.succeeded call hcall (hsucceeded.1 hstatus)
  · intro call' hcall' other' hother' hstatus hstatus' hgeneration hfingerprint
    obtain ⟨call, hcall, rfl⟩ := hmem hcall'
    obtain ⟨other, hother, rfl⟩ := hmem hother'
    obtain ⟨hsame, hsucceeded, -⟩ := hf call hcall
    obtain ⟨hsame', hsucceeded', -⟩ := hf other hother
    have hcolumns := Reservation.mk.inj hsame.reservation
    have hcolumns' := Reservation.mk.inj hsame'.reservation
    rw [h.unique call hcall other hother (hsucceeded.1 hstatus) (hsucceeded'.1 hstatus')
      (by rw [← hcolumns.2.2.1, ← hcolumns'.2.2.1, hgeneration])
      (by rw [← hcolumns.2.2.2.1, ← hcolumns'.2.2.2.1, hfingerprint])]

/-- A return adds nothing that the table knows. -/
theorem CoreInv.returned (h : CoreInv s) (id : Text) (root : Plan) (llm : Llm)
    (result : Except ReportError StepResult) (stage : Stage) :
    CoreInv { s with stage, history := s.history ++ [.returned id root llm result] } := by
  have hext : Extends s { s with stage, history := s.history ++ [.returned id root llm result] } :=
    ⟨.refl _, .refl _, fun _ ht => ht⟩
  refine ⟨h.numbered, ?_, ?_, h.files, ?_, ?_, ?_, ?_, h.unique, eachAfter_append.2 ⟨h.lawful, trivial⟩⟩
  · rw [reservations_append]
    exact h.rows.trans (List.append_nil _).symm
  · intro call hcall
    obtain ⟨run, root', step, hdocumented⟩ := h.documented call hcall
    obtain ⟨run', -, hdocumented'⟩ := hdocumented.extend hext (.refl call)
    exact ⟨run', root', step, hdocumented'⟩
  · intro r limit hsent
    exact h.sent r limit (by simpa using hsent)
  · intro generationId logicalStep
    rw [sendsOf_append]
    simpa [Entry.sending?] using h.sends generationId logicalStep
  · intro r root' settings output hrecorded
    obtain ⟨call, hcall, hreservation, hstatus, hanswered⟩ := h.recorded r root' settings output
      (by simpa using hrecorded)
    exact ⟨call, hcall, hreservation, hstatus, hanswered.extend hext (.refl call) rfl⟩
  · intro call hcall hstatus
    obtain ⟨root', settings, output, hrecorded⟩ := h.succeeded call hcall hstatus
    exact ⟨root', settings, output, List.mem_append_left _ hrecorded⟩

theorem CoreInv.leave (h : CoreInv s) (x : Execution) (result : Except ReportError StepResult) :
    ModelInv (s.leave x result) := ⟨h.returned _ _ _ _ _, trivial⟩

omit [Sha256] in
/-- Texts are hashed, and files are written. -/
theorem Settled.of_files {snapshots : Snapshots} {texts : List Text} {stage : Stage}
    (hgrows : s.snapshots.Grows snapshots)
    (hfiles : ∀ path bytes, snapshots.files.lookup path = some bytes →
      s.snapshots.files.lookup path = some bytes ∨ bytes ∈ texts) :
    Settled s { s with snapshots, stage, hashed := s.hashed ++ texts } where
  extend := ⟨.refl _, hgrows, fun _ ht => List.mem_append_left _ ht⟩
  calls := ⟨id, by rw [List.map_id], fun call _ => ⟨.refl call, Iff.rfl, fun _ => rfl⟩⟩
  nextCall := rfl
  files hall path bytes hfile := by
    rcases hfiles path bytes hfile with hold | hnew
    · exact List.mem_append_left _ (hall path bytes hold)
    · exact List.mem_append_right _ hnew

omit [Sha256] in
theorem Settled.of_stage (s : ModelSystem) (stage : Stage) : Settled s { s with stage } where
  extend := ⟨.refl _, .refl _, fun _ ht => ht⟩
  calls := ⟨id, by rw [List.map_id], fun call _ => ⟨.refl call, Iff.rfl, fun _ => rfl⟩⟩
  nextCall := rfl
  files hall := hall

omit [Sha256] in
theorem Settled.of_hashed (s : ModelSystem) (texts : List Text) (stage : Stage) :
    Settled s { s with stage, hashed := s.hashed ++ texts } :=
  .of_files (.refl _) fun _ _ h => .inl h

omit [ModelRules] in
/-- The files after a write. -/
theorem Snapshots.putBytes_files {snapshots snapshots' : Snapshots} {run kind bytes : Text}
    {reference : SnapshotRef} (h : snapshots.putBytes run kind bytes = .ok (reference, snapshots')) :
    ∀ path found, snapshots'.files.lookup path = some found →
      snapshots.files.lookup path = some found ∨ found = bytes := by
  unfold Snapshots.putBytes at h
  intro path found hfound
  cases hfile : snapshots.files.lookup (snapshotRef run kind bytes).path with
  | some old =>
    simp only [hfile, bind_eq_ok, Except.ok.injEq, Prod.mk.injEq] at h
    obtain ⟨_, -, _, -, -, rfl⟩ := h
    exact .inl hfound
  | none =>
    simp only [hfile, bind_eq_ok, Except.ok.injEq, Prod.mk.injEq] at h
    obtain ⟨_, -, _, -, -, rfl⟩ := h
    rw [List.lookup_append] at hfound
    rcases Option.or_eq_some_iff.1 hfound with hold | ⟨-, hnew⟩
    · exact .inl hold
    · refine .inr ?_
      rw [List.lookup_cons] at hnew
      split at hnew
      · exact (Option.some.inj hnew).symm
      · cases hnew

theorem Settled.of_put {run kind bytes : Text} {reference : SnapshotRef} {snapshots : Snapshots}
    (h : s.snapshots.putBytes run kind bytes = .ok (reference, snapshots)) :
    Settled s { s with snapshots, hashed := s.hashed ++ [bytes] } := by
  refine .of_files (Snapshots.putBytes_eq_ok h).2.1 fun path found hfound => ?_
  rw [List.mem_singleton]
  exact Snapshots.putBytes_files h path found hfound

omit [ModelRules] in
/-- The file of a text that was written. -/
theorem Stored.of_put {snapshots snapshots' : Snapshots} {run kind bytes : Text}
    {reference : SnapshotRef} (h : snapshots.putBytes run kind bytes = .ok (reference, snapshots')) :
    Stored snapshots' reference bytes := by
  obtain ⟨hsha, -, found, hfound, -⟩ := Snapshots.putBytes_eq_ok h
  refine ⟨found, hfound, ?_⟩
  rw [(Snapshots.readBytes_eq_ok.1 hfound).2.2.2, hsha]

section Store

variable [Chrono]

omit [Sha256] [ModelRules] in
theorem ModelCallRow.Settles.same (h : call.Settles call') : SameCall call call' ∧
    (call'.status = .succeeded ↔ call.status = .succeeded) ∧
      (call.status = .succeeded → call'.response = call.response) := by
  rcases h with rfl | ⟨hreserved, now, rfl⟩
  · exact ⟨.refl _, Iff.rfl, fun _ => rfl⟩
  · refine ⟨⟨rfl, rfl, rfl⟩, ?_, fun _ => rfl⟩
    rw [hreserved]
    exact ⟨fun heq => CallStatus.noConfusion heq, fun heq => CallStatus.noConfusion heq⟩

omit [Sha256] in
theorem Settled.of_keeps {db : Db} (h : Keeps s.db db) : Settled s { s with db } := by
  obtain ⟨f, hcalls, hf⟩ := h.calls
  exact ⟨⟨h.runs, .refl _, fun _ ht => ht⟩, ⟨f, hcalls, fun call _ => (hf call).same⟩, h.nextCall,
    fun hall => hall⟩

end Store

/-! ### What the running execution knows -/

theorem ExecutionInv.settle {x : Execution} (h : ExecutionInv s x) (hext : Extends s s')
    (hsame : SameCalls s.db s'.db) : ExecutionInv s' x := by
  obtain ⟨run, hrun, hwork⟩ := h.found
  obtain ⟨run', hrun', hwork'⟩ := hext.runs _ _ hrun
  refine ⟨⟨run', hrun', hwork.trans hwork'⟩, h.valid, h.samePlan,
    ⟨hext.hashed _ h.hashed.1, hext.hashed _ h.hashed.2⟩, ?_⟩
  obtain ⟨f, hcalls, hf⟩ := hsame
  intro call' hcall' hgeneration hstep
  rw [hcalls] at hcall'
  obtain ⟨call, hcall, rfl⟩ := List.mem_map.1 hcall'
  have hcolumns := Reservation.mk.inj (hf call hcall).reservation
  rw [(hf call hcall).audit]
  exact h.roots call hcall (hcolumns.2.2.1.symm.trans hgeneration)
    (hcolumns.2.2.2.2.1.symm.trans hstep)

/-- Files and hashes concern no pending call. -/
theorem PendingInv.extend {x : Execution} {r : Reservation} (h : PendingInv s x r)
    (hext : Extends s s') (hdb : s'.db = s.db) (hhistory : s'.history = s.history) :
    PendingInv s' x r := by
  obtain ⟨call, hcall, hreservation, hstatus, run, hwork, hdocumented⟩ := h.row
  obtain ⟨run', hwork', hdocumented'⟩ := hdocumented.extend hext (.refl call)
  exact ⟨⟨call, hdb ▸ hcall, hreservation, hstatus, run', hwork.trans hwork', hdocumented'⟩, h.columns,
    hdb ▸ h.unanswered, hhistory ▸ h.reserved⟩

omit [Sha256] in
theorem UnsentInv.extend {x : Execution} {r : Reservation} (h : UnsentInv s x r) (hdb : s'.db = s.db)
    (hhistory : s'.history = s.history) : UnsentInv s' x r :=
  ⟨h.attempt, hhistory ▸ h.sends, hhistory ▸ h.fresh, hdb ▸ h.count⟩

theorem StageInv.extend (h : StageInv s) (hext : Extends s s') (hdb : s'.db = s.db)
    (hhistory : s'.history = s.history) (hstage : s'.stage = s.stage) : StageInv s' := by
  unfold StageInv at h ⊢
  rw [hstage]
  cases hs : s.stage with
  | idle => trivial
  | looking x =>
    rw [hs] at h
    exact h.settle hext (.of_eq (congrArg Db.calls hdb))
  | reserved x r =>
    rw [hs] at h
    exact ⟨h.1.settle hext (.of_eq (congrArg Db.calls hdb)), h.2.1.extend hext hdb hhistory,
      h.2.2.extend hdb hhistory⟩
  | sent x r =>
    rw [hs] at h
    exact ⟨h.1.settle hext (.of_eq (congrArg Db.calls hdb)), h.2.1.extend hext hdb hhistory,
      hhistory ▸ h.2.2⟩

/-! ### Starting -/

/-- The effective plan is the root or a revision of it, and every call of the step has its root. -/
theorem effective_eq_ok {db : Db} {snapshots : Snapshots} {generationId : Text}
    (h : effective db snapshots root generationId = .ok step) : identity step = identity root ∧
      ∀ call ∈ db.calls, call.generationId = generationId → call.logicalStep = logicalStep root →
        call.audit.map auditedRoot = some (rootMark root) := by
  obtain ⟨priors, hpriors, hstep⟩ := bind_eq_ok.1 h
  obtain ⟨hcalls, hplans⟩ := mem_of_mapM hpriors
  constructor
  · cases hlast : priors.getLast? with
    | none =>
      rw [hlast] at hstep
      cases hstep
      rfl
    | some plan =>
      rw [hlast] at hstep
      cases hstep
      obtain ⟨row, -, hprior⟩ := hplans _ (List.mem_of_getLast? hlast)
      obtain ⟨-, -, -, -, -, -, -, -, hidentity⟩ := prior_eq_ok.1 hprior
      exact hidentity
  · intro call hcall hgeneration hnamed
    have hrow : call ∈ generationCalls db generationId (logicalStep root) := by
      unfold generationCalls
      rw [mem_sortByKey, List.mem_filter]
      exact ⟨hcall, decide_eq_true ⟨hgeneration, hnamed⟩⟩
    obtain ⟨plan, -, hprior⟩ := hcalls call hrow
    obtain ⟨audit, -, -, haudit, hroot, -⟩ := prior_eq_ok.1 hprior
    rw [haudit, Option.map_some, hroot]

theorem enter_eq_ok {db : Db} {snapshots : Snapshots} {id : Text} {llm : Llm} {allowNewCalls : Bool}
    {x : Execution} (h : enter db snapshots id root llm allowNewCalls = .ok x) :
    validateIdentity root llm = .ok () ∧ db.findRun id = some x.run ∧ x.root = root ∧ x.llm = llm ∧
      effective db snapshots root x.run.generationId = .ok x.step := by
  simp only [enter, bind_eq_ok, Except.ok.injEq] at h
  obtain ⟨_, hvalid, run, hrun, step, hstep, rfl⟩ := h
  exact ⟨hvalid, readRun_eq_ok.1 hrun, rfl, rfl, hstep⟩

omit [Sha256] [ModelRules] in
/-- A run is found by its own id. -/
theorem findRun_own {db : Db} {id : Text} (h : db.findRun id = some run) :
    run.runId = id ∧ db.findRun run.runId = some run := by
  obtain ⟨-, hid⟩ := findRun_eq_some h
  exact ⟨hid, hid ▸ h⟩

theorem CoreInv.start (h : CoreInv s) (id : Text) (root : Plan) (llm : Llm) (allowNewCalls : Bool)
    (hidle : s.stage = .idle) : ModelInv (s.start id root llm allowNewCalls) := by
  unfold ModelSystem.start
  cases henter : enter s.db s.snapshots id root llm allowNewCalls with
  | error e =>
    have hstage : ModelInv { s with stage := s.stage, history := s.history ++
        [.returned id root llm (.error e)] } := by
      refine ⟨h.returned _ _ _ _ _, ?_⟩
      unfold StageInv
      rw [hidle]
      trivial
    exact hstage
  | ok x =>
    obtain ⟨hvalid, hrun, hroot, hllm, hstep⟩ := enter_eq_ok henter
    obtain ⟨hid, hfound⟩ := findRun_own hrun
    obtain ⟨hsame, hroots⟩ := effective_eq_ok hstep
    subst hroot hllm
    refine ⟨h.settle (.of_hashed s _ (.looking x)) rfl, ⟨x.run, hfound, .refl _⟩, hvalid, hsame, ?_, hroots⟩
    exact ⟨List.mem_append_right _ (by simp), List.mem_append_right _ (by simp)⟩

/-! ### Reserving -/

section Reserve

variable {row : ModelCallRow}

theorem CoreInv.reserved (h : CoreInv s) (hext : Extends s s')
    (hcalls : s'.db.calls = s.db.calls ++ [row]) (hnext : s'.db.nextCall = s.db.nextCall + 1)
    (hid : row.callId = s.db.nextCall) (hstatus : row.status = .reserved)
    (hattempt : row.attempt = attemptsOf s.db row.generationId row.logicalStep + 1)
    (hdocumented : ∃ run root step, Documented s' row run root step)
    (hfiles : ∀ path bytes, s'.snapshots.files.lookup path = some bytes → bytes ∈ s'.hashed)
    (hhistory : s'.history = s.history ++ [.reserved row.reservation]) : CoreInv s' := by
  have hmem : ∀ {call}, call ∈ s'.db.calls ↔ call ∈ s.db.calls ∨ call = row := by
    intro call
    rw [hcalls, List.mem_append, List.mem_singleton]
  have hnot : row.status ≠ .succeeded := by
    rw [hstatus]
    exact CallStatus.noConfusion
  have hattempts : ∀ generationId logicalStep, attemptsOf s.db generationId logicalStep ≤
      attemptsOf s'.db generationId logicalStep := by
    intro generationId logicalStep
    unfold attemptsOf
    rw [hcalls, List.countP_append]
    exact Nat.le_add_right _ _
  refine ⟨⟨?_, ?_⟩, ?_, ?_, hfiles, ?_, ?_, ?_, ?_, ?_, ?_⟩
  · rw [hcalls, List.pairwise_append]
    refine ⟨h.numbered.1, List.pairwise_singleton _ _, fun call hcall other hother => ?_⟩
    rw [List.mem_singleton.1 hother, hid]
    exact h.numbered.2 call hcall
  · intro call hcall
    rcases hmem.1 hcall with hold | rfl
    · have := h.numbered.2 call hold
      omega
    · omega
  · rw [hcalls, hhistory, List.map_append, h.rows, reservations_append]
    rfl
  · intro call hcall
    rcases hmem.1 hcall with hold | rfl
    · obtain ⟨run, root, step, hdocumented⟩ := h.documented call hold
      obtain ⟨run', -, hdocumented'⟩ := hdocumented.extend hext (.refl call)
      exact ⟨run', root, step, hdocumented'⟩
    · exact hdocumented
  · intro r limit hsent
    have := h.sent r limit (by simpa [hhistory] using hsent)
    omega
  · intro generationId logicalStep
    rw [hhistory, sendsOf_append]
    have := h.sends generationId logicalStep
    have := hattempts generationId logicalStep
    simp only [Entry.sending?, Option.toList_none, List.append_nil]
    omega
  · intro r root llm output hrecorded
    obtain ⟨call, hcall, hreservation, hsucceeded, hanswered⟩ := h.recorded r root llm output
      (by simpa [hhistory] using hrecorded)
    exact ⟨call, hmem.2 (.inl hcall), hreservation, hsucceeded, hanswered.extend hext (.refl call) rfl⟩
  · intro call hcall hsucceeded
    rcases hmem.1 hcall with hold | rfl
    · obtain ⟨root, llm, output, hrecorded⟩ := h.succeeded call hold hsucceeded
      exact ⟨root, llm, output, hhistory ▸ List.mem_append_left _ hrecorded⟩
    · exact absurd hsucceeded hnot
  · intro call hcall other hother hsucceeded hsucceeded'
    rcases hmem.1 hcall with hold | rfl
    · rcases hmem.1 hother with hold' | rfl
      · exact h.unique call hold other hold' hsucceeded hsucceeded'
      · exact absurd hsucceeded' hnot
    · exact absurd hsucceeded hnot
  · rw [hhistory]
    refine eachAfter_append.2 ⟨h.lawful, ?_⟩
    show row.attempt = _
    rw [hattempt, attemptsOf_eq, h.rows]
    rfl

variable [Chrono] {db db' : Db} {snapshots snapshots' : Snapshots} {x : Execution} {now : ℤ}

omit [Sha256] [ModelRules] [Chrono] in
theorem recordCall_calls (db : Db) (run : RunRecord) : (recordCall db run).calls = db.calls := by
  unfold recordCall
  split_ifs <;> rfl

/-- A reservation adds a row with the next attempt number and the files that document it. -/
theorem reserve_eq_ok (h : reserve db snapshots x now = .ok (db', snapshots')) :
    ∃ run row, db.findRun x.run.runId = some run ∧
      attemptsOf db run.generationId (logicalStep x.step) < maxRetries x.llm ∧ maxRetries x.llm ≤ 3 ∧
      RunsKept db.runs db'.runs ∧ db'.calls = db.calls ++ [row] ∧ db'.nextCall = db.nextCall + 1 ∧
      row.status = .reserved ∧
      row.reservation = ⟨db.nextCall, x.run.runId, run.generationId, requestIdentity x.run x.step,
        logicalStep x.step, attemptsOf db run.generationId (logicalStep x.step) + 1⟩ ∧
      (∃ reference, row.request = some reference ∧ Stored snapshots' reference (bytes x.step)) ∧
      (∃ revision, row.audit = some (auditJson x.root x.step revision) ∧
        Stored snapshots' revision (text x.step)) ∧
      snapshots.Grows snapshots' ∧
      ∀ path bytes, snapshots'.files.lookup path = some bytes →
        snapshots.files.lookup path = some bytes ∨ bytes = ModelRules.bytes x.step ∨
          bytes = text x.step := by
  simp only [reserve, bind_eq_ok, Except.ok.injEq, Prod.exists, Prod.mk.injEq] at h
  obtain ⟨_, -, _, -, request, files, hrequest, revision, files', hrevision, db₁, hcall, rfl, rfl⟩ := h
  obtain ⟨run, hrun, -, -, -, hattempt, hthree, rfl⟩ := reserveCall_eq_ok hcall
  have hgrows := (Snapshots.putBytes_eq_ok hrevision).2.1
  refine ⟨run, _, hrun, hattempt, hthree, ?_, congrArg (· ++ [_]) (recordCall_calls db run), rfl, rfl,
    rfl, ⟨request, rfl, (Stored.of_put hrequest).grows hgrows⟩,
    ⟨revision, audit_usageText none _ rfl, .of_put hrevision⟩,
    (Snapshots.putBytes_eq_ok hrequest).2.1.trans hgrows, ?_⟩
  · rw [recordCall_runs]
    exact .update _ fun _ => ⟨rfl, rfl, rfl, rfl, rfl⟩
  · intro path bytes hfile
    rcases Snapshots.putBytes_files hrevision path bytes hfile with hold | hnew
    · rcases Snapshots.putBytes_files hrequest path bytes hold with hold | hnew
      · exact .inl hold
      · exact .inr (.inl hnew)
    · exact .inr (.inr hnew)

omit [Sha256] [ModelRules] [Chrono] in
/-- A row that is reserved is one more attempt. -/
theorem attemptsOf_append (hcalls : db'.calls = db.calls ++ [row]) :
    attemptsOf db' row.generationId row.logicalStep =
      attemptsOf db row.generationId row.logicalStep + 1 := by
  unfold attemptsOf
  rw [hcalls, List.countP_append, List.countP_singleton, if_pos (decide_eq_true ⟨rfl, rfl⟩)]

omit [Chrono] in
/-- The state after a reservation. -/
theorem ModelInv.of_reserved (h : CoreInv s) (hx : ExecutionInv s x) (hext : Extends s s')
    (hcalls : s'.db.calls = s.db.calls ++ [row]) (hnext : s'.db.nextCall = s.db.nextCall + 1)
    (hstatus : row.status = .reserved)
    (hreservation : row.reservation = ⟨s.db.nextCall, x.run.runId, x.run.generationId,
      requestIdentity x.run x.step, logicalStep x.step,
      attemptsOf s.db x.run.generationId (logicalStep x.step) + 1⟩)
    (hrequest : ∃ reference, row.request = some reference ∧ Stored s'.snapshots reference (bytes x.step))
    (haudit : ∃ revision, row.audit = some (auditJson x.root x.step revision) ∧
      Stored s'.snapshots revision (text x.step))
    (hhashed : bytes x.step ∈ s'.hashed ∧ identityText x.run x.step ∈ s'.hashed)
    (hfiles : ∀ path bytes, s'.snapshots.files.lookup path = some bytes → bytes ∈ s'.hashed)
    (hattempt : attemptsOf s.db x.run.generationId (logicalStep x.step) < maxRetries x.llm)
    (hthree : maxRetries x.llm ≤ 3)
    (hnone : successfulCall s.db x.run.generationId (requestIdentity x.run x.step) = none)
    (hhistory : s'.history = s.history ++ [.reserved row.reservation])
    (hstage : s'.stage = .reserved x row.reservation) : ModelInv s' := by
  obtain ⟨hid, hrunId, hgeneration, hfingerprint, hnamed, hnumber⟩ := Reservation.mk.inj hreservation
  obtain ⟨run, hrun, hwork⟩ := hx.found
  obtain ⟨run', hrun', hwork'⟩ := hext.runs _ _ hrun
  have hsame := hwork.trans hwork'
  have hdocumented : Documented s' row run' x.root x.step := by
    refine ⟨?_, ?_, hnamed, ?_, hrequest, haudit, hx.samePlan, ?_⟩
    · rw [hrunId]
      exact hrun'
    · rw [hgeneration, hsame.generationId]
    · unfold requestIdentity at hfingerprint ⊢
      rw [hfingerprint, identityText_sameWork hsame]
    · rw [identityText_sameWork hsame]
      intro t ht
      simp only [List.mem_cons, List.not_mem_nil, or_false] at ht
      rcases ht with rfl | rfl | rfl | rfl
      · exact hext.hashed _ hx.hashed.1
      · exact hext.hashed _ hx.hashed.2
      · exact hhashed.1
      · exact hhashed.2
  have hmem : row ∈ s'.db.calls := by simp [hcalls]
  have hexecution : ExecutionInv s' x := by
    refine ⟨⟨run', hrun', hsame⟩, hx.valid, hx.samePlan,
      ⟨hext.hashed _ hx.hashed.1, hext.hashed _ hx.hashed.2⟩, ?_⟩
    intro call hcall hcallGeneration hcallNamed
    rw [hcalls, List.mem_append, List.mem_singleton] at hcall
    rcases hcall with hold | rfl
    · exact hx.roots call hold hcallGeneration hcallNamed
    · exact hdocumented.mark
  have hpending : PendingInv s' x row.reservation := by
    refine ⟨⟨row, hmem, rfl, hstatus, run', hsame, hdocumented⟩,
      ⟨hrunId, hgeneration, hfingerprint, hnamed⟩, ?_, by simp [hhistory]⟩
    intro call hcall hcallGeneration hcallFingerprint
    rw [hcalls, List.mem_append, List.mem_singleton] at hcall
    rcases hcall with hold | rfl
    · exact successfulCall_eq_none.1 hnone call hold (hcallGeneration.trans hgeneration)
        (hcallFingerprint.trans hfingerprint)
    · rw [hstatus]
      exact CallStatus.noConfusion
  have hcount : row.attempt = attemptsOf s'.db row.generationId row.logicalStep := by
    rw [attemptsOf_append hcalls, hnumber, hgeneration, hnamed]
  have hunsent : UnsentInv s' x row.reservation := by
    refine ⟨⟨?_, hthree⟩, ?_, ?_, hcount⟩
    · show row.attempt ≤ _
      omega
    · show (sendsOf row.generationId row.logicalStep s'.history).length < row.attempt
      have hsends := h.sends row.generationId row.logicalStep
      rw [attemptsOf_append hcalls] at hcount
      rw [hhistory, sendsOf_append]
      simp only [Entry.sending?, Option.toList_none, List.append_nil]
      omega
    · intro r limit hsent
      have hlt := h.sent r limit (by simpa [hhistory] using hsent)
      show r.callId ≠ row.callId
      omega
  refine ⟨h.reserved hext hcalls hnext hid hstatus ?_ ⟨run', x.root, x.step, hdocumented⟩ hfiles
    hhistory, ?_⟩
  · rw [hnumber, hgeneration, hnamed]
  · unfold StageInv
    rw [hstage]
    exact ⟨hexecution, hpending, hunsent⟩

theorem ModelInv.look (h : ModelInv s) (hstage : s.stage = .looking x) (now : ℤ) :
    ModelInv (s.look x now) := by
  have hx : ExecutionInv s x := by
    have hs := h.stage
    unfold StageInv at hs
    rwa [hstage] at hs
  have hsettled := Settled.of_hashed s [bytes x.step, identityText x.run x.step] s.stage
  have hcore := h.core.settle hsettled rfl
  have hx' := hx.settle hsettled.extend hsettled.same
  unfold ModelSystem.look
  dsimp only
  cases hcall : successfulCall s.db x.run.generationId (requestIdentity x.run x.step) with
  | some row => exact hcore.leave x _
  | none =>
    dsimp only
    cases hreserve : reserve s.db s.snapshots x now with
    | error e => exact hcore.leave x _
    | ok stores =>
      obtain ⟨db, snapshots⟩ := stores
      obtain ⟨run, row, hrun, hattempt, hthree, hruns, hcalls, hnext, hstatus, hreservation, hrequest,
        haudit, hgrows, hfiles⟩ := reserve_eq_ok hreserve
      -- the run of the execution is the run of the store
      obtain ⟨run', hfound, hwork⟩ := hx'.found
      cases hfound.symm.trans hrun
      have hgeneration : run.generationId = x.run.generationId := hwork.generationId
      rw [hgeneration] at hattempt hreservation
      dsimp only
      rw [← hreservation]
      refine ModelInv.of_reserved hcore hx' ⟨hruns, hgrows, fun _ ht => ht⟩ hcalls hnext hstatus
        hreservation hrequest haudit ⟨by simp, by simp⟩ ?_ hattempt hthree hcall rfl rfl
      intro path bytes hfile
      rcases hfiles path bytes hfile with hold | rfl | rfl
      · exact hcore.files path bytes hold
      · simp
      · exact hx'.hashed.2

end Reserve

/-! ### Sending -/

/-- What is recorded succeeded in the table. -/
theorem CoreInv.unanswered (h : CoreInv s) {r : Reservation}
    (hnone : ∀ call ∈ s.db.calls, call.generationId = r.generationId →
      call.requestFingerprint = r.requestFingerprint → call.status ≠ .succeeded) :
    Unanswered s.history r := by
  intro r' root llm output hrecorded hgeneration hfingerprint
  obtain ⟨call, hcall, rfl, hsucceeded, -⟩ := h.recorded r' root llm output hrecorded
  exact hnone call hcall hgeneration hfingerprint hsucceeded

theorem ModelInv.send (h : ModelInv s) {x : Execution} {r : Reservation}
    (hstage : s.stage = .reserved x r) :
    ModelInv { s with stage := .sent x r, history := s.history ++ [.sent r (maxRetries x.llm)] } := by
  have hs := h.stage
  unfold StageInv at hs
  rw [hstage] at hs
  obtain ⟨hx, hpending, hunsent⟩ := hs
  have hext : Extends s { s with
      stage := .sent x r, history := s.history ++ [.sent r (maxRetries x.llm)] } :=
    ⟨.refl _, .refl _, fun _ ht => ht⟩
  obtain ⟨call, hcall, hreservation, hstatus, run, hwork, hdocumented⟩ := hpending.row
  refine ⟨⟨h.core.numbered, ?_, ?_, h.core.files, ?_, ?_, ?_, ?_, h.core.unique, ?_⟩, ?_⟩
  · rw [reservations_append]
    exact h.core.rows.trans (List.append_nil _).symm
  · intro other hother
    obtain ⟨run', root, step, hdocumented'⟩ := h.core.documented other hother
    obtain ⟨run'', -, hdocumented''⟩ := hdocumented'.extend hext (.refl other)
    exact ⟨run'', root, step, hdocumented''⟩
  · intro r' limit hsent
    rw [List.mem_append, List.mem_singleton] at hsent
    rcases hsent with hold | hnew
    · exact h.core.sent r' limit hold
    · cases hnew
      have hlt := h.core.numbered.2 call hcall
      rw [← hreservation]
      exact hlt
  · intro generationId logicalStep
    rw [sendsOf_append, List.length_append]
    show _ ≤ attemptsOf s.db generationId logicalStep
    have hsends := h.core.sends generationId logicalStep
    simp only [Entry.sending?]
    split_ifs with hof
    · obtain ⟨rfl, rfl⟩ := of_decide_eq_true hof
      have hless := hunsent.sends
      have hcount := hunsent.count
      simp only [Option.toList_some, List.length_singleton]
      omega
    · simpa using hsends
  · intro r' root llm output hrecorded
    obtain ⟨other, hother, hreservation', hstatus', hanswered⟩ := h.core.recorded r' root llm output
      (by simpa using hrecorded)
    exact ⟨other, hother, hreservation', hstatus', hanswered.extend hext (.refl other) rfl⟩
  · intro other hother hsucceeded
    obtain ⟨root, llm, output, hrecorded⟩ := h.core.succeeded other hother hsucceeded
    exact ⟨root, llm, output, List.mem_append_left _ hrecorded⟩
  · exact eachAfter_append.2 ⟨h.core.lawful, hpending.reserved, hunsent.fresh, hunsent.sends,
      hunsent.attempt.1, hunsent.attempt.2, h.core.unanswered hpending.unanswered⟩
  · refine ⟨hx.settle hext (.of_eq rfl), ⟨⟨call, hcall, hreservation, hstatus, ?_⟩, hpending.columns,
      hpending.unanswered, List.mem_append_left _ hpending.reserved⟩, maxRetries x.llm, by simp⟩
    obtain ⟨run', hwork', hdocumented'⟩ := hdocumented.extend hext (.refl call)
    exact ⟨run', hwork.trans hwork', hdocumented'⟩

/-! ### Finishing -/

section Finish

variable [Chrono] {db db' : Db} {completion : CallCompletion}

omit [Sha256] [ModelRules] [Chrono] in
/-- An id is the id of one call. -/
theorem Numbered.eq_of_id (h : Numbered db) (hcall : call ∈ db.calls) (hcall' : call' ∈ db.calls)
    (hid : call.callId = call'.callId) : call = call' := by
  have hids : (db.calls.map ModelCallRow.callId).Nodup := by
    refine List.Pairwise.imp (fun hlt => Nat.ne_of_lt hlt) ?_
    exact List.pairwise_map.2 h.1
  exact List.inj_on_of_nodup_map hids hcall hcall' hid

omit [Sha256] [ModelRules] in
/-- The call that is finished keeps its audit. -/
theorem finishCall_eq_ok (h : finishCall db completion = .ok db') (hnumbered : Numbered db)
    (hcall : call ∈ db.calls) (hid : call.callId = completion.callId) :
    completion.status ≠ .reserved ∧ ∃ usage,
      SameCall call (call.finish completion usage) ∧
      db' = { db with
        calls := updateWhere (isReserved completion.callId) (ModelCallRow.finish completion usage)
          db.calls } := by
  obtain ⟨_, hvalid, h⟩ := bind_eq_ok.1 h
  rw [ensure_eq_ok] at hvalid
  cases hfind : db.calls.find? (isReserved completion.callId) with
  | none =>
    rw [hfind] at h
    cases h
  | some row =>
    have hpass := List.find?_some hfind
    simp only [isReserved, Bool.and_eq_true, decide_eq_true_eq] at hpass
    cases hnumbered.eq_of_id hcall (List.mem_of_find?_eq_some hfind) (hid.trans hpass.1.symm)
    rw [hfind] at h
    simp only [bind_eq_ok, Except.ok.injEq] at h
    obtain ⟨old, hold, _, -, rfl⟩ := h
    refine ⟨hvalid.1, mergeUsage old completion.usage, ⟨rfl, rfl, ?_⟩, rfl⟩
    unfold ModelCallRow.audit ModelCallRow.finish
    dsimp only
    rw [Option.getD_some, readJson_print, hold]
    exact congrArg some (requestAudit_mergeUsage old completion.usage)

omit [Sha256] [ModelRules] in
/-- Finishing a call concerns no other call. -/
theorem finish_calls (hnumbered : Numbered db) (hcall : call ∈ db.calls)
    (hid : call.callId = completion.callId) (hstatus : call.status = .reserved) (usage : Json) :
    ∃ f : ModelCallRow → ModelCallRow,
      updateWhere (isReserved completion.callId) (ModelCallRow.finish completion usage) db.calls =
        db.calls.map f ∧ f call = call.finish completion usage ∧
      ∀ other ∈ db.calls, other ≠ call → f other = other := by
  refine ⟨_, rfl, ?_, ?_⟩
  · rw [if_pos]
    simp [isReserved, hid, hstatus]
  · intro other hother hne
    rw [if_neg]
    intro hpass
    simp only [isReserved, Bool.and_eq_true, decide_eq_true_eq] at hpass
    exact hne (hnumbered.eq_of_id hother hcall (hpass.1.trans hid.symm))

omit [Sha256] [ModelRules] in
theorem SameCalls.of_finish (hfinish : finishCall db completion = .ok db') (hnumbered : Numbered db)
    (hcall : call ∈ db.calls) (hid : call.callId = completion.callId) (hstatus : call.status = .reserved) :
    SameCalls db db' := by
  obtain ⟨-, usage, hsame, rfl⟩ := finishCall_eq_ok hfinish hnumbered hcall hid
  obtain ⟨f, hcalls, hf, hothers⟩ := finish_calls hnumbered hcall hid hstatus usage
  refine ⟨f, hcalls, fun other hother => ?_⟩
  by_cases heq : other = call
  · rw [heq, hf]
    exact hsame
  · rw [hothers other hother heq]
    exact .refl other

omit [Sha256] in
/-- A call that did not succeed. -/
theorem Settled.of_finish (hfinish : finishCall s.db completion = .ok db) (hnumbered : Numbered s.db)
    (hcall : call ∈ s.db.calls) (hid : call.callId = completion.callId) (hstatus : call.status = .reserved)
    (hfailed : completion.status ≠ .succeeded) (stage : Stage) : Settled s { s with db, stage } := by
  obtain ⟨-, usage, hsame, rfl⟩ := finishCall_eq_ok hfinish hnumbered hcall hid
  obtain ⟨f, hcalls, hf, hothers⟩ := finish_calls hnumbered hcall hid hstatus usage
  refine ⟨⟨.refl _, .refl _, fun _ ht => ht⟩, ⟨f, hcalls, fun other hother => ?_⟩, rfl, fun hall => hall⟩
  by_cases hother : other = call
  · rw [hother, hf]
    have hnot : call.status ≠ .succeeded := by
      rw [hstatus]
      exact CallStatus.noConfusion
    exact ⟨hsame, ⟨fun h => absurd h hfailed, fun h => absurd h hnot⟩, fun h => absurd h hnot⟩
  · rw [hothers other ‹_› hother]
    exact ⟨.refl other, Iff.rfl, fun _ => rfl⟩

/-- A call that succeeded is recorded. -/
theorem CoreInv.record (h : CoreInv s) {x : Execution} {r : Reservation} {saved : SnapshotRef}
    {body : Text} (hpending : PendingInv s x r) (hsent : ∃ limit, Entry.sent r limit ∈ s.history)
    (hfinish : finishCall s.db completion = .ok db) (hid : completion.callId = r.callId)
    (hsucceeded : completion.status = .succeeded) (hresponse : completion.response = some saved)
    (hstored : Stored s.snapshots saved body) (hbody : body ∈ s.hashed)
    (hvalid : validateResponse x.step body = .ok output)
    (hidentity : validateIdentity x.root x.llm = .ok ()) :
    CoreInv { s with db, history := s.history ++ [.recorded r x.root x.llm output] } := by
  obtain ⟨call, hcall, rfl, hstatus, run, hwork, hdocumented⟩ := hpending.row
  obtain ⟨-, usage, hsame, rfl⟩ := finishCall_eq_ok hfinish h.numbered hcall hid.symm
  obtain ⟨f, hcalls, hf, hothers⟩ := finish_calls h.numbered hcall hid.symm hstatus usage
  rw [hcalls]
  have hext : Extends s { s with
      db := { s.db with calls := s.db.calls.map f }
      history := s.history ++ [.recorded call.reservation x.root x.llm output] } :=
    ⟨.refl _, .refl _, fun _ ht => ht⟩
  have hall : ∀ other ∈ s.db.calls, SameCall other (f other) := by
    intro other hother
    by_cases heq : other = call
    · rw [heq, hf]
      exact hsame
    · rw [hothers other hother heq]
      exact .refl other
  have hcallsSame : SameCalls s.db { s.db with calls := s.db.calls.map f } := ⟨f, rfl, hall⟩
  -- the call that succeeded, or one that is as it was
  have hmem : ∀ {other'}, other' ∈ s.db.calls.map f → other' = f call ∨ other' ∈ s.db.calls ∧ other' ≠ call := by
    intro other' hother'
    obtain ⟨other, hother, rfl⟩ := List.mem_map.1 hother'
    by_cases heq : other = call
    · exact .inl (congrArg f heq)
    · refine .inr ?_
      rw [hothers other hother heq]
      exact ⟨hother, heq⟩
  have hreservation : (f call).reservation = call.reservation := (hall call hcall).reservation
  refine ⟨h.numbered.of_same hcallsSame rfl, ?_, ?_, h.files, ?_, ?_, ?_, ?_, ?_, ?_⟩
  · rw [hcallsSame.reservations, reservations_append]
    exact h.rows.trans (List.append_nil _).symm
  · intro other' hother'
    obtain ⟨other, hother, rfl⟩ := List.mem_map.1 hother'
    obtain ⟨run', root, step, hdocumented'⟩ := h.documented other hother
    obtain ⟨run'', -, hdocumented''⟩ := hdocumented'.extend hext (hall other hother)
    exact ⟨run'', root, step, hdocumented''⟩
  · intro r limit hr
    exact h.sent r limit (by simpa using hr)
  · intro generationId logicalStep
    rw [hcallsSame.attemptsOf_eq, sendsOf_append]
    simpa [Entry.sending?] using h.sends generationId logicalStep
  · intro r root llm output' hrecorded
    rw [List.mem_append, List.mem_singleton] at hrecorded
    rcases hrecorded with hold | hnew
    · obtain ⟨other, hother, hr, hdone, hanswered⟩ := h.recorded r root llm output' hold
      have hne : other ≠ call := by
        rintro rfl
        rw [hstatus] at hdone
        cases hdone
      have hsameOther := hothers other hother hne
      refine ⟨other, ?_, hr, hdone, hanswered.extend hext (.refl other) rfl⟩
      exact List.mem_map.2 ⟨other, hother, hsameOther⟩
    · obtain ⟨rfl, rfl, rfl, rfl⟩ := Entry.recorded.inj hnew
      obtain ⟨run', -, hdocumented'⟩ := hdocumented.extend hext (hall call hcall)
      refine ⟨f call, List.mem_map_of_mem hcall, hreservation, hf ▸ hsucceeded, ?_⟩
      exact ⟨run', x.step, saved, body, hdocumented', hf ▸ hresponse, hstored, hbody, hvalid⟩
  · intro other' hother' hdone
    rcases hmem hother' with rfl | ⟨hold, -⟩
    · exact ⟨x.root, x.llm, output, by simp [hreservation]⟩
    · obtain ⟨root, llm, output', hrecorded⟩ := h.succeeded other' hold hdone
      exact ⟨root, llm, output', List.mem_append_left _ hrecorded⟩
  · intro other hother other' hother' hdone hdone' hgeneration hfingerprint
    have hcolumns := Reservation.mk.inj hreservation
    rcases hmem hother with rfl | ⟨hold, -⟩
    · rcases hmem hother' with rfl | ⟨hold', -⟩
      · rfl
      · exact absurd hdone' (hpending.unanswered other' hold' (hgeneration.symm.trans hcolumns.2.2.1)
          (hfingerprint.symm.trans hcolumns.2.2.2.1))
    · rcases hmem hother' with rfl | ⟨hold', -⟩
      · exact absurd hdone (hpending.unanswered other hold (hgeneration.trans hcolumns.2.2.1)
          (hfingerprint.trans hcolumns.2.2.2.1))
      · exact h.unique other hold other' hold' hdone hdone' hgeneration hfingerprint
  · exact eachAfter_append.2 ⟨h.lawful, hsent, h.unanswered hpending.unanswered, hidentity⟩

/-- What a reply makes of the state: the execution tries again, or returns an error, or records the
call and returns its output. -/
inductive Outcome (s : ModelSystem) (x : Execution) (r : Reservation) : ModelSystem → Prop
  | retried {s₁ : ModelSystem} (hsettled : Settled s s₁) (hhistory : s₁.history = s.history)
      (retries : ℕ) :
      Outcome s x r { s₁ with stage := .looking { x with invalidRetries := retries } }
  | refused {s₁ : ModelSystem} (hsettled : Settled s s₁) (hhistory : s₁.history = s.history)
      (e : ReportError) : Outcome s x r (s₁.leave x (.error e))
  | recorded {s₁ : ModelSystem} {completion : CallCompletion} {saved : SnapshotRef} {body : Text}
      {output : Output} {db : Db} (hsettled : Settled s s₁) (hhistory : s₁.history = s.history)
      (hdb : s₁.db = s.db) (hfinish : finishCall s₁.db completion = .ok db)
      (hid : completion.callId = r.callId) (hsucceeded : completion.status = .succeeded)
      (hresponse : completion.response = some saved) (hstored : Stored s₁.snapshots saved body)
      (hbody : body ∈ s₁.hashed) (hvalid : validateResponse x.step body = .ok output) :
      Outcome s x r ({ s₁ with db, history := s₁.history ++ [Entry.recorded r x.root x.llm output] }.leave x
        (.ok { output, effective := x.step, callId := r.callId, reused := false }))

variable {x : Execution} {r : Reservation}

omit [Sha256] [Chrono] in
theorem Settled.refl (s : ModelSystem) : Settled s s := .of_stage s s.stage

omit [Sha256] [Chrono] in
theorem Settled.trans {s₁ s₂ : ModelSystem} (h : Settled s s₁) (h' : Settled s₁ s₂) : Settled s s₂ := by
  obtain ⟨f, hcalls, hf⟩ := h.calls
  obtain ⟨f', hcalls', hf'⟩ := h'.calls
  refine ⟨⟨h.extend.runs.trans h'.extend.runs, h.extend.snapshots.trans h'.extend.snapshots,
    fun t ht => h'.extend.hashed t (h.extend.hashed t ht)⟩, ⟨f' ∘ f, ?_, fun call hcall => ?_⟩,
    h'.nextCall.trans h.nextCall, fun hall => h'.files (h.files hall)⟩
  · rw [hcalls', hcalls, List.map_map]
  · obtain ⟨hsame, hstatus, hresponse⟩ := hf call hcall
    obtain ⟨hsame', hstatus', hresponse'⟩ := hf' (f call) (hcalls ▸ List.mem_map_of_mem hcall)
    exact ⟨⟨hsame'.reservation.trans hsame.reservation, hsame'.request.trans hsame.request,
      hsame'.audit.trans hsame.audit⟩, hstatus'.trans hstatus,
      fun hdone => (hresponse' (hstatus.2 hdone)).trans (hresponse hdone)⟩

/-- Files and hashes before the reply is judged. -/
theorem Outcome.of_settled {s₁ : ModelSystem} (h : Outcome s₁ x r s') (hsettled : Settled s s₁)
    (hhistory : s₁.history = s.history) (hdb : s₁.db = s.db) : Outcome s x r s' := by
  cases h with
  | retried hsettled' hhistory' retries =>
    exact .retried (hsettled.trans hsettled') (hhistory'.trans hhistory) retries
  | refused hsettled' hhistory' e =>
    exact .refused (hsettled.trans hsettled') (hhistory'.trans hhistory) e
  | recorded hsettled' hhistory' hdb' hfinish hid hsucceeded hresponse hstored hbody hvalid =>
    exact .recorded (hsettled.trans hsettled') (hhistory'.trans hhistory) (hdb'.trans hdb) hfinish hid
      hsucceeded hresponse hstored hbody hvalid

theorem Outcome.hashed (h : Outcome s x r s') : ∀ t ∈ s.hashed, t ∈ s'.hashed := by
  cases h with
  | retried hsettled => exact hsettled.extend.hashed
  | refused hsettled => exact hsettled.extend.hashed
  | recorded hsettled => exact hsettled.extend.hashed

/-- A call that did not succeed is finished. -/
theorem finish_outcome (h : CoreInv s) (hpending : PendingInv s x r) (hid : completion.callId = r.callId)
    (hfailed : completion.status ≠ .succeeded) {next : ModelSystem → ModelSystem}
    (hnext : ∀ s₁, (∃ retries, next s₁ =
        { s₁ with stage := .looking { x with invalidRetries := retries } }) ∨
      ∃ e, next s₁ = s₁.leave x (.error e)) : Outcome s x r (s.finish x completion next) := by
  unfold ModelSystem.finish
  cases hfinish : finishCall s.db completion with
  | error e => exact .refused (.refl s) rfl e
  | ok db =>
    obtain ⟨call, hcall, rfl, hstatus, -⟩ := hpending.row
    have hsettled : Settled s { s with db } :=
      .of_finish hfinish h.numbered hcall hid.symm hstatus hfailed s.stage
    dsimp only
    rcases hnext { s with db } with ⟨retries, hs'⟩ | ⟨e, hs'⟩
    · rw [hs']
      exact .retried hsettled rfl retries
    · rw [hs']
      exact .refused hsettled rfl e

theorem judge_outcome (h : CoreInv s) (hpending : PendingInv s x r) {saved : SnapshotRef} {body : Text}
    (hstored : Stored s.snapshots saved body) (hbody : body ∈ s.hashed) (status : ℕ) (now : ℤ) :
    Outcome s x r (s.judge x r saved status body now) := by
  unfold ModelSystem.judge
  dsimp only
  split_ifs with hhttp
  · cases hvalid : validateResponse x.step body with
    | ok output =>
      dsimp only
      unfold ModelSystem.finish
      split
      · exact .refused (.refl s) rfl _
      · exact @Outcome.recorded _ _ _ s x r s _ _ _ _ _ (.refl s) rfl rfl ‹_› rfl rfl rfl hstored
          hbody hvalid
    | error e =>
      refine finish_outcome h hpending rfl CallStatus.noConfusion fun s₁ => ?_
      split_ifs with hretry
      · exact .inl ⟨_, rfl⟩
      · exact .inr ⟨e, rfl⟩
  · exact finish_outcome h hpending rfl CallStatus.noConfusion fun s₁ => .inr ⟨_, rfl⟩

/-- **What a reply can do.** -/
theorem receive_outcome (h : CoreInv s) (hpending : PendingInv s x r) (reply : Reply)
    (disk : Option ReportError) (now : ℤ) : Outcome s x r (s.receive x r reply disk now) := by
  unfold ModelSystem.receive
  dsimp only
  cases reply with
  | failed code =>
    exact finish_outcome h hpending rfl CallStatus.noConfusion fun s₁ => .inr ⟨_, rfl⟩
  | response status body =>
    dsimp only
    cases hput : disk.elim (s.snapshots.putBytes x.run.runId (lit "model-response") body) .error with
    | error e =>
      have hsettled := Settled.of_hashed s [body] s.stage
      dsimp only
      cases hfinish : finishCall s.db _ with
      | error _ => exact .refused hsettled rfl e
      | ok db =>
        obtain ⟨call, hcall, rfl, hstatus, -⟩ := hpending.row
        refine @Outcome.refused _ _ _ s x _ { s with db, hashed := s.hashed ++ [body] } (hsettled.trans ?_) rfl e
        exact .of_finish (s := { s with hashed := s.hashed ++ [body] }) hfinish h.numbered hcall rfl
          hstatus CallStatus.noConfusion s.stage
    | ok stores =>
      obtain ⟨saved, snapshots⟩ := stores
      cases disk with
      | some e => cases hput
      | none =>
        have hsettled := Settled.of_put hput
        exact (judge_outcome (h.settle hsettled rfl) (hpending.extend hsettled.extend rfl rfl)
          (.of_put hput) (by simp) status now).of_settled hsettled rfl rfl

theorem ModelInv.receive (h : ModelInv s) (hstage : s.stage = .sent x r) (houtcome : Outcome s x r s') :
    ModelInv s' := by
  have hs := h.stage
  unfold StageInv at hs
  rw [hstage] at hs
  obtain ⟨hx, hpending, hsent⟩ := hs
  cases houtcome with
  | @retried s₁ hsettled hhistory retries =>
    have hcore := h.core.settle hsettled hhistory
    have hx' := hx.settle hsettled.extend hsettled.same
    have hstage := Settled.of_stage s₁ (.looking { x with invalidRetries := retries })
    have hx'' := hx'.settle hstage.extend hstage.same
    exact ⟨hcore.settle hstage rfl, hx''.found, hx''.valid, hx''.samePlan, hx''.hashed, hx''.roots⟩
  | refused hsettled hhistory e => exact (h.core.settle hsettled hhistory).leave x _
  | recorded hsettled hhistory hdb hfinish hid hsucceeded hresponse hstored hbody hvalid =>
    have hpending' := hpending.extend hsettled.extend hdb hhistory
    exact CoreInv.leave ((h.core.settle hsettled hhistory).record hpending' (hhistory ▸ hsent) hfinish
      hid hsucceeded hresponse hstored hbody hvalid hx.valid) x _

end Finish

/-! ### Every run -/

section Runs

variable [Chrono] [ReportRules]

theorem ModelInv.modelStep (h : ModelInv s) {e : ModelEvent} (hstep : Reports.modelStep s e = .ok s') :
    ModelInv s' := by
  cases e with
  | operate e =>
    simp only [Reports.modelStep] at hstep
    split at hstep
    · next db hidle hbeside hop =>
      cases hstep
      have hsettled := Settled.of_keeps (operate_keeps hbeside hop)
      refine ⟨h.core.settle hsettled rfl, ?_⟩
      unfold StageInv
      rw [hidle]
      trivial
    · cases hstep
  | put run kind bytes =>
    simp only [Reports.modelStep] at hstep
    split at hstep
    · next reference snapshots hput =>
      cases hstep
      have hsettled := Settled.of_put hput
      exact ⟨h.core.settle hsettled rfl, h.stage.extend hsettled.extend rfl rfl rfl⟩
    · cases hstep
  | start id root llm allowNewCalls =>
    simp only [Reports.modelStep] at hstep
    split at hstep
    · next hidle =>
      cases hstep
      exact h.core.start id root llm allowNewCalls hidle
    · cases hstep
  | look now =>
    simp only [Reports.modelStep] at hstep
    split at hstep
    · next x hstage =>
      cases hstep
      exact h.look hstage now
    · cases hstep
  | send =>
    simp only [Reports.modelStep] at hstep
    split at hstep
    · next x r hstage =>
      cases hstep
      exact h.send hstage
    · cases hstep
  | receive reply disk now =>
    simp only [Reports.modelStep] at hstep
    split at hstep
    · next x r hstage =>
      cases hstep
      have hpending : PendingInv s x r := by
        have hs := h.stage
        unfold StageInv at hs
        rw [hstage] at hs
        exact hs.2.1
      exact h.receive hstage (receive_outcome h.core hpending reply disk now)
    · cases hstep
  | abort =>
    cases hstep
    exact ⟨h.core.settle (.of_stage s .idle) rfl, trivial⟩

omit [Chrono] [ReportRules] in
theorem modelInv_init (maxFileBytes : ℕ) : ModelInv (ModelSystem.init maxFileBytes) := by
  refine ⟨⟨⟨.nil, ?_⟩, rfl, ?_, ?_, ?_, ?_, ?_, ?_, ?_, eachAfter_nil⟩, trivial⟩
  all_goals simp [ModelSystem.init, Db.empty, sendsOf]

theorem modelInv_runModel (maxFileBytes : ℕ) (events : List ModelEvent) :
    ModelInv (runModel maxFileBytes events) :=
  applyAll_invariant (fun _ _ _ h hstep => h.modelStep hstep) events (modelInv_init maxFileBytes)

end Runs

end Audited

end DailyReport.Reports
