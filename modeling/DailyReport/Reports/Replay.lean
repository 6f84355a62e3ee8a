import DailyReport.Reports.Audited

/-!
# Model calls are bounded and replayed

When no two texts that were hashed collide, the calls of a step have one plan (`Agreed`), an
execution of a step that succeeded finds the call (`look_replays`), and every entry of the history is
lawful (`ReplayInv`).  The main result is `model_calls_replayed`.
-/

namespace DailyReport.Reports

open Lib ModelRules

section Replay

variable [Sha256] [ModelRules] {s s' : ModelSystem} {call call' : ModelCallRow} {run : RunRecord}
  {root step : Plan} {output : Output} {x : Execution} {r : Reservation}

/-! ### One digest, one text -/

/-- The calls of a step of a generation have one root plan. -/
def Agreed (db : Db) : Prop :=
  ∀ call ∈ db.calls, ∀ other ∈ db.calls, call.generationId = other.generationId →
    call.logicalStep = other.logicalStep →
      call.audit.map auditedRoot = other.audit.map auditedRoot

omit [Sha256] [ModelRules] in
theorem Agreed.same {db db' : Db} (h : Agreed db) (hsame : SameCalls db db') : Agreed db' := by
  obtain ⟨f, hcalls, hf⟩ := hsame
  intro call' hcall' other' hother' hgeneration hstep
  rw [hcalls] at hcall' hother'
  obtain ⟨call, hcall, rfl⟩ := List.mem_map.1 hcall'
  obtain ⟨other, hother, rfl⟩ := List.mem_map.1 hother'
  obtain ⟨-, -, hgen, -, hname, -⟩ := Reservation.mk.inj (hf call hcall).reservation
  obtain ⟨-, -, hgen', -, hname', -⟩ := Reservation.mk.inj (hf other hother).reservation
  rw [(hf call hcall).audit, (hf other hother).audit]
  exact h call hcall other hother (by rw [← hgen, ← hgen', hgeneration])
    (by rw [← hname, ← hname', hstep])

/-- A file is the text that it was stored for. -/
theorem Stored.read_eq (h : CoreInv s) (hdigest : NoCollision s) {reference : SnapshotRef} {t : Text}
    (hstored : Stored s.snapshots reference t) (ht : t ∈ s.hashed) :
    s.snapshots.readBytes reference = .ok t := by
  obtain ⟨found, hfound, hhash⟩ := hstored
  obtain ⟨-, hfile, -⟩ := Snapshots.readBytes_eq_ok.1 hfound
  rw [hfound, hdigest found (h.files _ _ hfile) t ht hhash]

/-- The plan of a call is the root that the call was made for. -/
theorem Documented.text_eq (h : Documented s call run root step) (hdigest : NoCollision s) :
    text step = text root :=
  hdigest _ (h.hashed _ (by simp)) _ (h.hashed _ (by simp)) h.samePlan

theorem ExecutionInv.text_eq (h : ExecutionInv s x) (hdigest : NoCollision s) :
    text x.step = text x.root := hdigest _ h.hashed.2 _ h.hashed.1 h.samePlan

/-- A plan with the mark of the root of a call. -/
theorem Documented.root_eq (h : Documented s call run root step) (hdigest : NoCollision s)
    {root' : Plan} (hmark : call.audit.map auditedRoot = some (rootMark root'))
    (hroot' : text root' ∈ s.hashed) : text root' = text root := by
  rw [h.mark] at hmark
  obtain ⟨-, hidentity⟩ := Prod.mk.inj (Option.some.inj hmark)
  exact (hdigest _ (h.hashed _ (by simp)) _ hroot' (Json.str.inj hidentity)).symm

/-- An execution of the plan of a call makes the call's request. -/
theorem Documented.request_eq (h : Documented s call run root step) (hplans : CanonicalPlans)
    (hx : ExecutionInv s x) (hdigest : NoCollision s) (hrun : call.runId = x.run.runId)
    (hroot : text x.root = text root) :
    call.generationId = x.run.generationId ∧ call.requestFingerprint = requestIdentity x.run x.step ∧
      x.run.SameWork run ∧ text x.step = text step := by
  obtain ⟨run', hfound, hwork⟩ := hx.found
  have hrow := h.found
  rw [hrun, hfound] at hrow
  cases hrow
  have htext : text x.step = text step := by
    rw [hx.text_eq hdigest, hroot, h.text_eq hdigest]
  refine ⟨h.generationId.trans hwork.generationId, ?_, hwork, htext⟩
  rw [h.fingerprint]
  unfold requestIdentity
  rw [identityText_sameWork hwork]
  unfold identityText identity
  rw [htext, (hplans.same _ _ htext).1]

/-- **An execution of a step that succeeded replays the call.** -/
theorem look_replays (h : CoreInv s) (hplans : CanonicalPlans) (hdigest : NoCollision s)
    (hx : ExecutionInv s x) {llm : Llm} (hrecorded : Entry.recorded r x.root llm output ∈ s.history)
    (hrun : r.runId = x.run.runId) :
    ∃ row ∈ s.db.calls, row.reservation = r ∧ row.status = .succeeded ∧
      row.generationId = x.run.generationId ∧
      row.requestFingerprint = requestIdentity x.run x.step ∧
      successfulCall s.db x.run.generationId (requestIdentity x.run x.step) = some row ∧
      reuse s.db s.snapshots x row =
        .ok { output, effective := x.step, callId := r.callId, reused := true } := by
  obtain ⟨row, hrow, rfl, hsucceeded, run, step, response, body, hdocumented, hresponse, hstored, hbody,
    hvalid⟩ := h.recorded r x.root llm output hrecorded
  obtain ⟨hgeneration, hfingerprint, hwork, htext⟩ :=
    hdocumented.request_eq hplans hx hdigest hrun rfl
  have hfound : successfulCall s.db x.run.generationId (requestIdentity x.run x.step) = some row := by
    cases hcall : successfulCall s.db x.run.generationId (requestIdentity x.run x.step) with
    | none =>
      exact absurd hsucceeded (successfulCall_eq_none.1 hcall row hrow hgeneration hfingerprint)
    | some other =>
      obtain ⟨hother, hgeneration', hfingerprint', hsucceeded'⟩ := successfulCall_eq_some hcall
      rw [h.unique other hother row hrow hsucceeded' hsucceeded (hgeneration'.trans hgeneration.symm)
        (hfingerprint'.trans hfingerprint.symm)]
  refine ⟨row, hrow, rfl, hsucceeded, hgeneration, hfingerprint, hfound, ?_⟩
  obtain ⟨hbytes, -, hvalidate⟩ := hplans.same _ _ htext
  obtain ⟨reference, hrequest, hfile⟩ := hdocumented.request
  unfold reuse
  simp only [bind_eq_ok, ensure_eq_ok, Except.ok.injEq]
  refine ⟨run, readRun_eq_ok.2 hdocumented.found, (),
    ⟨hwork.scopeId, hwork.targetDate, hwork.configFingerprint⟩, reference, by rw [hrequest]; rfl,
    bytes step, hfile.read_eq h hdigest (hdocumented.hashed _ (by simp)), (), hbytes.symm, response,
    by rw [hresponse]; rfl, body, hstored.read_eq h hdigest hbody, output, ?_, rfl⟩
  rw [hvalidate]
  exact hvalid

/-- The plan of a call of the step is read from its file. -/
theorem Documented.prior_eq (h : Documented s call run root step) (hcore : CoreInv s)
    (hplans : CanonicalPlans) (hdigest : NoCollision s) {root' : Plan}
    (hmark : call.audit.map auditedRoot = some (rootMark root')) (hroot' : text root' ∈ s.hashed) :
    ∃ plan, prior s.snapshots root' call = .ok plan ∧ text plan = text root' := by
  have hsame := h.root_eq hdigest hmark hroot'
  obtain ⟨revision, haudit, hstored⟩ := h.audit
  obtain ⟨plan, hplan, htext⟩ := hplans.read step
  have hplanText : text plan = text root' := by rw [htext, h.text_eq hdigest, hsame]
  refine ⟨plan, prior_eq_ok.2 ⟨_, revision, text step, haudit, ?_, revision_auditJson root step revision,
    hstored.read_eq hcore hdigest (h.hashed _ (by simp)), hplan, congrArg Sha256.hex hplanText⟩,
    hplanText⟩
  rw [haudit] at hmark
  exact Option.some.inj hmark

/-- An execution of a step that succeeded gets as far as to look for the call. -/
theorem enter_replays (h : CoreInv s) (hplans : CanonicalPlans) (hdigest : NoCollision s)
    (hagreed : Agreed s.db) {settings llm : Llm}
    (hrecorded : Entry.recorded r root settings output ∈ s.history)
    (hvalid : validateIdentity root llm = .ok ()) (allowNewCalls : Bool) :
    ∃ x, enter s.db s.snapshots r.runId root llm allowNewCalls = .ok x ∧ x.root = root ∧
      x.llm = llm ∧ x.run.runId = r.runId ∧ text x.step = text root ∧ text root ∈ s.hashed := by
  obtain ⟨row, hrow, rfl, -, run, step, -, -, hdocumented, -⟩ := h.recorded r root settings output hrecorded
  have hroot : text root ∈ s.hashed := hdocumented.hashed _ (by simp)
  have hnamed : row.logicalStep = logicalStep root := by
    rw [hdocumented.named, (hplans.same _ _ (hdocumented.text_eq hdigest)).2.1]
  have hpriors : ∀ other ∈ generationCalls s.db run.generationId (logicalStep root),
      ∃ plan, prior s.snapshots root other = .ok plan ∧ text plan = text root := by
    intro other hother
    unfold generationCalls at hother
    rw [mem_sortByKey, List.mem_filter, decide_eq_true_eq] at hother
    obtain ⟨hother, hgeneration, hother'⟩ := hother
    obtain ⟨run', root', step', hdocumented'⟩ := h.documented other hother
    refine hdocumented'.prior_eq h hplans hdigest ?_ hroot
    rw [hagreed other hother row hrow (hgeneration.trans hdocumented.generationId.symm)
      (hother'.trans hnamed.symm)]
    exact hdocumented.mark
  obtain ⟨priors, hmap⟩ := exists_mapM fun other hother => (hpriors other hother).imp fun _ h => h.1
  have hstep : effective s.db s.snapshots root run.generationId = .ok (priors.getLast?.getD root) := by
    unfold effective
    rw [hmap]
    rfl
  obtain ⟨hid, -⟩ := findRun_own hdocumented.found
  refine ⟨{ run, root, step := priors.getLast?.getD root, llm, allowNewCalls, invalidRetries := 0 }, ?_,
    rfl, rfl, hid, ?_, hroot⟩
  · simp only [enter, bind_eq_ok, Except.ok.injEq]
    exact ⟨(), hvalid, run, readRun_eq_ok.2 hdocumented.found, _, hstep, rfl⟩
  · dsimp only
    cases hlast : priors.getLast? with
    | none => rfl
    | some plan =>
      obtain ⟨other, hother, hplan⟩ := (mem_of_mapM hmap).2 plan (List.mem_of_getLast? hlast)
      obtain ⟨plan', hplan', htext⟩ := hpriors other hother
      rw [hplan] at hplan'
      cases hplan'
      exact htext

/-! ### Every entry is lawful -/

structure ReplayInv (s : ModelSystem) : Prop where
  agreed : Agreed s.db
  lawful : EachAfter ReplayLaw s.history

/-- Nothing was recorded for a request that has no successful call. -/
theorem not_recorded (h : CoreInv s) (hplans : CanonicalPlans) (hdigest : NoCollision s)
    (hx : ExecutionInv s x)
    (hnone : ∀ call ∈ s.db.calls, call.generationId = x.run.generationId →
      call.requestFingerprint = requestIdentity x.run x.step → call.status ≠ .succeeded)
    {r : Reservation} {llm : Llm} (hrun : r.runId = x.run.runId) :
    Entry.recorded r x.root llm output ∉ s.history := by
  intro hrecorded
  obtain ⟨row, hrow, -, hsucceeded, hgeneration, hfingerprint, -⟩ :=
    look_replays h hplans hdigest hx hrecorded hrun
  exact hnone row hrow hgeneration hfingerprint hsucceeded

/-- An execution that finds no successful call may return anything. -/
theorem ReplayInv.leave (h : ReplayInv s) (hcore : CoreInv s) (hplans : CanonicalPlans)
    (hdigest : NoCollision s) (hx : ExecutionInv s x)
    (hnone : ∀ call ∈ s.db.calls, call.generationId = x.run.generationId →
      call.requestFingerprint = requestIdentity x.run x.step → call.status ≠ .succeeded)
    (hagreed : Agreed s'.db) (hhistory : s'.history = s.history)
    (result : Except ReportError StepResult) : ReplayInv (s'.leave x result) := by
  refine ⟨hagreed, ?_⟩
  show EachAfter ReplayLaw (s'.history ++ [_])
  rw [hhistory]
  refine eachAfter_append.2 ⟨h.lawful, fun r llm output hrecorded hrun => ?_⟩
  exact absurd hrecorded (not_recorded hcore hplans hdigest hx hnone hrun)

theorem StageInv.execution (h : StageInv s) (hstage : s.stage = .looking x) : ExecutionInv s x := by
  unfold StageInv at h
  rwa [hstage] at h

theorem ReplayInv.start (h : ReplayInv s) (hcore : CoreInv s) (hplans : CanonicalPlans)
    (hdigest : NoCollision s) (id : Text) (root : Plan) (llm : Llm) (allowNewCalls : Bool) :
    ReplayInv (s.start id root llm allowNewCalls) := by
  unfold ModelSystem.start
  cases henter : enter s.db s.snapshots id root llm allowNewCalls with
  | ok x => exact ⟨h.agreed, h.lawful⟩
  | error e =>
    refine ⟨h.agreed, eachAfter_append.2 ⟨h.lawful, fun r settings output hrecorded hrun => ?_⟩⟩
    subst hrun
    cases hvalid : validateIdentity root llm with
    | ok _ =>
      obtain ⟨x, hx, -⟩ := enter_replays hcore hplans hdigest h.agreed hrecorded hvalid allowNewCalls
      rw [hx] at henter
      cases henter
    | error e' =>
      have herror : enter s.db s.snapshots r.runId root llm allowNewCalls = .error e' := by
        unfold enter
        rw [hvalid]
        rfl
      cases henter.symm.trans herror
      exact .inr ⟨_, rfl, rfl⟩

section Calls

variable [Chrono] {now : ℤ}

theorem ReplayInv.look (h : ReplayInv s) (hmodel : ModelInv s) (hplans : CanonicalPlans)
    (hdigest : NoCollision s) (hstage : s.stage = .looking x) : ReplayInv (s.look x now) := by
  have hx := hmodel.stage.execution hstage
  unfold ModelSystem.look
  dsimp only
  cases hcall : successfulCall s.db x.run.generationId (requestIdentity x.run x.step) with
  | some row =>
    refine ⟨h.agreed, eachAfter_append.2 ⟨h.lawful, fun r llm output hrecorded hrun => ?_⟩⟩
    obtain ⟨row', -, -, -, -, -, hfound, hreuse⟩ :=
      look_replays hmodel.core hplans hdigest hx hrecorded hrun
    cases hcall.symm.trans hfound
    exact .inl ⟨_, hreuse, rfl, rfl⟩
  | none =>
    have hnone := successfulCall_eq_none.1 hcall
    dsimp only
    cases hreserve : reserve s.db s.snapshots x now with
    | error e =>
      show ReplayInv (ModelSystem.leave
        { s with hashed := s.hashed ++ [bytes x.step, identityText x.run x.step] } x (.error e))
      refine h.leave hmodel.core hplans hdigest hx hnone ?_ ?_ _
      · exact h.agreed
      · rfl
    | ok stores =>
      obtain ⟨db, snapshots⟩ := stores
      obtain ⟨run, row, hrun, -, -, -, hcalls, -, -, hreservation, -, ⟨revision, haudit, -⟩, -⟩ :=
        reserve_eq_ok hreserve
      obtain ⟨run', hfound, hwork⟩ := hx.found
      cases hfound.symm.trans hrun
      obtain ⟨-, -, hgeneration, -, hnamed, -⟩ := Reservation.mk.inj hreservation
      have hroot : logicalStep x.step = logicalStep x.root :=
        (hplans.same _ _ (hx.text_eq hdigest)).2.1
      have hmark : row.audit.map auditedRoot = some (rootMark x.root) := by
        rw [haudit, Option.map_some, auditedRoot_auditJson]
      -- the calls of the step that were there have the root of the execution
      have hold : ∀ call ∈ s.db.calls, call.generationId = row.generationId →
          call.logicalStep = row.logicalStep → call.audit.map auditedRoot = row.audit.map auditedRoot := by
        intro call hmem hsameGeneration hsameStep
        rw [hmark]
        exact hx.roots call hmem (by rw [hsameGeneration, hgeneration, hwork.generationId])
          (by rw [hsameStep, hnamed, hroot])
      refine ⟨?_, eachAfter_append.2 ⟨h.lawful, trivial⟩⟩
      intro call hmem other hother hsameGeneration hsameStep
      show call.audit.map auditedRoot = _
      dsimp only at hmem hother
      rw [hcalls, List.mem_append, List.mem_singleton] at hmem hother
      rcases hmem with hmem | rfl
      · rcases hother with hother | rfl
        · exact h.agreed call hmem other hother hsameGeneration hsameStep
        · exact hold call hmem hsameGeneration hsameStep
      · rcases hother with hother | rfl
        · exact (hold other hother hsameGeneration.symm hsameStep.symm).symm
        · rfl

omit [Chrono] in
theorem ReplayInv.send (h : ReplayInv s) (hmodel : ModelInv s) (hplans : CanonicalPlans)
    (hdigest : NoCollision s) (hstage : s.stage = .reserved x r) :
    ReplayInv { s with stage := .sent x r, history := s.history ++ [.sent r (maxRetries x.llm)] } := by
  have hs := hmodel.stage
  unfold StageInv at hs
  rw [hstage] at hs
  obtain ⟨hx, hpending, -⟩ := hs
  refine ⟨h.agreed, eachAfter_append.2 ⟨h.lawful, fun r' root llm output hrecorded hrun hstep => ?_⟩⟩
  obtain ⟨row, hrow, rfl, hsucceeded, run, step, -, -, hdocumented, -⟩ :=
    hmodel.core.recorded r' root llm output hrecorded
  obtain ⟨call, hcall, rfl, -, run', hwork', hdocumented'⟩ := hpending.row
  obtain ⟨hrunId, hgeneration, hfingerprint, -⟩ := hpending.columns
  -- both calls are of one run, so of one generation, and have one root
  have hfound := hdocumented.found
  rw [show row.runId = call.runId from hrun, hdocumented'.found] at hfound
  cases hfound
  have hmark : row.audit.map auditedRoot = some (rootMark x.root) := by
    rw [h.agreed row hrow call hcall (hdocumented.generationId.trans hdocumented'.generationId.symm) hstep]
    exact hdocumented'.mark
  have hroot := hdocumented.root_eq hdigest hmark hx.hashed.1
  obtain ⟨hsameGeneration, hrequest, -⟩ :=
    hdocumented.request_eq hplans hx hdigest ((show row.runId = call.runId from hrun).trans hrunId) hroot
  exact hpending.unanswered row hrow (hsameGeneration.trans hgeneration.symm)
    (hrequest.trans hfingerprint.symm) hsucceeded

theorem ReplayInv.receive (h : ReplayInv s) (hmodel : ModelInv s) (hplans : CanonicalPlans)
    (hdigest : NoCollision s) (hstage : s.stage = .sent x r) (houtcome : Outcome s x r s') :
    ReplayInv s' := by
  have hs := hmodel.stage
  unfold StageInv at hs
  rw [hstage] at hs
  obtain ⟨hx, hpending, -⟩ := hs
  obtain ⟨-, hgeneration, hfingerprint, -⟩ := hpending.columns
  have hnone : ∀ call ∈ s.db.calls, call.generationId = x.run.generationId →
      call.requestFingerprint = requestIdentity x.run x.step → call.status ≠ .succeeded := by
    rw [← hgeneration, ← hfingerprint]
    exact hpending.unanswered
  cases houtcome with
  | retried hsettled hhistory retries => exact ⟨h.agreed.same hsettled.same, hhistory ▸ h.lawful⟩
  | refused hsettled hhistory e =>
    exact h.leave hmodel.core hplans hdigest hx hnone (h.agreed.same hsettled.same) hhistory _
  | recorded hsettled hhistory hdb hfinish hid hsucceeded hresponse hstored hbody hvalid =>
    obtain ⟨call, hcall, rfl, hstatus, -⟩ := hpending.row
    have hsame := SameCalls.of_finish hfinish (hdb ▸ hmodel.core.numbered) (hdb ▸ hcall) hid.symm hstatus
    refine ⟨(h.agreed.same hsettled.same).same hsame, ?_⟩
    show EachAfter ReplayLaw ((_ ++ [_]) ++ [_])
    rw [hhistory]
    refine eachAfter_append.2 ⟨eachAfter_append.2 ⟨h.lawful, trivial⟩, fun r llm output' hrecorded hrun => ?_⟩
    rw [List.mem_append, List.mem_singleton] at hrecorded
    rcases hrecorded with hold | hnew
    · exact absurd hold (not_recorded hmodel.core hplans hdigest hx hnone hrun)
    · obtain ⟨rfl, -, -, rfl⟩ := Entry.recorded.inj hnew
      exact .inl ⟨_, rfl, rfl, rfl⟩

end Calls

/-! ### Every run -/

section Runs

variable [Chrono] [ReportRules]

/-- What was hashed stays hashed. -/
theorem modelStep_hashed (h : ModelInv s) {e : ModelEvent} (hstep : modelStep s e = .ok s') :
    ∀ t ∈ s.hashed, t ∈ s'.hashed := by
  intro t ht
  cases e with
  | operate e =>
    simp only [modelStep] at hstep
    split at hstep <;> cases hstep
    exact ht
  | put run kind bytes =>
    simp only [modelStep] at hstep
    split at hstep <;> cases hstep
    exact List.mem_append_left _ ht
  | start id root llm allowNewCalls =>
    simp only [modelStep] at hstep
    split at hstep <;> cases hstep
    unfold ModelSystem.start
    split
    · exact ht
    · exact List.mem_append_left _ ht
  | look now =>
    simp only [modelStep] at hstep
    split at hstep <;> cases hstep
    unfold ModelSystem.look
    dsimp only
    split
    · exact List.mem_append_left _ ht
    · split <;> exact List.mem_append_left _ ht
  | send =>
    simp only [modelStep] at hstep
    split at hstep <;> cases hstep
    exact ht
  | receive reply disk now =>
    simp only [modelStep] at hstep
    split at hstep
    · next x r hstage =>
      cases hstep
      have hs := h.stage
      unfold StageInv at hs
      rw [hstage] at hs
      exact (receive_outcome h.core hs.2.1 reply disk now).hashed t ht
    · cases hstep
  | abort =>
    cases hstep
    exact ht

theorem ReplayInv.modelStep (h : ReplayInv s) (hmodel : ModelInv s) (hplans : CanonicalPlans)
    (hdigest : NoCollision s) {e : ModelEvent} (hstep : Reports.modelStep s e = .ok s') :
    ReplayInv s' := by
  cases e with
  | operate e =>
    simp only [Reports.modelStep] at hstep
    split at hstep
    · next db hidle hbeside hop =>
      cases hstep
      exact ⟨h.agreed.same (Settled.of_keeps (operate_keeps hbeside hop)).same, h.lawful⟩
    · cases hstep
  | put run kind bytes =>
    simp only [Reports.modelStep] at hstep
    split at hstep <;> cases hstep
    exact ⟨h.agreed, h.lawful⟩
  | start id root llm allowNewCalls =>
    simp only [Reports.modelStep] at hstep
    split at hstep <;> cases hstep
    exact h.start hmodel.core hplans hdigest id root llm allowNewCalls
  | look now =>
    simp only [Reports.modelStep] at hstep
    split at hstep
    · next x hstage =>
      cases hstep
      exact h.look hmodel hplans hdigest hstage
    · cases hstep
  | send =>
    simp only [Reports.modelStep] at hstep
    split at hstep
    · next x r hstage =>
      cases hstep
      exact h.send hmodel hplans hdigest hstage
    · cases hstep
  | receive reply disk now =>
    simp only [Reports.modelStep] at hstep
    split at hstep
    · next x r hstage =>
      cases hstep
      have hs := hmodel.stage
      unfold StageInv at hs
      rw [hstage] at hs
      exact h.receive hmodel hplans hdigest hstage (receive_outcome hmodel.core hs.2.1 reply disk now)
    · cases hstep
  | abort =>
    cases hstep
    exact ⟨h.agreed, h.lawful⟩

theorem replayInv_runModel (hplans : CanonicalPlans) (maxFileBytes : ℕ) (events : List ModelEvent)
    (hdigest : NoCollision (runModel maxFileBytes events)) :
    ReplayInv (runModel maxFileBytes events) := by
  have hrun : ModelInv (runModel maxFileBytes events) ∧
      (NoCollision (runModel maxFileBytes events) → ReplayInv (runModel maxFileBytes events)) := by
    refine applyAll_invariant
      (I := fun s => ModelInv s ∧ (NoCollision s → ReplayInv s)) ?_ events
      ⟨modelInv_init maxFileBytes, fun _ => ⟨?_, eachAfter_nil⟩⟩
    · rintro s e s' ⟨hmodel, hreplay⟩ hstep
      refine ⟨hmodel.modelStep hstep, fun hdigest => ?_⟩
      have hhashed := modelStep_hashed hmodel hstep
      have hbefore : NoCollision s := fun a ha b hb => hdigest a (hhashed a ha) b (hhashed b hb)
      exact (hreplay hbefore).modelStep hmodel hplans hbefore hstep
    · intro call hcall
      cases hcall
  exact hrun.2 hdigest

omit [Chrono] [ReportRules] [Sha256] in
/-- A step is sent at most as often as every sending allows. -/
theorem sendsOf_length_le {history : List Entry} (h : EachAfter CallLaw history)
    {generationId logicalStep : Text} {n : ℕ}
    (hlimit : ∀ sending ∈ sendsOf generationId logicalStep history, sending.2 ≤ n) :
    (sendsOf generationId logicalStep history).length ≤ n := by
  refine EachAfter.length_filterMap_le fun before entry later hsplit hsending => ?_
  have hlaw := h before entry later hsplit
  obtain ⟨sending, hsome⟩ := Option.isSome_iff_exists.1 hsending
  have hmem : sending ∈ sendsOf generationId logicalStep history :=
    List.mem_filterMap.2 ⟨entry, by simp [hsplit], hsome⟩
  cases entry with
  | sent r limit =>
    simp only [Entry.sending?] at hsome
    split_ifs at hsome with hof
    cases hsome
    obtain ⟨rfl, rfl⟩ := of_decide_eq_true hof
    obtain ⟨-, -, hless, hattempt, -⟩ := hlaw
    have := hlimit _ hmem
    unfold sendsOf at hless
    dsimp only at this
    omega
  | reserved | recorded | returned => cases hsome

/-- **A later execution of a step that succeeded returns its output.** -/
theorem execution_replays (hmodel : ModelInv s) (hreplay : ReplayInv s) (hplans : CanonicalPlans)
    (hdigest : NoCollision s) {settings llm : Llm}
    (hrecorded : Entry.recorded r root settings output ∈ s.history) (hidle : s.stage = .idle)
    (hvalid : validateIdentity root llm = .ok ()) (allowNewCalls : Bool) (now : ℤ) : ∃ step,
      (applyAll modelStep s [.start r.runId root llm allowNewCalls, .look now]).history =
        s.history ++ [.returned r.runId root llm
          (.ok { output, effective := step, callId := r.callId, reused := true })] := by
  obtain ⟨x, henter, hroot, hllm, hrun, htext, hhashed⟩ := enter_replays hmodel.core hplans hdigest
    hreplay.agreed hrecorded hvalid allowNewCalls
  subst hroot hllm
  -- the execution begins, and finds the call
  have hstart : s.start r.runId x.root x.llm allowNewCalls =
      { s with stage := .looking x, hashed := s.hashed ++ [text x.root, text x.step] } := by
    unfold ModelSystem.start
    rw [henter]
  have hbegun := hmodel.core.start r.runId x.root x.llm allowNewCalls hidle
  rw [hstart] at hbegun
  have hold : ∀ t ∈ s.hashed ++ [text x.root, text x.step], t ∈ s.hashed := by
    intro t ht
    simp only [htext, List.mem_append, List.mem_cons, List.not_mem_nil, or_false, or_self] at ht
    rcases ht with ht | rfl
    · exact ht
    · exact hhashed
  obtain ⟨row, -, -, -, -, -, hfound, hreuse⟩ := look_replays hbegun.core hplans
    (fun a ha b hb => hdigest a (hold a ha) b (hold b hb)) (hbegun.stage.execution rfl) hrecorded hrun.symm
  have hfirst : modelStep s (.start r.runId x.root x.llm allowNewCalls) =
      .ok { s with stage := .looking x, hashed := s.hashed ++ [text x.root, text x.step] } := by
    unfold modelStep
    dsimp only
    rw [hidle, ← hstart]
  refine ⟨x.step, ?_⟩
  rw [applyAll_cons, applyAll_cons, applyAll_nil, applyEvent_of_ok hfirst]
  show (ModelSystem.look { s with
    stage := .looking x, hashed := s.hashed ++ [text x.root, text x.step] } x now).history = _
  unfold ModelSystem.look
  dsimp only
  rw [show successfulCall s.db x.run.generationId (requestIdentity x.run x.step) = some row from hfound]
  dsimp only
  rw [show reuse s.db s.snapshots x row = _ from hreuse]
  show s.history ++ [Entry.returned x.run.runId x.root x.llm _] = _
  rw [hrun]

/-- **Model calls are bounded and replayed**, in every run of executions, crashes, resumptions and
other operations of the store. -/
theorem model_calls_replayed (maxFileBytes : ℕ) (events : List ModelEvent) :
    let s := runModel maxFileBytes events
    EachAfter CallLaw s.history ∧
    s.db.calls.map ModelCallRow.reservation = reservations s.history ∧
    (∀ generationId logicalStep,
      (sendsOf generationId logicalStep s.history).length ≤ 3 ∧
      ∀ n, (∀ sending ∈ sendsOf generationId logicalStep s.history, sending.2 ≤ n) →
        (sendsOf generationId logicalStep s.history).length ≤ n) ∧
    (∀ call ∈ s.db.calls, call.status = .succeeded ↔
      ∃ root llm output, Entry.recorded call.reservation root llm output ∈ s.history) ∧
    (CanonicalPlans → NoCollision s →
      EachAfter ReplayLaw s.history ∧
      ∀ r root settings output, Entry.recorded r root settings output ∈ s.history →
        s.stage = .idle → ∀ llm allowNewCalls now, validateIdentity root llm = .ok () → ∃ step,
          (runModel maxFileBytes (events ++ [.start r.runId root llm allowNewCalls, .look now])).history =
            s.history ++ [.returned r.runId root llm
              (.ok { output, effective := step, callId := r.callId, reused := true })]) := by
  intro s
  have hmodel : ModelInv s := modelInv_runModel maxFileBytes events
  refine ⟨hmodel.core.lawful, hmodel.core.rows, fun generationId logicalStep => ⟨?_, fun n hn =>
    sendsOf_length_le hmodel.core.lawful hn⟩, fun call hcall => ⟨hmodel.core.succeeded call hcall, ?_⟩,
    fun hplans hdigest => ?_⟩
  · refine sendsOf_length_le hmodel.core.lawful fun sending hsending => ?_
    obtain ⟨entry, hentry, hsome⟩ := List.mem_filterMap.1 hsending
    obtain ⟨before, later, hsplit⟩ := List.append_of_mem hentry
    have hlaw := hmodel.core.lawful before entry later hsplit
    cases entry with
    | sent r limit =>
      simp only [Entry.sending?] at hsome
      split_ifs at hsome
      cases hsome
      exact hlaw.2.2.2.2.1
    | reserved | recorded | returned => cases hsome
  · rintro ⟨root, llm, output, hrecorded⟩
    obtain ⟨other, hother, hreservation, hsucceeded, -⟩ := hmodel.core.recorded _ root llm output hrecorded
    rwa [hmodel.core.numbered.eq_of_id hcall hother (congrArg Reservation.callId hreservation).symm]
  · have hreplay : ReplayInv s := replayInv_runModel hplans maxFileBytes events hdigest
    refine ⟨hreplay.lawful, fun r root settings output hrecorded hidle llm allowNewCalls now hvalid => ?_⟩
    unfold runModel
    rw [applyAll_append]
    exact execution_replays hmodel hreplay hplans hdigest hrecorded hidle hvalid allowNewCalls now

end Runs

end Replay

/-! ### A run that is sent again after a crash -/

section Resent

/-- A plan is its prompt, a response is a string, and the settings limit the attempts. -/
@[reducible] def promptRules : ModelRules where
  Plan := Text
  Llm := ℕ
  Output := Text
  version _ := 6
  logicalStep _ := lit "summary"
  schemaSha256 _ := []
  promptSha256 _ := []
  text plan := (Json.str plan).print
  readPlan t :=
    match Json.parse t with
    | some (.str plan) => .ok plan
    | _ => .error (planMismatch "冻结模型计划无效")
  bytes plan := (Json.obj [(lit "prompt", .str plan)]).print
  validateIdentity _ _ := .ok ()
  checkCapacity _ _ := .ok ()
  validateResponse _ body :=
    match Json.parse body with
    | some (.str output) => .ok output
    | _ => .error ⟨modelResponseInvalid, lit "模型响应结构、内容范围或引用无效"⟩
  usage _ := .null
  maxRetries n := n
  invalidResponseRetries _ := 1

def planDigest : Text := lit "dd3e8955d3a5ffeb7a7d3db22f06e294f71f57f1b717e9ae0ac76566e1a317da"

def requestDigest : Text := lit "93ac379d33a3ca3f1cc134d96094fbe9bb09ee57722c51c99227147270bfab6a"

/-- The digests of the plan, the request, its identity and the response of the run. -/
def callDigests : List (Text × Text) :=
  [(lit "\"work\"", planDigest),
    (lit "\x7b\"prompt\":\"work\"\x7d", requestDigest),
    (lit "\x7b\"config_fingerprint\":\"config\",\"generation_id\":\"" ++ runA ++
      lit "\",\"plan_sha256\":\"" ++ planDigest ++ lit "\",\"request_sha256\":\"" ++ requestDigest ++
      lit "\"\x7d", lit "709a4d8cb801bd167ad54f16631932a883c13e9f9bb512641d0d7552309a08db"),
    (lit "\"done\"", lit "58bf5b5478e5d1fb7441daeff9fd1ed60a4ad5fbfabc64715cd8608f3f59f6da")]

@[reducible] def callSha256 : Sha256 where
  hex t := (callDigests.lookup t).getD []

local instance replayChrono : Chrono := utcClock
local instance replaySha256 : Sha256 := callSha256
local instance replayRules : ReportRules := noRules
local instance replayPlans : ModelRules := promptRules

/-- The process crashes after it sent the request; the run is resumed, and the reply comes. -/
def resentRun : List ModelEvent :=
  (preparedRun runA 36000).map .operate ++
    [.start runA (lit "work") (3 : ℕ) true, .look (dayInstant 36060), .send, .abort,
      .operate (.resume runA (dayInstant 36120)), .start runA (lit "work") (3 : ℕ) true,
      .look (dayInstant 36180), .send,
      .receive (.response 200 (lit "\"done\"")) none (dayInstant 36240)]

/-- The second call of the run, recorded with the response of the run. -/
def isResent : Entry → Bool
  | .recorded r root _ output =>
    decide (r.runId = runA ∧ r.callId = 2 ∧ (show Text from root) = lit "work" ∧
      (show Text from output) = lit "done")
  | _ => false

def isIdle : Stage → Bool
  | .idle => true
  | _ => false

theorem canonicalPlans_promptRules : CanonicalPlans := by
  constructor
  · intro plan
    refine ⟨plan, ?_, rfl⟩
    show (match Json.parse (Json.str plan).print with
      | some (.str plan) => Except.ok plan
      | _ => Except.error (planMismatch "冻结模型计划无效")) = Except.ok plan
    rw [Json.parse_print]
  · intro plan plan' htext
    cases Json.str.inj (Json.print_injective htext)
    exact ⟨rfl, rfl, rfl⟩

set_option maxRecDepth 10000 in
theorem model_calls_replayed_resent :
    (sendsOf runA (lit "summary") (runModel 100000 resentRun).history).length = 2 ∧
      NoCollision (runModel 100000 resentRun) ∧
      ∃ step, (runModel 100000 (resentRun ++ [.start runA (lit "work") (3 : ℕ) true, .look 0])).history =
        (runModel 100000 resentRun).history ++ [.returned runA (lit "work") (3 : ℕ)
          (.ok { output := lit "done", effective := step, callId := 2, reused := true })] := by
  -- the run is evaluated once
  have hrun : (∀ a ∈ (runModel 100000 resentRun).hashed, ∀ b ∈ (runModel 100000 resentRun).hashed,
        Sha256.hex a = Sha256.hex b → a = b) ∧
      (runModel 100000 resentRun).history.any isResent = true ∧
      isIdle (runModel 100000 resentRun).stage = true ∧
      (sendsOf runA (lit "summary") (runModel 100000 resentRun).history).length = 2 := by
    decide +kernel
  obtain ⟨hdigest, hany, hidle, hsends⟩ := hrun
  obtain ⟨entry, hentry, hresent⟩ := List.any_eq_true.1 hany
  refine ⟨hsends, hdigest, ?_⟩
  obtain ⟨-, -, -, -, hreplayed⟩ := model_calls_replayed 100000 resentRun
  cases entry with
  | recorded r root settings output =>
    obtain ⟨hrun, hid, rfl, rfl⟩ := of_decide_eq_true hresent
    have hstage : (runModel 100000 resentRun).stage = .idle := by
      cases hs : (runModel 100000 resentRun).stage with
      | idle => rfl
      | looking | reserved | sent =>
        rw [hs] at hidle
        cases hidle
    have hlater := (hreplayed canonicalPlans_promptRules hdigest).2 r _ settings _ hentry hstage
      (3 : ℕ) true 0 rfl
    rw [hrun, hid] at hlater
    exact hlater
  | reserved | sent | returned => cases hresent

end Resent

end DailyReport.Reports
