import DailyReport.Reports.Kept

/-!
# The laws of model calls

Every entry of the history of the runner is to be lawful after the entries before it: a request is
sent for a committed reservation with the next attempt number, and never after a call of the same
request succeeded (`CallLaw`); after it succeeded every execution returns its output (`ReplayLaw`).
The row of a call tells the plan that it was made with (`prior_eq_ok`).
-/

namespace DailyReport.Reports

open Lib ModelRules

/-! ### The laws of a history -/

section Laws

variable [ModelRules]

def Entry.reservation? : Entry → Option Reservation
  | .reserved r => some r
  | _ => none

/-- The reservations of a history. -/
def reservations (history : List Entry) : List Reservation := history.filterMap Entry.reservation?

/-- The reservation is one of the step of a generation. -/
def Reservation.isOf (generationId logicalStep : Text) (r : Reservation) : Bool :=
  decide (r.generationId = generationId ∧ r.logicalStep = logicalStep)

/-- A request that was sent for the step of a generation. -/
def Entry.sending? (generationId logicalStep : Text) : Entry → Option (Reservation × ℕ)
  | .sent r maxRetries => if r.isOf generationId logicalStep then some (r, maxRetries) else none
  | _ => none

def sendsOf (generationId logicalStep : Text) (history : List Entry) : List (Reservation × ℕ) :=
  history.filterMap (Entry.sending? generationId logicalStep)

/-- No call of the request is recorded. -/
def Unanswered (history : List Entry) (r : Reservation) : Prop :=
  ∀ r' root llm output, Entry.recorded r' root llm output ∈ history → r'.generationId = r.generationId →
    r'.requestFingerprint ≠ r.requestFingerprint

/-- What is reserved, sent and recorded. -/
def CallLaw (before : List Entry) : Entry → Prop
  | .reserved r =>
    r.attempt = ((reservations before).filter (·.isOf r.generationId r.logicalStep)).length + 1
  | .sent r maxRetries =>
    .reserved r ∈ before ∧ (∀ r' limit, Entry.sent r' limit ∈ before → r'.callId ≠ r.callId) ∧
      (sendsOf r.generationId r.logicalStep before).length < r.attempt ∧
      r.attempt ≤ maxRetries ∧ maxRetries ≤ 3 ∧ Unanswered before r
  | .recorded r root llm _ => (∃ maxRetries, Entry.sent r maxRetries ∈ before) ∧ Unanswered before r ∧
    validateIdentity root llm = .ok ()
  | .returned .. => True

/-- What is sent and returned for a step of a run that has succeeded. -/
def ReplayLaw (before : List Entry) : Entry → Prop
  | .sent r _ => ∀ r' root llm output, Entry.recorded r' root llm output ∈ before →
    r'.runId = r.runId →
    r'.logicalStep ≠ r.logicalStep
  | .returned id root llm result => ∀ r settings output,
    Entry.recorded r root settings output ∈ before → r.runId = id →
      (∃ found, result = .ok found ∧ found.output = output ∧ found.callId = r.callId) ∨
        ∃ e, result = .error e ∧ validateIdentity root llm = .error e
  | _ => True

/-- Canonical texts of plans can be read, and tell all that the runner asks of a plan. -/
structure CanonicalPlans : Prop where
  read : ∀ plan : Plan, ∃ plan', readPlan (text plan) = .ok plan' ∧ text plan' = text plan
  same : ∀ plan plan' : Plan, text plan = text plan' → bytes plan = bytes plan' ∧
    logicalStep plan = logicalStep plan' ∧ validateResponse plan = validateResponse plan'

/-- No two texts that were hashed have one digest. -/
def NoCollision [Sha256] (s : ModelSystem) : Prop :=
  ∀ a ∈ s.hashed, ∀ b ∈ s.hashed, Sha256.hex a = Sha256.hex b → a = b

end Laws

/-! ### The audit of a call -/

section Audit

variable [Sha256] [ModelRules]

/-- What the row of a call says about its plan. -/
def ModelCallRow.audit (call : ModelCallRow) : Option Json :=
  (readJson (call.usageJson.getD (lit "\x7b\x7d"))).toOption.map requestAudit

/-- The version and the identity of the root plan in an audit. -/
def auditedRoot (audit : Json) : Json × Json :=
  (fieldOf audit (lit "model_plan_version"), fieldOf audit (lit "root_plan_sha256"))

/-- The version and the identity of a plan. -/
def rootMark (root : Plan) : Json × Json := (.num (version root).toNat, .str (identity root))

theorem auditedRoot_auditJson (root step : Plan) (revision : SnapshotRef) :
    auditedRoot (auditJson root step revision) = rootMark root := by
  have hversion : lit "model_plan_version" ≠ lit "root_plan_sha256" := by decide +kernel
  have hrevision : lit "plan_revision" ≠ lit "root_plan_sha256" := by decide +kernel
  have hprompt : lit "prompt_sha256" ≠ lit "root_plan_sha256" := by decide +kernel
  have hschema : lit "response_schema_sha256" ≠ lit "root_plan_sha256" := by decide +kernel
  simp [auditedRoot, rootMark, auditJson, fieldOf, Json.get, hversion, hrevision,
    hprompt, hschema]

theorem revision_auditJson (root step : Plan) (revision : SnapshotRef) :
    SnapshotRef.read (fieldOf (auditJson root step revision) (lit "plan_revision")) = some revision := by
  have hversion : lit "model_plan_version" ≠ lit "plan_revision" := by decide +kernel
  have hpath : lit "path" ≠ lit "sha256" := by decide +kernel
  simp [auditJson, fieldOf, Json.get, hversion, SnapshotRef.read, SnapshotRef.json,
    Json.size, hpath, Json.asStr]

omit [Sha256] [ModelRules] in
theorem requestAudit_mergeUsage (old usage : Json) :
    requestAudit (mergeUsage old usage) = requestAudit old := by
  unfold requestAudit fieldOf
  rw [mergeUsage_get (by decide +kernel), mergeUsage_get (by decide +kernel)]

omit [Sha256] [ModelRules] in
/-- The audit of a reservation. -/
theorem audit_usageText (job : Option Text) (audit : Json) {call : ModelCallRow}
    (h : call.usageJson = some (usageText job audit.print)) : call.audit = some audit := by
  have hjob : lit "job_id" ≠ lit "request_audit" := by decide +kernel
  have hprint : usageText job audit.print =
      (Json.obj [(lit "job_id", Json.ofNullable Json.str job), (lit "request_audit", audit)]).print := by
    have hopen : lit "\x7b\"job_id\":" = '{' :: (Json.printStr (lit "job_id") ++ [':']) := by decide +kernel
    have hnext : lit ",\"request_audit\":" = ',' :: (Json.printStr (lit "request_audit") ++ [':']) := by
      decide +kernel
    have hclose : lit "\x7d" = ['}'] := by decide +kernel
    simp [usageText, hopen, hnext, hclose, Json.print, Json.printFields]
  unfold ModelCallRow.audit
  rw [h, Option.getD_some, hprint, readJson_print]
  simp [Except.toOption, requestAudit, Json.get, hjob]

omit [Sha256] [ModelRules] in
theorem asU64_eq_some_num {v : Json} {n : ℕ} (h : v.asU64 = some n) : v = .num n := by
  cases v with
  | num m =>
    simp only [Json.asU64] at h
    split_ifs at h
    cases h
    rfl
  | null | bool | str | arr | obj => cases h

omit [Sha256] [ModelRules] in
theorem asStr_eq_some_str {v : Json} {t : Text} (h : v.asStr = some t) : v = .str t := by
  cases v with
  | str s =>
    cases h
    rfl
  | null | bool | num | arr | obj => cases h

theorem prior_eq_ok {snapshots : Snapshots} {root plan : Plan} {row : ModelCallRow} :
    prior snapshots root row = .ok plan ↔ ∃ audit reference found, row.audit = some audit ∧
      auditedRoot audit = rootMark root ∧
      SnapshotRef.read (fieldOf audit (lit "plan_revision")) = some reference ∧
      snapshots.readBytes reference = .ok found ∧ readPlan found = .ok plan ∧
      identity plan = identity root := by
  unfold prior ModelCallRow.audit auditedRoot rootMark
  cases hread : readJson (row.usageJson.getD (lit "\x7b\x7d")) with
  | error e =>
    constructor
    · intro h
      cases h
    · rintro ⟨_, _, _, haudit, -⟩
      cases haudit
  | ok usage =>
    have hversion : (version root).toNat ≤ u64Max := by
      have := (version root).toNat_lt
      unfold u64Max
      omega
    simp only [bind_eq_ok, ensure_eq_ok]
    constructor
    · rintro ⟨_, hok, _, ⟨hversion, hroot⟩, h⟩
      cases hok
      cases hreference : SnapshotRef.read (fieldOf (requestAudit usage) (lit "plan_revision")) with
      | none =>
        rw [hreference] at h
        cases h
      | some reference =>
        rw [hreference] at h
        simp only [bind_eq_ok, ensure_eq_ok, Except.ok.injEq] at h
        obtain ⟨found, hfound, plan', hplan, _, hidentity, rfl⟩ := h
        refine ⟨_, reference, found, rfl, ?_, hreference, hfound, hplan, hidentity⟩
        rw [asU64_eq_some_num hversion, asStr_eq_some_str hroot]
    · rintro ⟨audit, reference, found, haudit, hroot, hreference, hfound, hplan, hidentity⟩
      cases haudit
      obtain ⟨hmodel, hsha⟩ := Prod.mk.inj hroot
      refine ⟨usage, rfl, (), ⟨?_, ?_⟩, ?_⟩
      · rw [hmodel, Json.asU64_num hversion]
      · rw [hsha]
        rfl
      · rw [hreference]
        simp only [bind_eq_ok, ensure_eq_ok]
        exact ⟨found, hfound, plan, hplan, (), hidentity, rfl⟩

end Audit

end DailyReport.Reports
