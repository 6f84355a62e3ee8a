import DailyReport.Lib.History
import DailyReport.Reports.Calls
import DailyReport.Reports.System

/-!
# The model runner

An execution of a planned step looks for a successful call of the same request and replays it, or
reserves an attempt, sends the request, and records the reply.  One execution runs at a time, under
the lock of the reports.  Between its steps the process may crash; between executions the store may
be used in any way.  The history tells what was reserved, sent, recorded and returned, in order.
-/

namespace DailyReport.Reports

open Lib

/-- What the runner needs to know of plans, settings and responses. -/
class ModelRules where
  Plan : Type
  Llm : Type
  Output : Type
  version : Plan → UInt32
  logicalStep : Plan → Text
  schemaSha256 : Plan → Text
  promptSha256 : Plan → Text
  /-- The canonical JSON of a plan. -/
  text : Plan → Text
  /-- Read a plan from the bytes of a snapshot. -/
  readPlan : Text → Except ReportError Plan
  /-- The canonical JSON of the request of a plan. -/
  bytes : Plan → Text
  validateIdentity : Plan → Llm → Except ReportError Unit
  checkCapacity : Plan → Llm → Except ReportError Unit
  validateResponse : Plan → Text → Except ReportError Output
  /-- The usage that a response reports. -/
  usage : Text → Json
  maxRetries : Llm → ℕ
  invalidResponseRetries : Llm → ℕ

open ModelRules

/-! ### The frozen plan of a step -/

/-- `value[key]`. -/
def fieldOf (v : Json) (key : Text) : Json := (v.get key).getD .null

def requestAudit (usage : Json) : Json :=
  match usage.get (lit "request_audit") with
  | some audit => audit
  | none => fieldOf (fieldOf usage (lit "reserved_budget")) (lit "request_audit")

def SnapshotRef.json (reference : SnapshotRef) : Json :=
  .obj [(lit "path", .str reference.path), (lit "sha256", .str reference.sha256)]

/-- Unknown fields are refused. -/
def SnapshotRef.read (v : Json) : Option SnapshotRef :=
  if v.size = 2 then
    match (v.get (lit "path")).bind Json.asStr, (v.get (lit "sha256")).bind Json.asStr with
    | some path, some sha256 => some ⟨path, sha256⟩
    | _, _ => none
  else none

def planMismatch (message : String) : ReportError :=
  reportError "MODEL_PLAN_IDENTITY_MISMATCH" message

section Plans

variable [Sha256] [ModelRules]

/-- `PlannedStep::identity`. -/
def identity (plan : Plan) : Text := Sha256.hex (text plan)

/-- What the reservation of a call says about its plan. -/
def auditJson (root step : Plan) (revision : SnapshotRef) : Json :=
  .obj
    [(lit "model_plan_version", .num (version root).toNat), (lit "plan_revision", revision.json),
      (lit "prompt_sha256", .str (promptSha256 step)),
      (lit "response_schema_sha256", .str (schemaSha256 step)),
      (lit "root_plan_sha256", .str (identity root)), (lit "source_ranges", .obj [])]

/-- The plan that a call was made with, which is to be a revision of the root. -/
def prior (snapshots : Snapshots) (root : Plan) (row : ModelCallRow) : Except ReportError Plan := do
  let usage ← readJson (row.usageJson.getD (lit "\x7b\x7d"))
  let audit := requestAudit usage
  ensure ((fieldOf audit (lit "model_plan_version")).asU64 = some (version root).toNat ∧
      (fieldOf audit (lit "root_plan_sha256")).asStr = some (identity root))
    (planMismatch "已有步骤对应不同的冻结模型计划")
  match SnapshotRef.read (fieldOf audit (lit "plan_revision")) with
  | none => .error (planMismatch "冻结模型计划引用缺失")
  | some reference => do
    let bytes ← snapshots.readBytes reference
    let plan ← readPlan bytes
    ensure (identity plan = identity root) (planMismatch "模型修订不符合一次缩批规则")
    .ok plan

/-- The plan of the last call of the step, if there is one. -/
def effective (db : Db) (snapshots : Snapshots) (root : Plan) (generationId : Text) :
    Except ReportError Plan := do
  let priors ← (generationCalls db generationId (logicalStep root)).mapM (prior snapshots root)
  .ok (priors.getLast?.getD root)

/-- What the identity of a request is the digest of. -/
def identityText (run : RunRecord) (step : Plan) : Text :=
  (Json.obj
    [(lit "config_fingerprint", .str run.configFingerprint),
      (lit "generation_id", .str run.generationId), (lit "plan_sha256", .str (identity step)),
      (lit "request_sha256", .str (Sha256.hex (bytes step)))]).print

def requestIdentity (run : RunRecord) (step : Plan) : Text := Sha256.hex (identityText run step)

end Plans

/-! ### An execution -/

section Executions

variable [ModelRules]

/-- An execution of a step, with the row of its run as it was read first. -/
structure Execution where
  run : RunRecord
  root : Plan
  /-- The effective plan. -/
  step : Plan
  llm : Llm
  allowNewCalls : Bool
  invalidRetries : ℕ

structure StepResult where
  output : Output
  effective : Plan
  callId : ℕ
  reused : Bool

/-- `reference`. -/
def callReference (reference : Option SnapshotRef) : Except ReportError SnapshotRef :=
  match reference with
  | some reference => .ok reference
  | none => .error (reportError "MODEL_CALL_SNAPSHOT_MISSING" "调用快照引用不完整")

def reuseMismatch : ReportError :=
  reportError "MODEL_REUSE_IDENTITY_MISMATCH" "成功响应的输入身份不一致"

variable [Sha256]

/-- What an execution starts with. -/
def enter (db : Db) (snapshots : Snapshots) (id : Text) (root : Plan) (llm : Llm)
    (allowNewCalls : Bool) : Except ReportError Execution := do
  validateIdentity root llm
  let run ← readRun db id
  let step ← effective db snapshots root run.generationId
  .ok { run, root, step, llm, allowNewCalls, invalidRetries := 0 }

/-- Replay a successful call. -/
def reuse (db : Db) (snapshots : Snapshots) (x : Execution) (row : ModelCallRow) :
    Except ReportError StepResult := do
  let priorRun ← readRun db row.runId
  ensure (priorRun.scopeId = x.run.scopeId ∧ priorRun.targetDate = x.run.targetDate ∧
    priorRun.configFingerprint = x.run.configFingerprint) reuseMismatch
  let request ← callReference row.request
  let requestBytes ← snapshots.readBytes request
  ensure (requestBytes = bytes x.step) reuseMismatch
  let response ← callReference row.response
  let body ← snapshots.readBytes response
  let output ← validateResponse x.step body
  .ok { output, effective := x.step, callId := row.callId, reused := true }

variable [Chrono]

/-- Reserve the next attempt.  The files that a refused reservation leaves are written by an event
of their own. -/
def reserve (db : Db) (snapshots : Snapshots) (x : Execution) (now : ℤ) :
    Except ReportError (Db × Snapshots) := do
  ensure (x.allowNewCalls = true)
    (reportError "RECOVERY_CONFIG_CHANGED" "配置已改变且仍有未完成的模型步骤")
  checkCapacity x.step x.llm
  let (request, snapshots) ← snapshots.putBytes x.run.runId (lit "model-request") (bytes x.step)
  let (revision, snapshots) ← snapshots.putBytes x.run.runId (lit "model-plan") (text x.step)
  let db ← reserveCall db
    { runId := x.run.runId, fingerprint := requestIdentity x.run x.step
      logicalStep := logicalStep x.step, request, jobId := none
      audit := (auditJson x.root x.step revision).print, maxAttempts := maxRetries x.llm, now }
  .ok (db, snapshots)

end Executions

/-! ### The history -/

/-- A reservation that is committed. -/
structure Reservation where
  callId : ℕ
  runId : Text
  generationId : Text
  requestFingerprint : Text
  logicalStep : Text
  attempt : ℕ
  deriving DecidableEq

def ModelCallRow.reservation (call : ModelCallRow) : Reservation where
  callId := call.callId
  runId := call.runId
  generationId := call.generationId
  requestFingerprint := call.requestFingerprint
  logicalStep := call.logicalStep
  attempt := call.attempt

section System

variable [ModelRules]

inductive Entry
  | reserved (reservation : Reservation)
  /-- The request of a reservation was sent, with the settings' limit of attempts. -/
  | sent (reservation : Reservation) (maxRetries : ℕ)
  /-- The reservation was recorded as succeeded, with what its response says by the plan. -/
  | recorded (reservation : Reservation) (root : Plan) (llm : Llm) (output : Output)
  | returned (runId : Text) (root : Plan) (llm : Llm) (result : Except ReportError StepResult)

inductive Stage
  | idle
  | looking (x : Execution)
  | reserved (x : Execution) (reservation : Reservation)
  | sent (x : Execution) (reservation : Reservation)

/-- The stores, the execution that is running, its history, and the texts that were hashed. -/
structure ModelSystem where
  db : Db
  snapshots : Snapshots
  stage : Stage
  history : List Entry
  hashed : List Text

def ModelSystem.init (maxFileBytes : ℕ) : ModelSystem where
  db := .empty
  snapshots := ⟨[], maxFileBytes⟩
  stage := .idle
  history := []
  hashed := []

/-- What the transport brings back. -/
inductive Reply
  | failed (code : Text)
  | response (status : ℕ) (body : Text)

inductive ModelEvent
  /-- The store is used, by another program part or another process. -/
  | operate (e : Event)
  /-- A snapshot is written, by another program part or by an execution that goes no further. -/
  | put (run kind bytes : Text)
  | start (id : Text) (root : Plan) (llm : Llm) (allowNewCalls : Bool)
  | look (now : ℤ)
  | send
  /-- The reply is there; the disk may fail to save it. -/
  | receive (reply : Reply) (disk : Option ReportError) (now : ℤ)
  /-- The process crashes, or its clock, its disk or its transport stops it. -/
  | abort

/-- The operations that are the runner's own, or delete what a run left behind. -/
def Event.beside : Event → Bool
  | .reserveCall _ | .compact .. => false
  | _ => true

/-- The execution returns. -/
def ModelSystem.leave (s : ModelSystem) (x : Execution) (result : Except ReportError StepResult) :
    ModelSystem :=
  { s with
    stage := .idle, history := s.history ++ [.returned x.run.runId x.root x.llm result] }

variable [Sha256]

def ModelSystem.start (s : ModelSystem) (id : Text) (root : Plan) (llm : Llm)
    (allowNewCalls : Bool) : ModelSystem :=
  match enter s.db s.snapshots id root llm allowNewCalls with
  | .error e => { s with history := s.history ++ [.returned id root llm (.error e)] }
  | .ok x => { s with stage := .looking x, hashed := s.hashed ++ [text root, text x.step] }

variable [Chrono]

/-- The identity of the request is looked up; a new attempt is reserved if no call succeeded. -/
def ModelSystem.look (s : ModelSystem) (x : Execution) (now : ℤ) : ModelSystem :=
  let s := { s with hashed := s.hashed ++ [bytes x.step, identityText x.run x.step] }
  match successfulCall s.db x.run.generationId (requestIdentity x.run x.step) with
  | some row => s.leave x (reuse s.db s.snapshots x row)
  | none =>
    match reserve s.db s.snapshots x now with
    | .error e => s.leave x (.error e)
    | .ok (db, snapshots) =>
      let reservation :=
        { callId := s.db.nextCall, runId := x.run.runId, generationId := x.run.generationId
          requestFingerprint := requestIdentity x.run x.step, logicalStep := logicalStep x.step
          attempt := attemptsOf s.db x.run.generationId (logicalStep x.step) + 1 }
      { s with
        db, snapshots, stage := .reserved x reservation
        history := s.history ++ [.reserved reservation] }

/-- Finish the call and go on; the execution returns if that is refused. -/
def ModelSystem.finish (s : ModelSystem) (x : Execution) (completion : CallCompletion)
    (next : ModelSystem → ModelSystem) : ModelSystem :=
  match finishCall s.db completion with
  | .error e => s.leave x (.error e)
  | .ok db => next { s with db }

def modelResponseInvalid : Text := lit "MODEL_RESPONSE_INVALID"

/-- A reply that is saved: it is checked against the plan. -/
def ModelSystem.judge (s : ModelSystem) (x : Execution) (r : Reservation) (saved : SnapshotRef)
    (status : ℕ) (body : Text) (now : ℤ) : ModelSystem :=
  let completion (status : CallStatus) (errorCode : Option Text) : CallCompletion :=
    { callId := r.callId, status, response := some saved, usage := usage body, errorCode, now }
  if ¬ (200 ≤ status ∧ status < 300) then
    s.finish x (completion .failed (some (lit "MODEL_HTTP_ERROR"))) fun s =>
      s.leave x (.error ⟨lit "MODEL_HTTP_ERROR", lit "模型服务返回 HTTP " ++ decimal status⟩)
  else
    match validateResponse x.step body with
    | .ok output =>
      s.finish x (completion .succeeded none) fun s =>
        { s with history := s.history ++ [Entry.recorded r x.root x.llm output] }.leave x
          (.ok { output, effective := x.step, callId := r.callId, reused := false })
    | .error e =>
      s.finish x (completion .failed (some e.code)) fun s =>
        if e.code = modelResponseInvalid ∧ x.invalidRetries < invalidResponseRetries x.llm ∧
            attemptsOf s.db x.run.generationId (logicalStep x.step) < maxRetries x.llm then
          { s with stage := .looking { x with invalidRetries := x.invalidRetries + 1 } }
        else s.leave x (.error e)

def ModelSystem.receive (s : ModelSystem) (x : Execution) (r : Reservation) (reply : Reply)
    (disk : Option ReportError) (now : ℤ) : ModelSystem :=
  let unknown (code : Text) : CallCompletion :=
    { callId := r.callId, status := .unknown, response := none, usage := .obj []
      errorCode := some code, now }
  match reply with
  | .failed code =>
    s.finish x (unknown code) fun s => s.leave x (.error ⟨code, lit "模型通信未取得完整响应"⟩)
  | .response status body =>
    let s := { s with hashed := s.hashed ++ [body] }
    match disk.elim (s.snapshots.putBytes x.run.runId (lit "model-response") body) .error with
    | .error e =>
      -- whether the call could be finished does not matter
      let finished := finishCall s.db (unknown (lit "MODEL_RESPONSE_SAVE_FAILED"))
      { s with db := finished.toOption.getD s.db }.leave x (.error e)
    | .ok (saved, snapshots) => { s with snapshots }.judge x r saved status body now

variable [ReportRules]

/-- An event that cannot happen at the stage is refused. -/
def modelStep (s : ModelSystem) : ModelEvent → Except Unit ModelSystem
  | .operate e =>
    match s.stage, e.beside, operate s.db e with
    | .idle, true, .ok db => .ok { s with db }
    | _, _, _ => .error ()
  | .put run kind bytes =>
    match s.snapshots.putBytes run kind bytes with
    | .ok (_, snapshots) => .ok { s with snapshots, hashed := s.hashed ++ [bytes] }
    | .error _ => .error ()
  | .start id root llm allowNewCalls =>
    match s.stage with
    | .idle => .ok (s.start id root llm allowNewCalls)
    | _ => .error ()
  | .look now =>
    match s.stage with
    | .looking x => .ok (s.look x now)
    | _ => .error ()
  | .send =>
    match s.stage with
    | .reserved x r =>
      .ok { s with stage := .sent x r, history := s.history ++ [.sent r (maxRetries x.llm)] }
    | _ => .error ()
  | .receive reply disk now =>
    match s.stage with
    | .sent x r => .ok (s.receive x r reply disk now)
    | _ => .error ()
  | .abort => .ok { s with stage := .idle }

/-- The state after a run. -/
def runModel (maxFileBytes : ℕ) (events : List ModelEvent) : ModelSystem :=
  applyAll modelStep (ModelSystem.init maxFileBytes) events

end System

end DailyReport.Reports
