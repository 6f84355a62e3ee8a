import DailyReport.Contract.Envelope
import DailyReport.Lib.Leases
import DailyReport.Lib.Transitions
import DailyReport.Scheduler.Ports

/-!
# The worker session pool

Parsers run in child processes that answer one request after another.  A session is such a child, a
slot holds at most one session, and a caller leases a slot for one operation: it starts a session
where there is none or where the old one is due to be retired, sends its request, and tries once more
with a new session when that fails.

The clock and the children are not modelled.  An `Event` is one uninterrupted piece of work of one
caller, with what the caller saw of them; the pieces of different callers come in any order.

`step_cases` says what an event does.
-/

namespace DailyReport.SessionPool

open Lib

/-! ### Failures -/

inductive SessionError
  | startFailed
  | timeout
  | crashed
  | eof
  | protocolCorruption (message : Text)
  | ioFailed
  | rejected (diagnostic : WorkerDiagnostic)
  | buildMismatch
  | frameTooLarge
  deriving DecidableEq

inductive FailureClass
  | deterministic
  | environmentUnavailable
  | contractFailure
  | recoverableParserFailure
  deriving DecidableEq

structure ParseFailure where
  failureClass : FailureClass
  diagnostic : Diagnostic
  deriving DecidableEq

/-- The error code that a worker's diagnostic is reported under. -/
def rejectedCode (errorCode : Text) : ErrorCode :=
  if errorCode = lit "INVALID_REQUEST" then .invalidRequest
  else if errorCode = lit "PARSER_START_FAILED" then .parserStartFailed
  else if errorCode = lit "PARSER_TIMEOUT" then .parserTimeout
  else if errorCode = lit "PARSER_INVALID_PAYLOAD" then .parserInvalidPayload
  else if errorCode = lit "SOURCE_VERSION_CHANGED" then .sourceVersionChanged
  else if errorCode = lit "INTERNAL_ERROR" then .internalError
  else .parserFailed

namespace SessionError

def isRetryableTransport : SessionError → Bool
  | .startFailed | .crashed | .eof => true
  | .rejected diagnostic => diagnostic.retryable
  | .ioFailed | .protocolCorruption _ | .buildMismatch | .frameTooLarge => false
  | .timeout => false

/-- The error code, the message and whether the failure is retryable. -/
def described : SessionError → ErrorCode × Text × Bool
  | .timeout => (.parserTimeout, lit "worker session exceeded its deadline", false)
  | .startFailed => (.parserStartFailed, lit "worker session could not be started", true)
  | .crashed => (.parserFailed, lit "worker session crashed before completing its response", true)
  | .eof => (.parserFailed, lit "worker session reached EOF before completing its response", true)
  | .ioFailed => (.parserInvalidPayload, lit "worker session transport failed", false)
  | .protocolCorruption message => (.parserInvalidPayload, message, false)
  | .rejected diagnostic =>
    (rejectedCode diagnostic.errorCode, diagnostic.message, diagnostic.retryable)
  | .buildMismatch =>
    (.workerBuildChanged, lit "session hello build does not match the preflight identity", false)
  | .frameTooLarge =>
    (.parserInvalidPayload, lit "worker session response exceeded its capture limit", false)

def diagnostic (e : SessionError) (filePath : Option Text) : ParseFailure :=
  let (code, message, retryable) := e.described
  ⟨if retryable then .recoverableParserFailure else .contractFailure,
    ⟨code, message, retryable, .process, filePath, none⟩⟩

end SessionError

inductive RetryAction
  | retrySession
  | giveUp
  deriving DecidableEq

def retryAction (error : SessionError) (sessionAttempt : ℕ) : RetryAction :=
  match error with
  | .timeout => .giveUp
  | .rejected diagnostic =>
    -- A request that names a stale source version stays stale.
    if diagnostic.errorCode = lit "SOURCE_VERSION_CHANGED" then .giveUp
    else if ¬diagnostic.retryable then .giveUp
    else if sessionAttempt = 0 then .retrySession
    else .giveUp
  -- Also after a failure that is not retryable.
  | _ => if sessionAttempt = 0 then .retrySession else .giveUp

/-! ### The envelope -/

def contractName : Text := lit "ai_daily_worker"

def contractVersion : Text := lit "ai_daily_worker_v4"

def protocolVersion : ℕ := 4

inductive WorkerKind
  | office
  | pdf
  deriving DecidableEq

inductive WorkerOperation
  | officeParse
  | pdfClassify
  | pdfParse
  | archiveOfficeParse
  | archivePdfParse
  | archiveTextParse
  deriving DecidableEq

structure WorkerHello where
  contract : Text
  protocolVersion : ℕ
  frame : Text
  workerContractVersion : Text
  workerKind : WorkerKind
  workerVersion : Text
  workerBuild : Text
  supportedOperations : List WorkerOperation
  deriving DecidableEq

inductive WorkerResponseStatus
  | ok
  | error
  deriving DecidableEq

/-- A response, whose result is a JSON value of the type `J`. -/
structure WorkerResponse (J : Type) where
  contract : Text
  protocolVersion : ℕ
  requestId : Text
  operation : WorkerOperation
  status : WorkerResponseStatus
  result : Option J
  error : Option WorkerDiagnostic

def validateCommon (contract : Text) (version : ℕ) : Checked :=
  if contract ≠ contractName then .error (lit "worker contract mismatch")
  else if version ≠ protocolVersion then .error (lit "worker protocol version mismatch")
  else .ok ()

/-- The character of a worker's request id at an index: a dash or a digit. -/
def uuidChar (index : ℕ) (c : Char) : Bool :=
  if index = 8 ∨ index = 13 ∨ index = 18 ∨ index = 23 then c == '-' else isHexDigit c

def validateRequestId (value : Text) : Checked :=
  if byteLength value = 36 ∧ (value.zipIdx.all fun p => uuidChar p.2 p.1) = true then .ok ()
  else .error (lit "request_id must be a canonical UUID")

def WorkerHello.validate (hello : WorkerHello) : Checked := do
  validateCommon hello.contract hello.protocolVersion
  if hello.frame ≠ lit "hello" then .error (lit "worker hello frame must be hello")
  else if hello.workerContractVersion ≠ contractVersion then
    .error (lit "worker contract version mismatch")
  else if hello.workerVersion = [] ∨ 1024 < byteLength hello.workerVersion then
    .error (lit "worker version is invalid")
  else if hello.workerBuild = [] ∨ 1024 < byteLength hello.workerBuild then
    .error (lit "worker build identity is invalid")
  else if hello.supportedOperations = [] then
    .error (lit "worker must support at least one operation")
  else if ¬hello.supportedOperations.Nodup then .error (lit "worker operations must be unique")
  else .ok ()

/-- A response has a result or an error, as its status tells. -/
def WorkerResponse.validate {J : Type} (response : WorkerResponse J) : Checked := do
  validateCommon response.contract response.protocolVersion
  validateRequestId response.requestId
  match response.status, response.result, response.error with
  | .ok, some _, none | .error, none, some _ => .ok ()
  | _, _, _ => .error (lit "worker response status/result/error mismatch")

/-! ### Requests -/

/-- A line that was read: its length, and what strict decoding finds in it. -/
structure Frame (A : Type) where
  length : ℕ
  decoded : Option A

/-- The bytes that a hello, a request and the response to a classification may have. -/
def frameLimit : ℕ := 1024 * 1024

def corruptIfError (label : String) (checked : Checked) : Except SessionError Unit :=
  checked.mapError fun message => .protocolCorruption (lit label ++ message)

/-- A request as it is sent, and how the result of its response is read. -/
structure SessionRequest (J T : Type) where
  requestId : Text
  operation : WorkerOperation
  validated : Except SessionError Unit
  /-- The bytes of the envelope. -/
  frame : Except SessionError ℕ
  captureLimit : Except SessionError ℕ
  result : J → Except SessionError T
  /-- What a response with neither a result nor an error is refused with. -/
  untagged : Text

/-- The result of a response is decoded and then checked. -/
def readResult {J T : Type} (decode : J → Option T) (undecoded : String) (check : T → Checked)
    (label : String) (result : J) : Except SessionError T :=
  match decode result with
  | none => .error (.protocolCorruption (lit undecoded))
  | some value => (corruptIfError label (check value)).map fun _ => value

/-- The request of `dispatch_classify`. -/
def classifySessionRequest {J T : Type} (request : ClassifyOperation) (validated : Checked)
    (frame : Option ℕ) (decode : J → Option T) (check : T → Checked) : SessionRequest J T where
  requestId := request.requestId
  operation := .pdfClassify
  validated := corruptIfError "classify request violates the strict contract: " validated
  frame := frame.elim (.error .ioFailed) .ok
  captureLimit := .ok frameLimit
  result := readResult decode "classify response result is not a classifier result" check
    "session classifier result violates the request page window: "
  untagged := lit "classify response violates the ok/error tagged union"

inductive ParserBackend
  | rustOfficeOxideV2
  | rustXlsxBoundedV2
  | rustXlsCalamineV3
  | rustPdfiumV3
  | rustLegacyOfficeV3
  deriving DecidableEq

def workerOperation : ParserBackend → WorkerOperation
  | .rustPdfiumV3 => .pdfParse
  | _ => .officeParse

/-- The request of `dispatch_parse`. -/
def parseSessionRequest {J T : Type} (requestId : Text) (backend : ParserBackend)
    (validated : Checked) (frame captureLimit : Option ℕ) (decode : J → Option T)
    (check : T → Checked) : SessionRequest J T where
  requestId
  operation := workerOperation backend
  validated := corruptIfError "parse request violates the strict contract: " validated
  frame := frame.elim (.error .ioFailed) .ok
  captureLimit := captureLimit.elim (.error .ioFailed) .ok
  result := readResult decode "parse response result is not a parse result" check
    "session parse result violates the domain contract: "
  untagged := lit "parse response violates the ok/error tagged union"

/-! ### Sessions -/

structure SessionParams where
  concurrency : ℕ
  maxRequestsPerSession : ℕ
  idleTtl : ℕ
  rssLimitBytes : ℕ
  deriving DecidableEq

structure WorkerSession where
  /-- The process of the child, until it is killed. -/
  child : Option ℕ
  requestsServed : ℕ
  deriving DecidableEq

/-- What became of starting a child, and its first line. -/
structure Start where
  spawned : Bool
  hello : Except SessionError (Frame WorkerHello)

/-- Whether a request was written, and the line that was read after it. -/
structure Exchange (J : Type) where
  written : Bool
  line : Except SessionError (Frame (WorkerResponse J))

def readHello (line : Except SessionError (Frame WorkerHello)) : Except SessionError WorkerHello := do
  let frame ← line
  if frameLimit < frame.length then .error .frameTooLarge
  else
    match frame.decoded with
    | none => .error (.protocolCorruption (lit "session hello is not one strict JSON frame"))
    | some hello => do
      corruptIfError "session hello violates the strict contract: " hello.validate
      .ok hello

/-- A session is started when its hello is exactly the expected one. -/
def startObserved (expected : WorkerHello) (start : Start) : Except SessionError Unit := do
  if start.spawned then
    let hello ← readHello start.hello
    if hello = expected then .ok () else .error .buildMismatch
  else .error .startFailed

def parseResponse {J T : Type} (request : SessionRequest J T) (decoded : Option (WorkerResponse J)) :
    Except SessionError (WorkerResponse J) :=
  match decoded with
  | none => .error (.protocolCorruption (lit "session stdout is not one strict JSON response"))
  | some response => do
    corruptIfError "session response violates the strict contract: " response.validate
    if response.contract = contractName ∧ response.protocolVersion = protocolVersion ∧
        response.operation = request.operation ∧ response.requestId = request.requestId then
      .ok response
    else
      .error (.protocolCorruption (lit "session response operation/contract/request_id mismatch"))

/-- What a response says to a request. -/
def SessionRequest.value {J T : Type} (request : SessionRequest J T) (response : WorkerResponse J) :
    Except SessionError T :=
  match response.status, response.result, response.error with
  | .ok, some result, _ => request.result result
  | .error, _, some diagnostic => .error (.rejected diagnostic)
  | _, _, _ => .error (.protocolCorruption request.untagged)

namespace WorkerSession

def kill (session : WorkerSession) : WorkerSession := { session with child := none }

/-- The peak memory of the child, where there is one. -/
def peakRssBytes (session : WorkerSession) (peak : Option ℕ) : Option ℕ :=
  session.child.bind fun _ => peak

/-- The session is not to be used any more; `idle` is the time since its last response. -/
def recycleDue (session : WorkerSession) (params : SessionParams) (idle : ℕ) (peak : Option ℕ) :
    Bool :=
  session.child.isNone || decide (params.maxRequestsPerSession ≤ session.requestsServed) ||
    decide (params.idleTtl ≤ idle) || peak.any fun rss => decide (params.rssLimitBytes ≤ rss)

def writeRequest (session : WorkerSession) (length : ℕ) (written : Bool) : Except SessionError Unit :=
  if frameLimit < length then .error .frameTooLarge
  else if session.child.isSome && written then .ok ()
  else .error .eof

variable {J T : Type}

/-- The response to a request. -/
def receive (session : WorkerSession) (request : SessionRequest J T) (exchange : Exchange J) :
    Except SessionError (WorkerResponse J) := do
  request.validated
  let length ← request.frame
  session.writeRequest length exchange.written
  let limit ← request.captureLimit
  let frame ← exchange.line
  if limit < frame.length then .error .frameTooLarge else parseResponse request frame.decoded

/-- A complete response is counted, also one that rejects the request. -/
def dispatch (session : WorkerSession) (request : SessionRequest J T) (exchange : Exchange J) :
    Except SessionError T × WorkerSession :=
  match session.receive request exchange with
  | .error error => (.error error, session)
  | .ok response =>
    (request.value response, { session with requestsServed := session.requestsServed + 1 })

end WorkerSession

/-! ### The pool -/

inductive WorkerTransport
  | session
  | notApplicable
  deriving DecidableEq

structure SessionOperationOutcome (T : Type) where
  value : T
  transport : WorkerTransport
  attemptCount : ℕ
  durationMs : ℕ

structure SessionOperationFailure where
  failure : ParseFailure
  transport : WorkerTransport
  attemptCount : ℕ
  durationMs : ℕ

structure SessionPoolStats where
  sessionRestartCount : ℕ
  peakWorkerRssBytes : Option ℕ
  deriving DecidableEq

structure PoolCounters where
  sessionRestartCount : ℕ
  peakWorkerRssBytes : ℕ
  rssObservationAttempted : Bool
  rssObservationFailed : Bool
  deriving DecidableEq

namespace PoolCounters

def observeRss (counters : PoolCounters) : Option ℕ → PoolCounters
  | some value => { counters with
      rssObservationAttempted := true
      peakWorkerRssBytes := max counters.peakWorkerRssBytes value }
  | none => { counters with rssObservationAttempted := true, rssObservationFailed := true }

def snapshot (counters : PoolCounters) : SessionPoolStats where
  sessionRestartCount := counters.sessionRestartCount
  peakWorkerRssBytes :=
    if counters.rssObservationFailed then none
    else if counters.rssObservationAttempted then some counters.peakWorkerRssBytes
    else some 0

end PoolCounters

structure SessionSlot where
  session : Option WorkerSession
  replacementPending : Bool
  deriving DecidableEq

/-- The slot has a session whose child was killed. -/
def SessionSlot.isDead (slot : SessionSlot) : Bool :=
  slot.session.any fun session => session.child.isNone

structure WorkerPool where
  expected : WorkerHello
  params : SessionParams
  slots : List SessionSlot
  /-- The slots that are not checked out, the one that is next at the end. -/
  available : List ℕ
  counters : PoolCounters

/-- The slots of a pool. -/
def SessionParams.slotCount (params : SessionParams) : ℕ := max params.concurrency 1

namespace WorkerPool

def new (expected : WorkerHello) (params : SessionParams) : WorkerPool where
  expected
  params
  slots := List.replicate params.slotCount ⟨none, false⟩
  available := (List.range params.slotCount).reverse
  counters := ⟨0, 0, false, false⟩

/-- One slot of `stats`. -/
def observeSlot (counters : PoolCounters) (slot : SessionSlot) (peak : Option ℕ) : PoolCounters :=
  match slot.session with
  | some session => counters.observeRss (session.peakRssBytes peak)
  | none => counters

/-- `stats`, with the peak memory of each child that lives. -/
def stats (pool : WorkerPool) (peaks : ℕ → Option ℕ) : SessionPoolStats :=
  (pool.slots.zipIdx.foldl (fun counters p => observeSlot counters p.1 (peaks p.2))
    pool.counters).snapshot

end WorkerPool

/-! ### Operations -/

/-- What a caller asks of the pool. -/
structure Task (J T : Type) where
  filePath : Text
  timeout : ℕ
  /-- The request that is sent with so much time remaining. -/
  request : ℕ → SessionRequest J T

/-- The variables of `execute_operation`. -/
structure Operation (J T : Type) where
  task : Task J T
  index : ℕ
  transportFailureIndex : ℕ
  sessionAttemptCount : ℕ
  sessionDurationMs : ℕ

abbrev Result (T : Type) := Except SessionOperationFailure (SessionOperationOutcome T)

/-- Where a caller stands. -/
inductive Phase (J T : Type)
  /-- It has not called yet, or has returned. -/
  | outside (last : Option (Task J T × Result T))
  /-- It is about to look for a slot. -/
  | awake (task : Task J T)
  /-- It waits for a slot to come back. -/
  | asleep (task : Task J T)
  /-- It is at the beginning of the loop. -/
  | looping (op : Operation J T)
  /-- It is about to start a session if there is none. -/
  | starting (op : Operation J T)
  /-- It is about to call the session. -/
  | ready (op : Operation J T)
  /-- It waits for the response. -/
  | busy (op : Operation J T) (remaining : ℕ)
  /-- It is about to give its slot back. -/
  | leaving (op : Operation J T) (result : Result T)

namespace Phase

variable {J T : Type}

def isAsleep : Phase J T → Bool
  | .asleep _ => true
  | _ => false

def isAwake : Phase J T → Bool
  | .awake _ => true
  | _ => false

/-- The operation that has a slot. -/
def operation : Phase J T → Option (Operation J T)
  | .outside _ | .awake _ | .asleep _ => none
  | .looping op | .starting op | .ready op | .busy op _ | .leaving op _ => some op

/-- A response is awaited from the session in the slot. -/
def busyAt (index : ℕ) : Phase J T → Bool
  | .busy op _ => op.index == index
  | _ => false

def hasSlot (index : ℕ) (phase : Phase J T) : Bool := phase.operation.any fun op => op.index == index

end Phase

/-- What has happened. -/
inductive Entry
  | entered (caller : ℕ)
  | started (index process : ℕ)
  | startFailed (caller : ℕ)
  | called (caller : ℕ) (process : Option ℕ)
  | answered (process : Option ℕ) (ok : Bool)
  | expired (index : ℕ)
  deriving DecidableEq

namespace Entry

/-- The process that an entry is about. -/
def process : Entry → Option ℕ
  | .started _ process => some process
  | .called _ process | .answered process _ => process
  | .entered _ | .startFailed _ | .expired _ => none

def calls (process : ℕ) : Entry → Bool
  | .called _ child => child == some process
  | _ => false

def succeeds (process : ℕ) : Entry → Bool
  | .answered child ok => child == some process && ok
  | _ => false

/-- The slot in which a session was started. -/
def startedSlot : Entry → Option ℕ
  | .started index _ => some index
  | _ => none

def calledBy (caller : ℕ) : Entry → Bool
  | .called caller' _ => caller' == caller
  | _ => false

def startFailedFor (caller : ℕ) : Entry → Bool
  | .startFailed caller' => caller' == caller
  | _ => false

end Entry

/-- What a caller does to its slot in one piece of work. -/
structure Work (J T : Type) where
  slot : SessionSlot
  counters : PoolCounters
  phase : Phase J T
  entries : List Entry

variable {J T : Type}

def Task.operation (task : Task J T) (index : ℕ) : Operation J T := ⟨task, index, 0, 0, 0⟩

namespace Operation

def remaining (op : Operation J T) (elapsed : ℕ) : ℕ := op.task.timeout - elapsed

def transportForAttempts (op : Operation J T) : WorkerTransport :=
  if 0 < op.sessionAttemptCount then .session else .notApplicable

def failed (op : Operation J T) (error : SessionError) (transport : WorkerTransport) : Phase J T :=
  .leaving op (.error ⟨error.diagnostic (some op.task.filePath), transport, op.sessionAttemptCount,
    op.sessionDurationMs⟩)

/-- What follows a failure: another try, or the end. -/
def afterFailure (op : Operation J T) (error : SessionError) (transport : WorkerTransport) :
    Phase J T :=
  match retryAction error op.transportFailureIndex with
  | .retrySession => .looping { op with transportFailureIndex := op.transportFailureIndex + 1 }
  | .giveUp => op.failed error transport

/-- A call of the session has been made. -/
def attempted (op : Operation J T) (took : ℕ) : Operation J T :=
  { op with
    sessionAttemptCount := min u64Max (op.sessionAttemptCount + 1)
    sessionDurationMs := min u64Max (op.sessionDurationMs + min u64Max took) }

section

variable (op : Operation J T) (slot : SessionSlot) (counters : PoolCounters)

/-- The deadline has passed. -/
def expire (peak : Option ℕ) : Work J T :=
  match slot.session with
  | none => ⟨slot, counters, op.failed .timeout op.transportForAttempts, []⟩
  | some session =>
    -- The session stays in the slot without its child, for the next operation to retire.
    ⟨⟨some session.kill, true⟩, counters.observeRss (session.peakRssBytes peak),
      op.failed .timeout op.transportForAttempts, [.expired op.index]⟩

/-- The beginning of the loop. -/
def loop (params : SessionParams) (elapsed idle : ℕ) (peak : Option ℕ) : Work J T :=
  if op.remaining elapsed = 0 then op.expire slot counters peak
  else
    match slot.session with
    | none => ⟨slot, counters, .starting op, []⟩
    | some session =>
      if session.recycleDue params idle peak then
        ⟨⟨none, true⟩, counters.observeRss (session.peakRssBytes peak), .starting op, []⟩
      else ⟨slot, counters, .starting op, []⟩

/-- A session is started, in a new process, if there is none. -/
def startSession (caller process : ℕ) (expected : WorkerHello) (start : Start) (peak : Option ℕ) :
    Work J T :=
  match slot.session with
  | some _ => ⟨slot, counters, .ready op, []⟩
  | none =>
    match startObserved expected start with
    | .ok () =>
      let observed := counters.observeRss peak
      ⟨⟨some ⟨some process, 0⟩, false⟩,
        if slot.replacementPending then
          { observed with sessionRestartCount := observed.sessionRestartCount + 1 }
        else observed,
        .ready op, [.started op.index process]⟩
    | .error error =>
      -- A failed start is neither a call nor a replacement.
      ⟨slot, counters, op.afterFailure error op.transportForAttempts, [.startFailed caller]⟩

/-- The session is called, unless the deadline has passed meanwhile. -/
def call (caller elapsed : ℕ) (peak : Option ℕ) : Option (Work J T) :=
  if op.remaining elapsed = 0 then some (op.expire slot counters peak)
  else slot.session.map fun session =>
    ⟨slot, counters, .busy op (op.remaining elapsed), [.called caller session.child]⟩

/-- The call returns. -/
def answer (remaining : ℕ) (exchange : Exchange J) (took : ℕ) (peak : Option ℕ) :
    Option (Work J T) :=
  slot.session.map fun session =>
    let op := op.attempted took
    match session.dispatch (op.task.request remaining) exchange with
    | (.ok value, served) =>
      ⟨{ slot with session := some served }, counters.observeRss (served.peakRssBytes peak),
        .leaving op (.ok ⟨value, .session, op.sessionAttemptCount, op.sessionDurationMs⟩),
        [.answered session.child true]⟩
    | (.error error, served) =>
      -- Whatever went wrong, the child is not used again.
      ⟨⟨none, true⟩, counters.observeRss (served.peakRssBytes peak),
        op.afterFailure error .session, [.answered session.child false]⟩

end

end Operation

/-! ### The callers of a pool -/

/-- A pool, its callers, and what has happened. -/
structure State (J T : Type) where
  pool : WorkerPool
  callers : List (Phase J T)
  /-- No process has this number or a greater one. -/
  nextProcess : ℕ
  log : List Entry

/-- One piece of work of one caller. -/
inductive Event (J T : Type)
  | enter (caller : ℕ) (task : Task J T)
  | look (caller : ℕ)
  /-- A sleeper may wake up for no reason. -/
  | wake (caller : ℕ)
  | loop (caller elapsed idle : ℕ) (peak : Option ℕ)
  | start (caller : ℕ) (start : Start) (peak : Option ℕ)
  | call (caller elapsed : ℕ) (peak : Option ℕ)
  | answer (caller : ℕ) (exchange : Exchange J) (took : ℕ) (peak : Option ℕ)
  /-- The slot comes back, and one of the sleepers is woken. -/
  | leave (caller : ℕ) (woken : Option ℕ)
  /-- One slot of `stats`, which waits until no operation has it. -/
  | visit (index : ℕ) (peak : Option ℕ)

inductive Refused
  /-- The caller is elsewhere. -/
  | disabled
  | panicked
  deriving DecidableEq

namespace State

def new (expected : WorkerHello) (params : SessionParams) (callers : ℕ) : State J T where
  pool := .new expected params
  callers := List.replicate callers (.outside none)
  nextProcess := 0
  log := []

variable (s : State J T)

def setCaller (caller : ℕ) (phase : Phase J T) : State J T :=
  { s with callers := s.callers.set caller phase }

/-- A caller works on its slot. -/
def work (caller : ℕ) (op : Operation J T) (f : SessionSlot → Option (Work J T)) :
    Except Refused (State J T) :=
  match s.pool.slots[op.index]?.bind f with
  | none => .error .panicked
  | some w =>
    .ok { pool := { s.pool with slots := s.pool.slots.set op.index w.slot, counters := w.counters }
          callers := s.callers.set caller w.phase
          nextProcess := s.nextProcess
          log := s.log ++ w.entries }

/-- `notify_one`. -/
def notifyOne : Option ℕ → Except Refused (State J T)
  | none => if s.callers.any Phase.isAsleep then .error .disabled else .ok s
  | some woken =>
    match s.callers[woken]? with
    | some (.asleep task) => .ok (s.setCaller woken (.awake task))
    | _ => .error .disabled

def step : Event J T → Except Refused (State J T)
  | .enter caller task =>
    match s.callers[caller]? with
    | some (.outside _) =>
      .ok { s.setCaller caller (.awake task) with log := s.log ++ [.entered caller] }
    | _ => .error .disabled
  | .look caller =>
    match s.callers[caller]? with
    | some (.awake task) =>
      match s.pool.available.getLast? with
      | some index =>
        .ok { s.setCaller caller (.looping (task.operation index)) with
          pool := { s.pool with available := s.pool.available.dropLast } }
      | none => .ok (s.setCaller caller (.asleep task))
    | _ => .error .disabled
  | .wake caller =>
    match s.callers[caller]? with
    | some (.asleep task) => .ok (s.setCaller caller (.awake task))
    | _ => .error .disabled
  | .loop caller elapsed idle peak =>
    match s.callers[caller]? with
    | some (.looping op) => s.work caller op fun slot =>
      some (op.loop slot s.pool.counters s.pool.params elapsed idle peak)
    | _ => .error .disabled
  | .start caller start peak =>
    match s.callers[caller]? with
    | some (.starting op) =>
      { s with nextProcess := s.nextProcess + 1 }.work caller op fun slot =>
        some (op.startSession slot s.pool.counters caller s.nextProcess s.pool.expected start peak)
    | _ => .error .disabled
  | .call caller elapsed peak =>
    match s.callers[caller]? with
    | some (.ready op) => s.work caller op fun slot =>
      op.call slot s.pool.counters caller elapsed peak
    | _ => .error .disabled
  | .answer caller exchange took peak =>
    match s.callers[caller]? with
    | some (.busy op remaining) => s.work caller op fun slot =>
      op.answer slot s.pool.counters remaining exchange took peak
    | _ => .error .disabled
  | .leave caller woken =>
    match s.callers[caller]? with
    | some (.leaving op result) =>
      { s.setCaller caller (.outside (some (op.task, result))) with
        pool := { s.pool with available := s.pool.available ++ [op.index] } }.notifyOne woken
    | _ => .error .disabled
  | .visit index peak =>
    match s.pool.slots[index]? with
    | some slot =>
      if s.callers.any (Phase.hasSlot index) then .error .disabled
      else
        .ok { s with pool := { s.pool with
          counters := WorkerPool.observeSlot s.pool.counters slot peak } }
    | none => .error .disabled

end State

/-- The state after some events. -/
def run (expected : WorkerHello) (params : SessionParams) (callers : ℕ) (events : List (Event J T)) :
    State J T :=
  applyAll State.step (.new expected params callers) events

/-! ### Steps -/

variable {s s' : State J T} {expected : WorkerHello} {params : SessionParams} {caller : ℕ}
variable {phase : Phase J T} {op : Operation J T} {slot : SessionSlot} {w : Work J T}
variable {counters : PoolCounters} {readable : Prop}

/-- The event reports the peak memory of the children it looks at. -/
def Event.Readable : Event J T → Prop
  | .loop _ _ _ peak | .start _ _ peak | .call _ _ peak | .answer _ _ _ peak | .visit _ peak =>
    peak.isSome
  | .enter _ _ | .look _ | .wake _ | .leave _ _ => True

/-- What one piece of work does to the slot of its caller, where `next` is the number of the next
process. -/
inductive WorkStep (params : SessionParams) (counters : PoolCounters) (caller next : ℕ)
    (readable : Prop) : Phase J T → Operation J T → SessionSlot → Work J T → Prop
  | expire (phase : Phase J T) (op : Operation J T) (pending : Bool)
      (hphase : phase = .looping op ∨ phase = .ready op) :
    WorkStep params counters caller next readable phase op ⟨none, pending⟩
      ⟨⟨none, pending⟩, counters, op.failed .timeout op.transportForAttempts, []⟩
  | kill (phase : Phase J T) (op : Operation J T) (session : WorkerSession) (pending : Bool)
      (peak : Option ℕ) (hphase : phase = .looping op ∨ phase = .ready op)
      (hpeak : readable → peak.isSome) :
    WorkStep params counters caller next readable phase op ⟨some session, pending⟩
      ⟨⟨some session.kill, true⟩, counters.observeRss (session.peakRssBytes peak),
        op.failed .timeout op.transportForAttempts, [.expired op.index]⟩
  | keep (op : Operation J T) (slot : SessionSlot)
      (h : ∀ session, slot.session = some session → session.child.isSome ∧
        session.requestsServed < params.maxRequestsPerSession) :
    WorkStep params counters caller next readable (.looping op) op slot
      ⟨slot, counters, .starting op, []⟩
  | retire (op : Operation J T) (session : WorkerSession) (pending : Bool) (peak : Option ℕ)
      (hpeak : readable → peak.isSome) :
    WorkStep params counters caller next readable (.looping op) op ⟨some session, pending⟩
      ⟨⟨none, true⟩, counters.observeRss (session.peakRssBytes peak), .starting op, []⟩
  | resume (op : Operation J T) (session : WorkerSession) (pending : Bool) :
    WorkStep params counters caller next readable (.starting op) op ⟨some session, pending⟩
      ⟨⟨some session, pending⟩, counters, .ready op, []⟩
  | start (op : Operation J T) (pending : Bool) (peak : Option ℕ) (hpeak : readable → peak.isSome) :
    WorkStep params counters caller next readable (.starting op) op ⟨none, pending⟩
      ⟨⟨some ⟨some next, 0⟩, false⟩,
        if pending then
          { counters.observeRss peak with
            sessionRestartCount := (counters.observeRss peak).sessionRestartCount + 1 }
        else counters.observeRss peak,
        .ready op, [.started op.index next]⟩
  | startFailed (op : Operation J T) (pending : Bool) (error : SessionError) :
    WorkStep params counters caller next readable (.starting op) op ⟨none, pending⟩
      ⟨⟨none, pending⟩, counters, op.afterFailure error op.transportForAttempts,
        [.startFailed caller]⟩
  | call (op : Operation J T) (session : WorkerSession) (pending : Bool) (remaining : ℕ)
      (hremaining : 0 < remaining ∧ remaining ≤ op.task.timeout) :
    WorkStep params counters caller next readable (.ready op) op ⟨some session, pending⟩
      ⟨⟨some session, pending⟩, counters, .busy op remaining, [.called caller session.child]⟩
  | succeed (op : Operation J T) (remaining : ℕ) (session served : WorkerSession) (pending : Bool)
      (exchange : Exchange J) (value : T) (took : ℕ) (peak : Option ℕ)
      (hcall : session.dispatch (op.task.request remaining) exchange = (.ok value, served))
      (hpeak : readable → peak.isSome) :
    WorkStep params counters caller next readable (.busy op remaining) op ⟨some session, pending⟩
      ⟨⟨some served, pending⟩, counters.observeRss (served.peakRssBytes peak),
        .leaving (op.attempted took) (.ok ⟨value, .session, (op.attempted took).sessionAttemptCount,
          (op.attempted took).sessionDurationMs⟩),
        [.answered session.child true]⟩
  | fail (op : Operation J T) (remaining : ℕ) (session served : WorkerSession) (pending : Bool)
      (exchange : Exchange J) (error : SessionError) (took : ℕ) (peak : Option ℕ)
      (hcall : session.dispatch (op.task.request remaining) exchange = (.error error, served))
      (hpeak : readable → peak.isSome) :
    WorkStep params counters caller next readable (.busy op remaining) op ⟨some session, pending⟩
      ⟨⟨none, true⟩, counters.observeRss (served.peakRssBytes peak),
        (op.attempted took).afterFailure error .session, [.answered session.child false]⟩

theorem expire_workStep {next : ℕ} {peak : Option ℕ} (hphase : phase = .looping op ∨ phase = .ready op)
    (hpeak : readable → peak.isSome) :
    WorkStep params counters caller next readable phase op slot (op.expire slot counters peak) := by
  rcases slot with ⟨_ | session, pending⟩
  · exact .expire phase op pending hphase
  · exact .kill phase op session pending peak hphase hpeak

theorem loop_workStep {next elapsed idle : ℕ} {peak : Option ℕ} (hpeak : readable → peak.isSome) :
    WorkStep params counters caller next readable (.looping op) op slot
      (op.loop slot counters params elapsed idle peak) := by
  unfold Operation.loop
  split
  · exact expire_workStep (.inl rfl) hpeak
  · rcases slot with ⟨_ | session, pending⟩
    · exact .keep op _ fun session hnone => by cases hnone
    · by_cases hdue : session.recycleDue params idle peak = true
      · simp only [hdue, if_true]
        exact .retire op session pending peak hpeak
      · simp only [hdue]
        refine .keep op _ fun session' hsession => ?_
        obtain rfl := Option.some.inj hsession
        simp only [WorkerSession.recycleDue, Bool.or_eq_true, decide_eq_true_eq, not_or, not_le] at hdue
        exact ⟨by simpa [Option.isSome_iff_ne_none] using hdue.1.1.1, hdue.1.1.2⟩

theorem startSession_workStep {next : ℕ} {start : Start} {peak : Option ℕ}
    (hpeak : readable → peak.isSome) :
    WorkStep params counters caller next readable (.starting op) op slot
      (op.startSession slot counters caller next expected start peak) := by
  unfold Operation.startSession
  rcases slot with ⟨_ | session, pending⟩
  · cases startObserved expected start with
    | ok => exact .start op pending peak hpeak
    | error error => exact .startFailed op pending error
  · exact .resume op session pending

theorem call_workStep {next elapsed : ℕ} {peak : Option ℕ} (hpeak : readable → peak.isSome)
    (h : op.call slot counters caller elapsed peak = some w) :
    WorkStep params counters caller next readable (.ready op) op slot w := by
  unfold Operation.call at h
  split at h
  · obtain rfl := Option.some.inj h
    exact expire_workStep (.inr rfl) hpeak
  · next hleft =>
    rcases slot with ⟨_ | session, pending⟩
    · cases h
    · obtain rfl := Option.some.inj h
      exact .call op session pending _ ⟨Nat.pos_of_ne_zero hleft, Nat.sub_le _ _⟩

theorem answer_workStep {next remaining took : ℕ} {exchange : Exchange J} {peak : Option ℕ}
    (hpeak : readable → peak.isSome)
    (h : op.answer slot counters remaining exchange took peak = some w) :
    WorkStep params counters caller next readable (.busy op remaining) op slot w := by
  unfold Operation.answer at h
  rcases slot with ⟨_ | session, pending⟩
  · cases h
  · simp only [Option.map_some, Option.some.injEq] at h
    have htask : (op.attempted took).task = op.task := rfl
    rw [htask] at h
    rcases hcall : session.dispatch (op.task.request remaining) exchange with ⟨error | value, served⟩
    · rw [hcall] at h
      subst h
      exact .fail op remaining session served pending exchange error took peak hcall hpeak
    · rw [hcall] at h
      subst h
      exact .succeed op remaining session served pending exchange value took peak hcall hpeak

/-- The state after a caller worked on its slot. -/
def State.worked (s : State J T) (caller index next : ℕ) (w : Work J T) : State J T where
  pool := { s.pool with slots := s.pool.slots.set index w.slot, counters := w.counters }
  callers := s.callers.set caller w.phase
  nextProcess := next
  log := s.log ++ w.entries

/-- What one event does. -/
inductive Stepped (s : State J T) (readable : Prop) : State J T → Prop
  | enter (caller : ℕ) (task : Task J T) (last : Option (Task J T × Result T))
      (h : s.callers[caller]? = some (.outside last)) :
    Stepped s readable { s.setCaller caller (.awake task) with log := s.log ++ [.entered caller] }
  | take (caller index : ℕ) (task : Task J T) (available : List ℕ)
      (h : s.callers[caller]? = some (.awake task)) (hav : s.pool.available = available ++ [index]) :
    Stepped s readable { s.setCaller caller (.looping (task.operation index)) with
      pool := { s.pool with available } }
  | sleep (caller : ℕ) (task : Task J T) (h : s.callers[caller]? = some (.awake task))
      (hav : s.pool.available = []) :
    Stepped s readable (s.setCaller caller (.asleep task))
  | wake (caller : ℕ) (task : Task J T) (h : s.callers[caller]? = some (.asleep task)) :
    Stepped s readable (s.setCaller caller (.awake task))
  | work (caller next : ℕ) (phase : Phase J T) (op : Operation J T) (slot : SessionSlot) (w : Work J T)
      (h : s.callers[caller]? = some phase) (hslot : s.pool.slots[op.index]? = some slot)
      (hw : WorkStep s.pool.params s.pool.counters caller s.nextProcess readable phase op slot w)
      (hnext : s.nextProcess ≤ next) (hfresh : next = s.nextProcess → phase ≠ .starting op) :
    Stepped s readable (s.worked caller op.index next w)
  | giveBack (caller : ℕ) (op : Operation J T) (result : Result T)
      (h : s.callers[caller]? = some (.leaving op result))
      (hnone : ∀ phase ∈ s.callers.set caller (.outside (some (op.task, result))),
        phase.isAsleep = false) :
    Stepped s readable { s.setCaller caller (.outside (some (op.task, result))) with
      pool := { s.pool with available := s.pool.available ++ [op.index] } }
  | notify (caller woken : ℕ) (op : Operation J T) (result : Result T) (task : Task J T)
      (h : s.callers[caller]? = some (.leaving op result))
      (hwoken : (s.callers.set caller (.outside (some (op.task, result))))[woken]? =
        some (.asleep task)) :
    Stepped s readable (({ s.setCaller caller (.outside (some (op.task, result))) with
      pool := { s.pool with available := s.pool.available ++ [op.index] } } : State J T).setCaller
        woken (.awake task))
  | visit (index : ℕ) (slot : SessionSlot) (peak : Option ℕ)
      (hslot : s.pool.slots[index]? = some slot) (hpeak : readable → peak.isSome) :
    Stepped s readable { s with pool := { s.pool with
      counters := WorkerPool.observeSlot s.pool.counters slot peak } }

theorem work_eq_ok {f : SessionSlot → Option (Work J T)} (h : s.work caller op f = .ok s') :
    ∃ slot w, s.pool.slots[op.index]? = some slot ∧ f slot = some w ∧
      s' = s.worked caller op.index s.nextProcess w := by
  unfold State.work at h
  split at h
  · cases h
  · next w hw =>
    obtain ⟨slot, hslot, hf⟩ := Option.bind_eq_some_iff.1 hw
    exact ⟨slot, w, hslot, hf, (Except.ok.inj h).symm⟩

theorem notifyOne_eq_ok {woken : Option ℕ} (h : s.notifyOne woken = .ok s') :
    (s' = s ∧ ∀ phase ∈ s.callers, phase.isAsleep = false) ∨
      ∃ woken task, s.callers[woken]? = some (.asleep task) ∧ s' = s.setCaller woken (.awake task) := by
  cases woken with
  | none =>
    simp only [State.notifyOne] at h
    split at h
    · cases h
    · next hnone => exact .inl ⟨(Except.ok.inj h).symm, by simpa using hnone⟩
  | some woken =>
    simp only [State.notifyOne] at h
    split at h
    · next task hwoken => exact .inr ⟨woken, task, hwoken, (Except.ok.inj h).symm⟩
    · cases h

theorem step_cases {e : Event J T} (h : s.step e = .ok s') : Stepped s e.Readable s' := by
  cases e with
  | enter caller task =>
    simp only [State.step] at h
    split at h
    · next last hcaller =>
      cases h
      exact .enter caller task last hcaller
    · cases h
  | look caller =>
    simp only [State.step] at h
    split at h
    · next task hcaller =>
      split at h
      · next index hindex =>
        obtain ⟨available, hav⟩ := List.getLast?_eq_some_iff.1 hindex
        cases h
        rw [hav, List.dropLast_concat]
        exact .take caller index task available hcaller hav
      · next hnone =>
        cases h
        exact .sleep caller task hcaller (List.getLast?_eq_none_iff.1 hnone)
    · cases h
  | wake caller =>
    simp only [State.step] at h
    split at h
    · next task hcaller =>
      cases h
      exact .wake caller task hcaller
    · cases h
  | loop caller elapsed idle peak =>
    simp only [State.step] at h
    split at h
    · next op hcaller =>
      obtain ⟨slot, w, hslot, hw, rfl⟩ := work_eq_ok h
      cases hw
      exact .work caller s.nextProcess _ op slot _ hcaller hslot (loop_workStep id) le_rfl
        fun _ hphase => by cases hphase
    · cases h
  | start caller start peak =>
    simp only [State.step] at h
    split at h
    · next op hcaller =>
      obtain ⟨slot, w, hslot, hw, rfl⟩ := work_eq_ok h
      cases hw
      exact .work caller (s.nextProcess + 1) _ op slot _ hcaller hslot (startSession_workStep id)
        (Nat.le_succ _) fun hsame => absurd hsame (Nat.succ_ne_self _)
    · cases h
  | call caller elapsed peak =>
    simp only [State.step] at h
    split at h
    · next op hcaller =>
      obtain ⟨slot, w, hslot, hw, rfl⟩ := work_eq_ok h
      exact .work caller s.nextProcess _ op slot _ hcaller hslot (call_workStep id hw) le_rfl
        fun _ hphase => by cases hphase
    · cases h
  | answer caller exchange took peak =>
    simp only [State.step] at h
    split at h
    · next op remaining hcaller =>
      obtain ⟨slot, w, hslot, hw, rfl⟩ := work_eq_ok h
      exact .work caller s.nextProcess _ op slot _ hcaller hslot (answer_workStep id hw) le_rfl
        fun _ hphase => by cases hphase
    · cases h
  | leave caller woken =>
    simp only [State.step] at h
    split at h
    · next op result hcaller =>
      rcases notifyOne_eq_ok h with ⟨rfl, hnone⟩ | ⟨woken, task, hwoken, rfl⟩
      · exact .giveBack caller op result hcaller hnone
      · exact .notify caller woken op result task hcaller hwoken
    · cases h
  | visit index peak =>
    simp only [State.step] at h
    split at h
    · next slot hslot =>
      split at h
      · cases h
      · cases h
        exact .visit index slot peak hslot id
    · cases h

end DailyReport.SessionPool
