import DailyReport.Contract.Records

/-!
# The envelope of a run

A run answers with a `ContextEnvelope`: the context with its counts, the warnings and, where the run
failed, its error.  The validation ties the status to the rest: a context that is there belongs to a
stored run (`ContextEnvelope.Valid.contextRunId`), an error comes without a context.
-/

namespace DailyReport

open Lib

/-- The counts of a context. -/
structure ContextCounts where
  sourceFileCount : ℕ
  successCount : ℕ
  timeoutCount : ℕ
  includedFileCount : ℕ
  omittedFileCount : ℕ
  errorFileCount : ℕ
  inputChars : ℕ
  outputChars : ℕ
  deriving DecidableEq

/-- The counts and the durations of a run. -/
structure ContextSummary extends ContextCounts where
  totalDurationMs : ℕ
  discoveryDurationMs : ℕ
  parseDurationMs : ℕ
  compressionDurationMs : ℕ
  deriving DecidableEq

/-- The classified files are among the source files. -/
def ContextCounts.validate (c : ContextCounts) : Checked :=
  match (checkedAdd c.successCount c.timeoutCount).bind fun total =>
      checkedAdd total c.errorFileCount with
  | none => .error (lit "summary counts overflow")
  | some classified =>
    if classified ≤ c.sourceFileCount then .ok ()
    else .error (lit "classified file counts exceed source_file_count")

inductive EngineStatus
  | ok
  | partialOk
  | error
  deriving DecidableEq, Repr

structure ContextEnvelope where
  contract : Text
  protocolVersion : ℕ
  requestId : Text
  engineVersion : Text
  engineBuild : Text
  status : EngineStatus
  fileContext : Text
  summary : ContextSummary
  scanRunId : Option ℕ
  contextRunId : Option ℕ
  warnings : List Diagnostic
  error : Option Diagnostic
  deriving DecidableEq

def isHexDigit (c : Char) : Bool :=
  c.isDigit || (decide ('a' ≤ c) && decide (c ≤ 'f')) || (decide ('A' ≤ c) && decide (c ≤ 'F'))

/-- The character of a request id at an index: a dash, a version, a variant or a digit. -/
def requestIdChar (index : ℕ) (c : Char) : Bool :=
  if index = 8 ∨ index = 13 ∨ index = 18 ∨ index = 23 then c == '-'
  else if index = 14 then decide ('1' ≤ c) && decide (c ≤ '5')
  else if index = 19 then decide (c ∈ ['8', '9', 'a', 'A', 'b', 'B'])
  else isHexDigit c

def requireRequestId (value : Text) : Checked :=
  if byteLength value = 36 ∧ (value.zipIdx.all fun p => requestIdChar p.2 p.1) = true then .ok ()
  else .error (lit "request_id must be an RFC 4122 UUID v1..v5")

/-- An id that is there is positive. -/
def requireId (value : Option ℕ) (field : Text) : Checked :=
  match value with
  | none => .ok ()
  | some id => requireRange id 1 u64Max field

/-- What the status of an envelope says about the rest. -/
def ContextEnvelope.validateStatus (e : ContextEnvelope) : Checked :=
  match e.status with
  | .ok =>
    if e.fileContext = [] ∨ e.scanRunId = none ∨ e.contextRunId = none ∨ e.error ≠ none then
      .error (lit "ok context violates status invariants")
    else .ok ()
  | .partialOk =>
    if e.fileContext = [] ∨ e.scanRunId = none ∨ e.contextRunId = none ∨ e.warnings = [] ∨
        e.error ≠ none then
      .error (lit "partial context violates status invariants")
    else .ok ()
  | .error =>
    if e.fileContext ≠ [] ∨ e.error = none then
      .error (lit "error context violates status invariants")
    else .ok ()

def validateWarnings (warnings : List Diagnostic) : Checked :=
  if warnings.length > 100000 then .error (lit "too many context warnings")
  else warnings.forM Diagnostic.validate

def validateError : Option Diagnostic → Checked
  | some error => error.validate
  | none => .ok ()

def ContextEnvelope.validate (e : ContextEnvelope) : Checked := do
  requireConst e.contract (lit "ai_daily_context") (lit "contract")
  requireRange e.protocolVersion 1 1 (lit "protocol_version")
  requireRequestId e.requestId
  requireNonEmpty e.engineVersion 4096 (lit "engine_version")
  requireNonEmpty e.engineBuild 4096 (lit "engine_build")
  e.summary.validate
  validateWarnings e.warnings
  validateError e.error
  requireId e.scanRunId (lit "scan_run_id")
  requireId e.contextRunId (lit "context_run_id")
  e.validateStatus

theorem ContextEnvelope.validateStatus_of_validate {e : ContextEnvelope} (h : e.validate = .ok ()) :
    e.validateStatus = .ok () := by
  unfold ContextEnvelope.validate at h
  simp only [bind_ok_iff] at h
  exact h.2.2.2.2.2.2.2.2.2.2

/-- An envelope with a context belongs to a stored context run. -/
theorem ContextEnvelope.contextRunId_isSome {e : ContextEnvelope} (h : e.validate = .ok ())
    (hstatus : e.status ≠ .error) : e.contextRunId.isSome = true := by
  have hvalid := validateStatus_of_validate h
  unfold validateStatus at hvalid
  cases hs : e.status with
  | error => exact absurd hs hstatus
  | ok =>
    rw [hs] at hvalid
    simp only at hvalid
    split_ifs at hvalid with hbad
    rw [Option.isSome_iff_ne_none]
    tauto
  | partialOk =>
    rw [hs] at hvalid
    simp only at hvalid
    split_ifs at hvalid with hbad
    rw [Option.isSome_iff_ne_none]
    tauto

/-- An error comes without a context. -/
theorem ContextEnvelope.fileContext_of_error {e : ContextEnvelope} (h : e.validate = .ok ())
    (hstatus : e.status = .error) : e.fileContext = [] := by
  have hvalid := validateStatus_of_validate h
  unfold validateStatus at hvalid
  rw [hstatus] at hvalid
  simp only at hvalid
  split_ifs at hvalid with hbad
  tauto

end DailyReport
