import DailyReport.Contract.Envelope
import DailyReport.Lib.Json
import Mathlib.Data.List.Nodup

/-!
# The wire form of an envelope

The JSON of the records an envelope is made of.  `ContextEnvelope.json` is the canonical form, with
the fields in the order of the record; the `value` of a record has its fields sorted, as a JSON
value keeps them.  Every record is read back from its wire form (`Diagnostic.ofJson_value`,
`ContextSummary.ofJson_value`).
-/

namespace DailyReport

open Lib

/-! ### Enumerations -/

/-- The member of an enumeration with a wire name. -/
def parseContractEnum {α : Type} (all : List α) (wireName : α → Text) (value : Text) : Option α :=
  all.find? fun a => decide (wireName a = value)

theorem parseContractEnum_wireName {α : Type} {all : List α} {wireName : α → Text}
    (hnodup : (all.map wireName).Nodup) {a : α} (ha : a ∈ all) :
    parseContractEnum all wireName (wireName a) = some a := by
  unfold parseContractEnum
  cases hfind : all.find? fun b => decide (wireName b = wireName a) with
  | none => simpa using List.find?_eq_none.1 hfind a ha
  | some b =>
    have hb : wireName b = wireName a := by simpa using List.find?_some hfind
    exact congrArg some (List.inj_on_of_nodup_map hnodup (List.mem_of_find?_eq_some hfind) ha hb)

def ErrorCode.all : List ErrorCode :=
  [.invalidRequest, .contractVersionMismatch, .workDirNotFound, .workDirNotDirectory,
    .discoveryEntryUnreadable, .fileTooLarge, .parserStartFailed, .parserTimeout,
    .parserInvalidPayload, .parserFailed, .pdfProtected, .workerHandshakeFailed,
    .workerVersionMismatch, .workerBuildChanged, .sourceVersionChanged, .cacheOpenFailed,
    .cacheWriteFailed, .scanAlreadyRunning, .requestInProgress, .requestIdConflict, .runNotFound,
    .runCorrupt, .contextBudgetInvalid, .notImplemented, .rustCoreCrashed, .stageDeadlineExhausted,
    .budgetModelMismatch, .contextFixedSectionsOverBudget, .profileRouteInvariant,
    .sourceFileLimitExceeded, .sourceGuardUnavailable, .scannerDbSchemaMismatch,
    .diagnosticsAggregated, .snapshotReuseProjectedAsFresh,
    .parseCacheNotApplicableProjectedAsMiss, .cacheMissReasonProjectedAsNewFile,
    .sourceGuardNotProjected, .workerRssUnavailable, .internalError]

def DiagnosticStage.all : List DiagnosticStage :=
  [.request, .discovery, .cache, .parse, .context, .process, .doctor, .internal]

/-- The wire name of an engine status. -/
def EngineStatus.wireName : EngineStatus → Text
  | .ok => lit "ok"
  | .partialOk => lit "partial"
  | .error => lit "error"

def EngineStatus.all : List EngineStatus := [.ok, .partialOk, .error]

@[simp] theorem ErrorCode.parse_wireName (c : ErrorCode) :
    parseContractEnum ErrorCode.all ErrorCode.wireName c.wireName = some c :=
  parseContractEnum_wireName (by decide +kernel) (by cases c <;> decide)

@[simp] theorem DiagnosticStage.parse_wireName (s : DiagnosticStage) :
    parseContractEnum DiagnosticStage.all DiagnosticStage.wireName s.wireName = some s :=
  parseContractEnum_wireName (by decide +kernel) (by cases s <;> decide)

@[simp] theorem EngineStatus.parse_wireName (s : EngineStatus) :
    parseContractEnum EngineStatus.all EngineStatus.wireName s.wireName = some s :=
  parseContractEnum_wireName (by decide +kernel) (by cases s <;> decide)

/-! ### Diagnostics -/

/-- The diagnostic with its fields in the order of the record. -/
def Diagnostic.json (d : Diagnostic) : Json :=
  .obj [(lit "error_code", .str d.errorCode.wireName), (lit "message", .str d.message),
    (lit "retryable", .bool d.retryable), (lit "stage", .str d.stage.wireName),
    (lit "file_path", .ofNullable .str d.filePath), (lit "backend", .ofNullable .str d.backend)]

/-- The diagnostic with its fields sorted. -/
def Diagnostic.value (d : Diagnostic) : Json :=
  .obj [(lit "backend", .ofNullable .str d.backend), (lit "error_code", .str d.errorCode.wireName),
    (lit "file_path", .ofNullable .str d.filePath), (lit "message", .str d.message),
    (lit "retryable", .bool d.retryable), (lit "stage", .str d.stage.wireName)]

def Diagnostic.ofJson (v : Json) : Option Diagnostic := do
  let code ← (← v.get (lit "error_code")).asStr
  let errorCode ← parseContractEnum ErrorCode.all ErrorCode.wireName code
  let message ← (← v.get (lit "message")).asStr
  let retryable ← (← v.get (lit "retryable")).asBool
  let stageName ← (← v.get (lit "stage")).asStr
  let stage ← parseContractEnum DiagnosticStage.all DiagnosticStage.wireName stageName
  let filePath ← (← v.get (lit "file_path")).asNullable Json.asStr
  let backend ← (← v.get (lit "backend")).asNullable Json.asStr
  -- an unknown field is refused
  guard (v.size = 6)
  some { errorCode, message, retryable, stage, filePath, backend }

theorem asNullable_asStr (x : Option Text) :
    Json.asNullable Json.asStr (Json.ofNullable Json.str x) = some x :=
  Json.asNullable_ofNullable (fun _ _ => rfl) fun _ => by simp

theorem Diagnostic.ofJson_value (d : Diagnostic) : Diagnostic.ofJson d.value = some d := by
  simp [Diagnostic.ofJson, Diagnostic.value, Json.get, Json.size, Json.asStr, Json.asBool, lit_eq,
    asNullable_asStr, guard]

theorem Diagnostic.ofJson_json (d : Diagnostic) : Diagnostic.ofJson d.json = some d := by
  simp [Diagnostic.ofJson, Diagnostic.json, Json.get, Json.size, Json.asStr, Json.asBool, lit_eq,
    asNullable_asStr, guard]

/-! ### Summaries -/

/-- The summary with its fields in the order of the record. -/
def ContextSummary.json (s : ContextSummary) : Json :=
  .obj [(lit "source_file_count", .num s.sourceFileCount), (lit "success_count", .num s.successCount),
    (lit "timeout_count", .num s.timeoutCount), (lit "included_file_count", .num s.includedFileCount),
    (lit "omitted_file_count", .num s.omittedFileCount),
    (lit "error_file_count", .num s.errorFileCount), (lit "input_chars", .num s.inputChars),
    (lit "output_chars", .num s.outputChars), (lit "total_duration_ms", .num s.totalDurationMs),
    (lit "discovery_duration_ms", .num s.discoveryDurationMs),
    (lit "parse_duration_ms", .num s.parseDurationMs),
    (lit "compression_duration_ms", .num s.compressionDurationMs)]

/-- The summary with its fields sorted. -/
def ContextSummary.value (s : ContextSummary) : Json :=
  .obj [(lit "compression_duration_ms", .num s.compressionDurationMs),
    (lit "discovery_duration_ms", .num s.discoveryDurationMs),
    (lit "error_file_count", .num s.errorFileCount),
    (lit "included_file_count", .num s.includedFileCount), (lit "input_chars", .num s.inputChars),
    (lit "omitted_file_count", .num s.omittedFileCount), (lit "output_chars", .num s.outputChars),
    (lit "parse_duration_ms", .num s.parseDurationMs),
    (lit "source_file_count", .num s.sourceFileCount), (lit "success_count", .num s.successCount),
    (lit "timeout_count", .num s.timeoutCount), (lit "total_duration_ms", .num s.totalDurationMs)]

def ContextSummary.ofJson (v : Json) : Option ContextSummary := do
  let sourceFileCount ← (← v.get (lit "source_file_count")).asU64
  let successCount ← (← v.get (lit "success_count")).asU64
  let timeoutCount ← (← v.get (lit "timeout_count")).asU64
  let includedFileCount ← (← v.get (lit "included_file_count")).asU64
  let omittedFileCount ← (← v.get (lit "omitted_file_count")).asU64
  let errorFileCount ← (← v.get (lit "error_file_count")).asU64
  let inputChars ← (← v.get (lit "input_chars")).asU64
  let outputChars ← (← v.get (lit "output_chars")).asU64
  let totalDurationMs ← (← v.get (lit "total_duration_ms")).asU64
  let discoveryDurationMs ← (← v.get (lit "discovery_duration_ms")).asU64
  let parseDurationMs ← (← v.get (lit "parse_duration_ms")).asU64
  let compressionDurationMs ← (← v.get (lit "compression_duration_ms")).asU64
  guard (v.size = 12)
  some { sourceFileCount, successCount, timeoutCount, includedFileCount, omittedFileCount,
         errorFileCount, inputChars, outputChars, totalDurationMs, discoveryDurationMs,
         parseDurationMs, compressionDurationMs }

/-- Every number of the summary is an unsigned 64-bit integer. -/
structure ContextSummary.Fits (s : ContextSummary) : Prop where
  sourceFileCount : s.sourceFileCount ≤ u64Max
  successCount : s.successCount ≤ u64Max
  timeoutCount : s.timeoutCount ≤ u64Max
  includedFileCount : s.includedFileCount ≤ u64Max
  omittedFileCount : s.omittedFileCount ≤ u64Max
  errorFileCount : s.errorFileCount ≤ u64Max
  inputChars : s.inputChars ≤ u64Max
  outputChars : s.outputChars ≤ u64Max
  totalDurationMs : s.totalDurationMs ≤ u64Max
  discoveryDurationMs : s.discoveryDurationMs ≤ u64Max
  parseDurationMs : s.parseDurationMs ≤ u64Max
  compressionDurationMs : s.compressionDurationMs ≤ u64Max

/-- A field was read, and the rest after it. -/
theorem exists_of_field {α β : Type} {v : Json} {name : Text} {read : Json → Option α}
    {rest : α → Option β} {b : β} (h : (v.get name >>= fun field => read field >>= rest) = some b) :
    ∃ field a, read field = some a ∧ rest a = some b := by
  obtain ⟨field, -, h⟩ := Option.bind_eq_some_iff.1 h
  obtain ⟨a, hread, hrest⟩ := Option.bind_eq_some_iff.1 h
  exact ⟨field, a, hread, hrest⟩

theorem ContextSummary.fits_of_ofJson {v : Json} {s : ContextSummary}
    (h : ContextSummary.ofJson v = some s) : s.Fits := by
  unfold ContextSummary.ofJson at h
  obtain ⟨_, _, h1, h⟩ := exists_of_field h
  obtain ⟨_, _, h2, h⟩ := exists_of_field h
  obtain ⟨_, _, h3, h⟩ := exists_of_field h
  obtain ⟨_, _, h4, h⟩ := exists_of_field h
  obtain ⟨_, _, h5, h⟩ := exists_of_field h
  obtain ⟨_, _, h6, h⟩ := exists_of_field h
  obtain ⟨_, _, h7, h⟩ := exists_of_field h
  obtain ⟨_, _, h8, h⟩ := exists_of_field h
  obtain ⟨_, _, h9, h⟩ := exists_of_field h
  obtain ⟨_, _, h10, h⟩ := exists_of_field h
  obtain ⟨_, _, h11, h⟩ := exists_of_field h
  obtain ⟨_, _, h12, h⟩ := exists_of_field h
  obtain ⟨_, -, h⟩ := Option.bind_eq_some_iff.1 h
  cases h
  exact ⟨Json.asU64_eq_some h1, Json.asU64_eq_some h2, Json.asU64_eq_some h3,
    Json.asU64_eq_some h4, Json.asU64_eq_some h5, Json.asU64_eq_some h6, Json.asU64_eq_some h7,
    Json.asU64_eq_some h8, Json.asU64_eq_some h9, Json.asU64_eq_some h10, Json.asU64_eq_some h11,
    Json.asU64_eq_some h12⟩

theorem ContextSummary.ofJson_value {s : ContextSummary} (h : s.Fits) :
    ContextSummary.ofJson s.value = some s := by
  simp [ContextSummary.ofJson, ContextSummary.value, Json.get, Json.size, lit_eq, guard,
    h.sourceFileCount, h.successCount, h.timeoutCount, h.includedFileCount, h.omittedFileCount,
    h.errorFileCount, h.inputChars, h.outputChars, h.totalDurationMs, h.discoveryDurationMs,
    h.parseDurationMs, h.compressionDurationMs]

/-! ### Envelopes -/

/-- The envelope with its fields in the order of the record. -/
def ContextEnvelope.json (e : ContextEnvelope) : Json :=
  .obj [(lit "contract", .str e.contract), (lit "protocol_version", .num e.protocolVersion),
    (lit "request_id", .str e.requestId), (lit "engine_version", .str e.engineVersion),
    (lit "engine_build", .str e.engineBuild), (lit "status", .str e.status.wireName),
    (lit "file_context", .str e.fileContext), (lit "summary", e.summary.json),
    (lit "scan_run_id", .ofNullable .num e.scanRunId),
    (lit "context_run_id", .ofNullable .num e.contextRunId),
    (lit "warnings", .arr (e.warnings.map Diagnostic.json)),
    (lit "error", .ofNullable Diagnostic.json e.error)]

def ContextEnvelope.ofJson (v : Json) : Option ContextEnvelope := do
  let contract ← (← v.get (lit "contract")).asStr
  let protocolVersion ← (← v.get (lit "protocol_version")).asU64
  let requestId ← (← v.get (lit "request_id")).asStr
  let engineVersion ← (← v.get (lit "engine_version")).asStr
  let engineBuild ← (← v.get (lit "engine_build")).asStr
  let statusName ← (← v.get (lit "status")).asStr
  let status ← parseContractEnum EngineStatus.all EngineStatus.wireName statusName
  let fileContext ← (← v.get (lit "file_context")).asStr
  let summary ← ContextSummary.ofJson (← v.get (lit "summary"))
  let scanRunId ← (← v.get (lit "scan_run_id")).asNullable Json.asU64
  let contextRunId ← (← v.get (lit "context_run_id")).asNullable Json.asU64
  let warnings ← (← (← v.get (lit "warnings")).asArr).mapM Diagnostic.ofJson
  let error ← (← v.get (lit "error")).asNullable Diagnostic.ofJson
  guard (v.size = 12)
  some { contract, protocolVersion, requestId, engineVersion, engineBuild, status, fileContext,
         summary, scanRunId, contextRunId, warnings, error }

/-- The envelope that a JSON text holds. -/
def ContextEnvelope.ofText (text : Text) : Option ContextEnvelope :=
  (Json.parse text).bind ContextEnvelope.ofJson

/-- Every number of the envelope is an unsigned 64-bit integer. -/
structure ContextEnvelope.Fits (e : ContextEnvelope) : Prop where
  protocolVersion : e.protocolVersion ≤ u64Max
  summary : e.summary.Fits
  scanRunId : ∀ id ∈ e.scanRunId, id ≤ u64Max
  contextRunId : ∀ id ∈ e.contextRunId, id ≤ u64Max

theorem asNullable_asU64 {v : Json} {x : Option ℕ} (h : v.asNullable Json.asU64 = some x) :
    ∀ n ∈ x, n ≤ u64Max := by
  unfold Json.asNullable at h
  split at h
  · cases h; simp
  · obtain ⟨n, hn, rfl⟩ := Option.map_eq_some_iff.1 h
    intro m hm
    exact Option.mem_some_iff.1 hm ▸ Json.asU64_eq_some hn

/-- An envelope that was read holds unsigned 64-bit integers. -/
theorem ContextEnvelope.fits_of_ofText {text : Text} {e : ContextEnvelope}
    (h : ContextEnvelope.ofText text = some e) : e.Fits := by
  obtain ⟨v, -, h⟩ := Option.bind_eq_some_iff.1 h
  unfold ContextEnvelope.ofJson at h
  obtain ⟨_, contract, -, h⟩ := exists_of_field h
  obtain ⟨_, protocolVersion, hversion, h⟩ := exists_of_field h
  obtain ⟨_, requestId, -, h⟩ := exists_of_field h
  obtain ⟨_, engineVersion, -, h⟩ := exists_of_field h
  obtain ⟨_, engineBuild, -, h⟩ := exists_of_field h
  obtain ⟨_, statusName, -, h⟩ := exists_of_field h
  obtain ⟨status, -, h⟩ := Option.bind_eq_some_iff.1 h
  obtain ⟨_, fileContext, -, h⟩ := exists_of_field h
  obtain ⟨_, summary, hsummary, h⟩ := exists_of_field h
  obtain ⟨_, scanRunId, hscan, h⟩ := exists_of_field h
  obtain ⟨_, contextRunId, hcontext, h⟩ := exists_of_field h
  obtain ⟨_, rows, -, h⟩ := exists_of_field h
  obtain ⟨warnings, -, h⟩ := Option.bind_eq_some_iff.1 h
  obtain ⟨_, error, -, h⟩ := exists_of_field h
  obtain ⟨_, -, h⟩ := Option.bind_eq_some_iff.1 h
  cases h
  exact ⟨Json.asU64_eq_some hversion, ContextSummary.fits_of_ofJson hsummary,
    asNullable_asU64 hscan, asNullable_asU64 hcontext⟩

end DailyReport
