import DailyReport.Store.Artifacts

/-!
# Replaying a stored envelope

A committed run keeps its envelope without the context, as JSON metadata (`envelopeMetadata`); the
context is in the artifact of the run.  `rebuildEnvelope` puts the two together, and what it rebuilds
from the metadata of an envelope is that envelope with the context of the artifact
(`rebuildEnvelope_metadata`).
-/

namespace DailyReport.Store

open Lib

/-! ### The metadata of an envelope -/

/-- `serde_json::to_string` of a valid envelope. -/
def canonicalEnvelopeJson (envelope : ContextEnvelope) : Except StoreError Text :=
  match envelope.validate with
  | .error message => .error (.invalidRequest message)
  | .ok () => .ok envelope.json.print

/-- A field that is only there when it has a value. -/
def optionalField (name : Text) (value : Option Json) : List (Text × Json) :=
  (value.map fun v => (name, v)).toList

/-- The envelope without its context, with the audits of the run, fields sorted. -/
def envelopeMetadata (e : ContextEnvelope) (refillAudit pdfPageAudits : Option Json) : Json :=
  .obj <|
    [(lit "context_run_id", .ofNullable .num e.contextRunId), (lit "contract", .str e.contract),
      (lit "engine_build", .str e.engineBuild), (lit "engine_version", .str e.engineVersion),
      (lit "error", .ofNullable Diagnostic.value e.error)] ++
    optionalField (lit "pdf_page_audits") pdfPageAudits ++
    [(lit "protocol_version", .num e.protocolVersion)] ++
    optionalField (lit "refill_audit") refillAudit ++
    [(lit "request_id", .str e.requestId), (lit "scan_run_id", .ofNullable .num e.scanRunId),
      (lit "status", .str e.status.wireName), (lit "summary", e.summary.value),
      (lit "warnings", .arr (e.warnings.map Diagnostic.value))]

/-! ### Rebuilding -/

def metadataMissing (field : Text) : Text := lit "envelope metadata missing '" ++ field ++ lit "'"

def metadataInvalid (field : Text) : Text :=
  lit "envelope metadata '" ++ field ++ lit "' is invalid"

/-- A field that must be there and be read. -/
def metadataField {α : Type} (metadata : Json) (field : Text) (read : Json → Option α) :
    Except Text α :=
  match (metadata.get field).bind read with
  | some a => .ok a
  | none => .error (metadataMissing field)

/-- A field that may be absent or null. -/
def nullableField {α : Type} (metadata : Json) (field : Text) (read : Json → Option α) :
    Except Text (Option α) :=
  match metadata.get field with
  | none => .ok none
  | some value =>
    match value.asNullable read with
    | some x => .ok x
    | none => .error (metadataInvalid field)

def metadataStatus (metadata : Json) : Except Text EngineStatus :=
  match metadata.get (lit "status") with
  | none => .error (metadataMissing (lit "status"))
  | some value =>
    match value.asStr.bind (parseContractEnum EngineStatus.all EngineStatus.wireName) with
    | some status => .ok status
    | none => .error (metadataInvalid (lit "status"))

def metadataWarnings (metadata : Json) : Except Text (List Diagnostic) :=
  match metadata.get (lit "warnings") with
  | none => .ok []
  | some value =>
    match value.asArr.bind fun items => items.mapM Diagnostic.ofJson with
    | some warnings => .ok warnings
    | none => .error (metadataInvalid (lit "warnings"))

/-- The envelope with the given metadata and summary and the context of the artifact. -/
def rebuildEnvelope (metadata : Json) (summary : ContextSummary) (artifact : Option ArtifactDraft) :
    Except Text ContextEnvelope := do
  let contract ← metadataField metadata (lit "contract") Json.asStr
  let protocolVersion ← metadataField metadata (lit "protocol_version") Json.asU64
  let requestId ← metadataField metadata (lit "request_id") Json.asStr
  let engineVersion ← metadataField metadata (lit "engine_version") Json.asStr
  let engineBuild ← metadataField metadata (lit "engine_build") Json.asStr
  let status ← metadataStatus metadata
  let scanRunId ← nullableField metadata (lit "scan_run_id") Json.asU64
  let contextRunId ← nullableField metadata (lit "context_run_id") Json.asU64
  let warnings ← metadataWarnings metadata
  let error ← nullableField metadata (lit "error") Diagnostic.ofJson
  let envelope : ContextEnvelope :=
    { contract, protocolVersion, requestId, engineVersion, engineBuild, status
      fileContext := (artifact.map ArtifactDraft.finalContext).getD []
      summary, scanRunId, contextRunId, warnings, error }
  envelope.validate
  .ok envelope

/-- The summary in the metadata of a run. -/
def metadataSummary (metadata : Json) : Except StoreError ContextSummary :=
  match metadata.get (lit "summary") with
  | none => .error (.runCorrupt (lit "envelope metadata missing summary"))
  | some value =>
    match ContextSummary.ofJson value with
    | some summary => .ok summary
    | none => .error (.runCorrupt (lit "envelope metadata summary is invalid"))

def parseMetadata (metadataJson : Text) : Except StoreError Json :=
  match Json.parse metadataJson with
  | some metadata => .ok metadata
  | none => .error (.runCorrupt (lit "envelope metadata JSON is invalid"))

/-- A failure to rebuild is a corrupt run. -/
def rebuilt (result : Except Text ContextEnvelope) : Except StoreError ContextEnvelope :=
  match result with
  | .ok envelope => .ok envelope
  | .error message => .error (.runCorrupt (lit "rebuilt envelope is invalid: " ++ message))

/-! ### The metadata of an envelope is read back -/

section

variable {e : ContextEnvelope} {refillAudit pdfPageAudits : Option Json}

theorem get_envelopeMetadata {key : Text} {value : Json}
    (h : (envelopeMetadata e none none).get key = some value) (hpages : key ≠ lit "pdf_page_audits")
    (hrefill : key ≠ lit "refill_audit") :
    (envelopeMetadata e refillAudit pdfPageAudits).get key = some value := by
  cases refillAudit <;> cases pdfPageAudits <;>
    simpa [envelopeMetadata, optionalField, Json.get, List.find?_cons, Ne.symm hpages,
      Ne.symm hrefill] using h

theorem metadataField_metadata {α : Type} {field : Text} {read : Json → Option α} {v : Json}
    {a : α} (h : (envelopeMetadata e none none).get field = some v) (ha : read v = some a)
    (hpages : field ≠ lit "pdf_page_audits") (hrefill : field ≠ lit "refill_audit") :
    metadataField (envelopeMetadata e refillAudit pdfPageAudits) field read = .ok a := by
  rw [metadataField, get_envelopeMetadata h hpages hrefill, Option.bind_some, ha]

theorem nullableField_metadata {α : Type} {field : Text} {read : Json → Option α} {v : Json}
    {x : Option α} (h : (envelopeMetadata e none none).get field = some v)
    (hx : v.asNullable read = some x) (hpages : field ≠ lit "pdf_page_audits")
    (hrefill : field ≠ lit "refill_audit") :
    nullableField (envelopeMetadata e refillAudit pdfPageAudits) field read = .ok x := by
  simp only [nullableField, get_envelopeMetadata h hpages hrefill, hx]

theorem metadataStatus_metadata :
    metadataStatus (envelopeMetadata e refillAudit pdfPageAudits) = .ok e.status := by
  have hget : (envelopeMetadata e none none).get (lit "status") = some (.str e.status.wireName) := by
    simp [envelopeMetadata, optionalField, Json.get, lit_eq]
  rw [metadataStatus, get_envelopeMetadata hget (by simp [lit_eq]) (by simp [lit_eq])]
  simp [Json.asStr]

theorem mapM_ofJson_value (warnings : List Diagnostic) :
    (warnings.map Diagnostic.value).mapM Diagnostic.ofJson = some warnings := by
  induction warnings with
  | nil => rfl
  | cons d warnings ih => simp [List.mapM_cons, Diagnostic.ofJson_value, ih]

theorem metadataWarnings_metadata :
    metadataWarnings (envelopeMetadata e refillAudit pdfPageAudits) = .ok e.warnings := by
  have hget : (envelopeMetadata e none none).get (lit "warnings") =
      some (.arr (e.warnings.map Diagnostic.value)) := by
    simp [envelopeMetadata, optionalField, Json.get, lit_eq]
  rw [metadataWarnings, get_envelopeMetadata hget (by simp [lit_eq]) (by simp [lit_eq])]
  simp only [Json.asArr, Option.bind_some, mapM_ofJson_value]

theorem metadataSummary_metadata (h : e.Fits) :
    metadataSummary (envelopeMetadata e refillAudit pdfPageAudits) = .ok e.summary := by
  have hget : (envelopeMetadata e none none).get (lit "summary") = some e.summary.value := by
    simp [envelopeMetadata, optionalField, Json.get, lit_eq]
  rw [metadataSummary, get_envelopeMetadata hget (by simp [lit_eq]) (by simp [lit_eq])]
  simp [ContextSummary.ofJson_value h.summary]

theorem asNullable_num {x : Option ℕ} (h : ∀ n ∈ x, n ≤ u64Max) :
    (Json.ofNullable Json.num x).asNullable Json.asU64 = some x :=
  Json.asNullable_ofNullable (fun n hn => Json.asU64_num (h n hn)) fun _ => by simp

/-- **Rebuilding puts the context of the artifact into the envelope.** -/
theorem rebuildEnvelope_metadata (h : e.Fits) (artifact : Option ArtifactDraft) :
    rebuildEnvelope (envelopeMetadata e refillAudit pdfPageAudits) e.summary artifact =
      (do
        let envelope :=
          { e with fileContext := (artifact.map ArtifactDraft.finalContext).getD [] }
        envelope.validate
        .ok envelope) := by
  have hcontract : metadataField (envelopeMetadata e refillAudit pdfPageAudits) (lit "contract")
      Json.asStr = .ok e.contract :=
    metadataField_metadata (v := .str e.contract)
      (by simp [envelopeMetadata, optionalField, Json.get, lit_eq]) rfl (by simp [lit_eq])
      (by simp [lit_eq])
  have hversion : metadataField (envelopeMetadata e refillAudit pdfPageAudits)
      (lit "protocol_version") Json.asU64 = .ok e.protocolVersion :=
    metadataField_metadata (v := .num e.protocolVersion)
      (by simp [envelopeMetadata, optionalField, Json.get, lit_eq])
      (Json.asU64_num h.protocolVersion) (by simp [lit_eq]) (by simp [lit_eq])
  have hrequest : metadataField (envelopeMetadata e refillAudit pdfPageAudits) (lit "request_id")
      Json.asStr = .ok e.requestId :=
    metadataField_metadata (v := .str e.requestId)
      (by simp [envelopeMetadata, optionalField, Json.get, lit_eq]) rfl (by simp [lit_eq])
      (by simp [lit_eq])
  have hengine : metadataField (envelopeMetadata e refillAudit pdfPageAudits)
      (lit "engine_version") Json.asStr = .ok e.engineVersion :=
    metadataField_metadata (v := .str e.engineVersion)
      (by simp [envelopeMetadata, optionalField, Json.get, lit_eq]) rfl (by simp [lit_eq])
      (by simp [lit_eq])
  have hbuild : metadataField (envelopeMetadata e refillAudit pdfPageAudits) (lit "engine_build")
      Json.asStr = .ok e.engineBuild :=
    metadataField_metadata (v := .str e.engineBuild)
      (by simp [envelopeMetadata, optionalField, Json.get, lit_eq]) rfl (by simp [lit_eq])
      (by simp [lit_eq])
  have hscan : nullableField (envelopeMetadata e refillAudit pdfPageAudits) (lit "scan_run_id")
      Json.asU64 = .ok e.scanRunId :=
    nullableField_metadata (v := .ofNullable .num e.scanRunId)
      (by simp [envelopeMetadata, optionalField, Json.get, lit_eq]) (asNullable_num h.scanRunId)
      (by simp [lit_eq]) (by simp [lit_eq])
  have hcontext : nullableField (envelopeMetadata e refillAudit pdfPageAudits)
      (lit "context_run_id") Json.asU64 = .ok e.contextRunId :=
    nullableField_metadata (v := .ofNullable .num e.contextRunId)
      (by simp [envelopeMetadata, optionalField, Json.get, lit_eq]) (asNullable_num h.contextRunId)
      (by simp [lit_eq]) (by simp [lit_eq])
  have herror : nullableField (envelopeMetadata e refillAudit pdfPageAudits) (lit "error")
      Diagnostic.ofJson = .ok e.error :=
    nullableField_metadata (v := .ofNullable Diagnostic.value e.error)
      (by simp [envelopeMetadata, optionalField, Json.get, lit_eq])
      (Json.asNullable_ofNullable (fun d _ => d.ofJson_value) fun d => by simp [Diagnostic.value])
      (by simp [lit_eq]) (by simp [lit_eq])
  simp only [rebuildEnvelope, hcontract, hversion, hrequest, hengine, hbuild,
    metadataStatus_metadata, hscan, hcontext, metadataWarnings_metadata, herror]
  rfl

end

variable [Sha256]

/-- The context of a run, where it has one with an artifact. -/
def loadArtifactForReplay (db : Db) (scanRunId : ℕ) : Except StoreError (Option ArtifactDraft) :=
  match (db.contexts.find? fun row => decide (row.scanRunId = scanRunId)).bind
      ContextRunRow.artifactId with
  | some artifactId => (loadArtifact db artifactId).map some
  | none => .ok none

def rebuildEnvelopeFromMetadata (db : Db) (scanRunId : ℕ) (metadataJson : Text) :
    Except StoreError ContextEnvelope := do
  let metadata ← parseMetadata metadataJson
  let summary ← metadataSummary metadata
  let artifact ← loadArtifactForReplay db scanRunId
  let envelope ← rebuilt (rebuildEnvelope metadata summary artifact)
  require (envelope.validate = .ok ())
    (.runCorrupt (lit "rebuilt envelope violates the contract"))
  .ok envelope

/-! ### Stored envelopes -/

structure StoredEnvelope where
  scanRunId : ℕ
  envelopeJson : Text
  envelope : ContextEnvelope
  deriving DecidableEq

def envelopeStatusMatches : RunStatus → EngineStatus → Bool
  | .success, .ok | .partialSuccess, .partialOk | .error, .error => true
  | _, _ => false

/-- The digest of a logical request. -/
def requestHash (json : Text) : Text := Sha256.hex (lit "request-v1" ++ [Char.ofNat 0] ++ json)

def storedRequestInvalid : StoreError :=
  .runCorrupt (lit "stored logical request hash is invalid")

def terminalMetadata (run : ScanRunRow) : Except StoreError Text :=
  match run.finalEnvelopeMetadataJson with
  | some metadataJson => .ok metadataJson
  | none => .error (.runCorrupt (lit "terminal run has no envelope metadata"))

/-- The envelope that a committed run answered with. -/
def loadStoredEnvelope (db : Db) (run : ScanRunRow) (requestId : Text) :
    Except StoreError StoredEnvelope := do
  require (requestHash run.canonicalRequestJson = run.requestHash) storedRequestInvalid
  require (run.status.isTerminal = true)
    (.runCorrupt (lit "nonterminal run has no reusable envelope"))
  let metadataJson ← terminalMetadata run
  let envelope ← rebuildEnvelopeFromMetadata db run.scanRunId metadataJson
  let envelopeJson ← canonicalEnvelopeJson envelope
  require (envelope.requestId = requestId ∧ envelope.scanRunId = some run.scanRunId ∧
      envelopeStatusMatches run.status envelope.status = true)
    (.runCorrupt (lit "rebuilt envelope does not match its run"))
  .ok { scanRunId := run.scanRunId, envelopeJson, envelope }

end DailyReport.Store
