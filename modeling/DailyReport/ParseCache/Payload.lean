import DailyReport.Contract.AuditJson
import DailyReport.Contract.AuditValid
import DailyReport.OfficeParser.Worksheet
import DailyReport.ParseCache.Lookup

/-!
# The payload of an entry

The content column holds the bare text (version 0) or the JSON of the text, its digest and its audit
(version 1).  Which of them it is follows from the parse profile, never from the content.

* `decodeEntry_storedContent` : what was stored is decoded.
-/

namespace DailyReport.ParseCache

open Lib

def parseCachePayloadVersion : ℕ := 1

/-! ### Records -/

/-- `parse_source_version`: the time of the last change and the size. -/
def parseSourceVersion (value : Text) : Except Text (ℕ × ℕ) :=
  match (stripPrefixText (lit "mtime_ns=") value).bind (splitOnce (lit ":size=")) with
  | none => .error (lit "invalid source version")
  | some (mtime, size) =>
    match OfficeParser.parseU64 mtime, OfficeParser.parseU64 size with
    | none, _ => .error (lit "invalid source mtime")
    | some _, none => .error (lit "invalid source size")
    | some mtimeNs, some sizeBytes => .ok (mtimeNs, sizeBytes)

def sourceGuardKinds : List Text :=
  [lit "windows_file_id_change_time_v1", lit "unix_inode_ctime_v1", lit "content_sha256_v1"]

/-- The check on the audit that a record has. -/
def validateEvidence (record : CacheWriteRecord) : Checked :=
  match record.evidenceAudit with
  | some audit => audit.validate record.content
  | none => .ok ()

/-- The checks on a record before it is written. -/
def validateRecord (digests : Digests) (record : CacheWriteRecord) : Checked :=
  if record.cachePayloadVersion > parseCachePayloadVersion then
    .error (lit "unsupported parse cache payload version")
  else do
    validateEvidence record
    if record.fileIdentity = [] ∨ 4096 < record.fileIdentity.length ∨ record.sourceVersion = [] ∨
        (parseSourceVersion record.sourceVersion).toOption = none ∨
        record.sourceGuardKind ∉ sourceGuardKinds ∨
        isSha256Hex record.sourceGuardSha256 = false ∨
        isSha256Hex record.parseProfileHash = false ∨ isSha256Hex record.contentSha256 = false ∨
        digests.sha256Hex record.content ≠ record.contentSha256 ∨
        record.parserBackend = [] ∨ 1024 < record.parserBackend.length ∨
        record.workerLane = [] ∨ 1024 < record.workerLane.length ∨
        record.workerContractVersion = [] ∨ 1024 < record.workerContractVersion.length ∨
        record.workerVersion = [] ∨ 1024 < record.workerVersion.length ∨
        record.workerBuild = [] ∨ 4096 < record.workerBuild.length then
      .error (lit "invalid successful cache record")
    else .ok ()

/-- The entry of a record with the given content. -/
def recordEntry (record : CacheWriteRecord) (content contentSha256 : Text) : CacheEntry :=
  ⟨content, contentSha256, none, record.parserBackend, record.workerLane, record.truncated,
    record.workerContractVersion, record.workerVersion, record.workerBuild⟩

/-! ### Payloads -/

structure ParseCachePayload where
  version : ℕ
  text : Text
  textSha256 : Text
  evidenceAudit : ParsedContentAudit

def ParseCachePayload.json (payload : ParseCachePayload) : Json :=
  .obj [(lit "version", .num payload.version), (lit "text", .str payload.text),
    (lit "text_sha256", .str payload.textSha256),
    (lit "evidence_audit", payload.evidenceAudit.json)]

def ParseCachePayload.ofJson (v : Json) : Option ParseCachePayload := do
  guard (onlyFields [lit "version", lit "text", lit "text_sha256", lit "evidence_audit"] v)
  let version ← (← v.get (lit "version")).asU64
  let text ← (← v.get (lit "text")).asStr
  let textSha256 ← (← v.get (lit "text_sha256")).asStr
  let evidenceAudit ← ParsedContentAudit.ofJson (← v.get (lit "evidence_audit"))
  some { version, text, textSha256, evidenceAudit }

theorem ParseCachePayload.ofJson_json {payload : ParseCachePayload}
    (hversion : payload.version ≤ u64Max) (haudit : payload.evidenceAudit.Fits)
    (harchive : payload.evidenceAudit.archive = false) :
    ParseCachePayload.ofJson payload.json = some payload := by
  simp [ParseCachePayload.ofJson, ParseCachePayload.json, onlyFields, Json.get, Json.asStr, lit_eq,
    Json.asU64_num hversion, ParsedContentAudit.ofJson_json haudit harchive, guard]

/-- What reads a payload.  It reads at least what was written. -/
structure JsonReader where
  read : Text → Option Json
  read_print : ∀ v, read v.print = some v

/-- The audit of a parser that reports nothing. -/
def defaultAudit : ParsedContentAudit := ⟨false, 1, none, none, none, none, none⟩

/-- The content column of a record, with its digest. -/
def storedContent (digests : Digests) (record : CacheWriteRecord) : Text × Text :=
  if record.cachePayloadVersion = 0 then (record.content, record.contentSha256)
  else
    let payload : ParseCachePayload := ⟨record.cachePayloadVersion, record.content,
      record.contentSha256, record.evidenceAudit.getD defaultAudit⟩
    (payload.json.print, digests.sha256Hex payload.json.print)

/-- The payload of an entry. -/
def decodeEntry (digests : Digests) (reader : JsonReader) (version : ℕ) (entry : CacheEntry) :
    Except Text ParseCachePayload := do
  validateEntry digests entry
  match (reader.read entry.content).bind ParseCachePayload.ofJson with
  | none => .error (lit "invalid parse cache payload")
  | some payload =>
    if payload.version ≠ version ∨ version ≠ parseCachePayloadVersion ∨
        digests.sha256Hex payload.text ≠ payload.textSha256 then
      .error (lit "parse cache logical identity is invalid")
    else
      match payload.evidenceAudit.validate payload.text with
      | .error _ => .error (lit "invalid cached positions")
      | .ok () => .ok payload

def decodePayload (digests : Digests) (reader : JsonReader) (version : ℕ) (lookup : CacheLookup) :
    CacheLookup :=
  match lookup with
  | .miss reason => .miss reason
  | .fresh entry =>
    if version = 0 then .fresh entry
    else
      match decodeEntry digests reader version entry with
      | .ok payload => .fresh { entry with
          content := payload.text, contentSha256 := payload.textSha256,
          evidenceAudit := some payload.evidenceAudit }
      | .error _ => .miss .entryAbsentOrEvicted

/-! ### What passes the checks -/

/-- What an entry has that passes its checks. -/
structure ValidEntry (digests : Digests) (entry : CacheEntry) : Prop where
  digest : isSha256Hex entry.contentSha256 = true
  content : digests.sha256Hex entry.content = entry.contentSha256
  parserBackend : entry.parserBackend ≠ [] ∧ entry.parserBackend.length ≤ 1024
  workerLane : entry.workerLane ≠ [] ∧ entry.workerLane.length ≤ 1024
  workerContractVersion :
    entry.workerContractVersion ≠ [] ∧ entry.workerContractVersion.length ≤ 1024
  workerVersion : entry.workerVersion ≠ [] ∧ entry.workerVersion.length ≤ 1024
  workerBuild : entry.workerBuild ≠ [] ∧ entry.workerBuild.length ≤ 4096

variable {digests : Digests} {reader : JsonReader} {record : CacheWriteRecord}

theorem validateEntry_ok_iff {entry : CacheEntry} :
    validateEntry digests entry = .ok () ↔ ValidEntry digests entry := by
  rw [validateEntry, refuse_ok_iff]
  simp only [not_or, Bool.not_eq_false, ne_eq, not_not, Nat.not_lt, and_true]
  constructor
  · rintro ⟨h₁, h₂, h₃, h₄, h₅, h₆, h₇, h₈, h₉, h₁₀, h₁₁, h₁₂⟩
    exact ⟨h₁, h₂, ⟨h₃, h₄⟩, ⟨h₅, h₆⟩, ⟨h₇, h₈⟩, ⟨h₉, h₁₀⟩, ⟨h₁₁, h₁₂⟩⟩
  · rintro ⟨h₁, h₂, ⟨h₃, h₄⟩, ⟨h₅, h₆⟩, ⟨h₇, h₈⟩, ⟨h₉, h₁₀⟩, ⟨h₁₁, h₁₂⟩⟩
    exact ⟨h₁, h₂, h₃, h₄, h₅, h₆, h₇, h₈, h₉, h₁₀, h₁₁, h₁₂⟩

/-- A record that passes its checks is a valid entry, with a valid audit if it has one. -/
theorem of_validateRecord (h : validateRecord digests record = .ok ()) :
    record.cachePayloadVersion ≤ 1 ∧
      (∀ audit ∈ record.evidenceAudit, audit.validate record.content = .ok ()) ∧
      ValidEntry digests (recordEntry record record.content record.contentSha256) := by
  rw [validateRecord, refuse_ok_iff, bind_ok_iff, refuse_ok_iff] at h
  obtain ⟨hversion, hevidence, hfields, -⟩ := h
  refine ⟨Nat.not_lt.1 hversion, fun audit haudit => ?_, ?_⟩
  · rw [validateEvidence, Option.mem_def.1 haudit] at hevidence
    exact hevidence
  · simp only [not_or, Bool.not_eq_false, ne_eq, not_not, Nat.not_lt] at hfields
    obtain ⟨-, -, -, -, -, -, -, hdigest, hcontent, h₃, h₄, h₅, h₆, h₇, h₈, h₉, h₁₀, h₁₁, h₁₂⟩ :=
      hfields
    exact ⟨hdigest, hcontent, ⟨h₃, h₄⟩, ⟨h₅, h₆⟩, ⟨h₇, h₈⟩, ⟨h₉, h₁₀⟩, ⟨h₁₁, h₁₂⟩⟩

/-- The audit of a parser that reports nothing is valid for every text. -/
theorem validate_defaultAudit (text : Text) : defaultAudit.validate text = .ok () := by
  rw [validate_ok_iff]
  refine ⟨⟨rfl, rfl, nofun, Nat.zero_le _, nofun, Nat.zero_le _, ⟨nofun, .nil, .nil⟩, nofun, nofun⟩,
    ?_⟩
  decide +kernel

/-- The audit that is stored with a valid record is valid. -/
theorem validate_storedAudit (h : validateRecord digests record = .ok ()) :
    (record.evidenceAudit.getD defaultAudit).validate record.content = .ok () := by
  cases haudit : record.evidenceAudit with
  | none => exact validate_defaultAudit record.content
  | some audit => exact (of_validateRecord h).2.1 audit haudit

/-- The content column of a valid record is a valid entry. -/
theorem validEntry_storedContent (h : validateRecord digests record = .ok ()) :
    ValidEntry digests (recordEntry record (storedContent digests record).1
      (storedContent digests record).2) := by
  obtain ⟨-, -, hvalid⟩ := of_validateRecord h
  unfold storedContent
  split_ifs with hversion
  · exact hvalid
  · exact { hvalid with digest := digests.isSha256Hex_sha256Hex _, content := rfl }

/-- The entry that a lookup of a record gives when it is decoded. -/
def decodedEntry (record : CacheWriteRecord) : CacheEntry :=
  { recordEntry record record.content record.contentSha256 with
    evidenceAudit :=
      if record.cachePayloadVersion = 0 then none
      else some (record.evidenceAudit.getD defaultAudit) }

/-- **What was stored is decoded**: the text, its digest and the audit of the record. -/
theorem decodePayload_storedContent (h : validateRecord digests record = .ok ())
    (hfits : ∀ audit ∈ record.evidenceAudit, audit.Fits) :
    decodePayload digests reader record.cachePayloadVersion
        (.fresh (recordEntry record (storedContent digests record).1
          (storedContent digests record).2)) =
      .fresh (decodedEntry record) := by
  obtain ⟨hversion, -, hvalid⟩ := of_validateRecord h
  by_cases hzero : record.cachePayloadVersion = 0
  · simp only [decodePayload, storedContent, decodedEntry, hzero, if_true]
    rfl
  · have hone : record.cachePayloadVersion = 1 := by omega
    have hstored := validate_storedAudit h
    have haudit : (record.evidenceAudit.getD defaultAudit).Fits := by
      cases heq : record.evidenceAudit with
      | none => exact ⟨by decide, nofun, nofun, nofun⟩
      | some audit => exact hfits audit heq
    have harchive := (validate_ok_iff.1 hstored).1.archive
    have hentry := validEntry_storedContent h
    have hdecode : decodeEntry digests reader record.cachePayloadVersion
        (recordEntry record (storedContent digests record).1 (storedContent digests record).2) =
        .ok ⟨record.cachePayloadVersion, record.content, record.contentSha256,
          record.evidenceAudit.getD defaultAudit⟩ := by
      rw [decodeEntry, validateEntry_ok_iff.2 hentry]
      have hread : (reader.read (storedContent digests record).1).bind
          ParseCachePayload.ofJson = some ⟨record.cachePayloadVersion, record.content,
            record.contentSha256, record.evidenceAudit.getD defaultAudit⟩ := by
        rw [storedContent, if_neg hzero]
        dsimp only
        rw [reader.read_print, Option.bind_some,
          ParseCachePayload.ofJson_json (hversion.trans (by decide)) haudit harchive]
      dsimp only [recordEntry] at hread ⊢
      rw [hread]
      have hsame : ¬(record.cachePayloadVersion ≠ record.cachePayloadVersion ∨
          record.cachePayloadVersion ≠ parseCachePayloadVersion ∨
          digests.sha256Hex record.content ≠ record.contentSha256) := by
        rw [not_or, not_or, not_not, not_not, not_not]
        exact ⟨rfl, hone, hvalid.content⟩
      dsimp only [bind, Except.bind]
      rw [if_neg hsame, hstored]
    rw [decodePayload, if_neg hzero, hdecode, decodedEntry, if_neg hzero]
    rfl

end DailyReport.ParseCache
