import DailyReport.Lib.Utf8Read
import DailyReport.ParseCache.DateBucket
import DailyReport.ParseCache.Eviction
import DailyReport.ParseCache.Payload

/-!
# The writes of the two caches

The parse cache and the classification cache are cache tables (`parseCacheTable`,
`classificationCacheTable`), with the records that are written to them.
-/

namespace DailyReport.ParseCache

open Lib

def parseCacheMaxBytes : ℕ := 1073741824

def classificationCacheMaxBytes : ℕ := 134217728

/-- `length()` of a text: its characters in front of the first zero.  `inside` says that a character
of several bytes has begun. -/
def sqliteLengthFrom : Bool → Bytes → ℕ
  | _, [] => 0
  | inside, b :: rest =>
    if b = 0 then 0
    else if inside && isUtf8Continuation b then sqliteLengthFrom true rest
    else sqliteLengthFrom (decide (0xC0 ≤ b)) rest + 1

def sqliteLength (bytes : Bytes) : ℕ := sqliteLengthFrom false bytes

/-- Bytes of a text. -/
def textBytes (t : Text) : ℕ := (encodeUtf8 t).length

/-- The bucket of a time. -/
def bucketOf (ms : ℤ) : Bytes := encodeUtf8 ((dateBucketForMs ms).getD [])

theorem readText_eq {column : ℕ} {bytes : Bytes} {t : Text} (h : readText column bytes = .ok t) :
    encodeUtf8 t = bytes := by
  unfold readText at h
  split at h
  · next hdecode =>
    cases h
    exact (decodeUtf8_complete_iff.1 hdecode).symm
  · cases h

/-! ### The parse cache -/

/-- What it takes to parse a file again, by the backend. -/
def recomputeRank (parserBackend : Text) : Option ℕ :=
  if parserBackend = lit "light_text_v2" then some 1
  else if parserBackend = lit "rust_xlsx_bounded_v2" then some 2
  else if parserBackend = lit "rust_office_oxide_v2" then some 2
  else if parserBackend = lit "rust_legacy_office_v3" then some 3
  else if parserBackend = lit "rust_xls_calamine_v3" then some 4
  else if parserBackend = lit "rust_pdfium_v3" then some 10
  else none

/-- The rank in the order of the eviction; rows of unknown backends come last. -/
def evictionRank (parserBackend : Bytes) : ℕ :=
  if parserBackend = encodeUtf8 (lit "light_text_v2") then 1
  else if parserBackend = encodeUtf8 (lit "rust_xlsx_bounded_v2") then 2
  else if parserBackend = encodeUtf8 (lit "rust_office_oxide_v2") then 2
  else if parserBackend = encodeUtf8 (lit "rust_legacy_office_v3") then 3
  else if parserBackend = encodeUtf8 (lit "rust_xls_calamine_v3") then 4
  else if parserBackend = encodeUtf8 (lit "rust_pdfium_v3") then 10
  else 99

def parseEntrySizeBytes (digests : Digests) (record : CacheWriteRecord) : ℕ :=
  ([record.fileIdentity, record.sourceVersion, record.sourceGuardKind, record.sourceGuardSha256,
    record.parseProfileHash, (storedContent digests record).1, record.contentSha256,
    record.parserBackend, record.workerLane, record.workerContractVersion, record.workerVersion,
    record.workerBuild].map textBytes).sum + 8

/-- The key of a record. -/
def recordKey (record : CacheWriteRecord) : CacheKey Text :=
  ⟨record.fileIdentity, record.sourceVersion, record.sourceGuardKind, record.sourceGuardSha256,
    record.parseProfileHash⟩

/-- The row of a record. -/
def parseCacheRow (digests : Digests) (cachedAtMs : Int64) (record : CacheWriteRecord) :
    ParseCacheRow where
  key := (recordKey record).map encodeUtf8
  content := encodeUtf8 (storedContent digests record).1
  contentSha256 := encodeUtf8 (storedContent digests record).2
  parserBackend := encodeUtf8 record.parserBackend
  workerLane := encodeUtf8 record.workerLane
  truncated := if record.truncated then 1 else 0
  workerContractVersion := encodeUtf8 record.workerContractVersion
  workerVersion := encodeUtf8 record.workerVersion
  workerBuild := encodeUtf8 record.workerBuild
  cachedAtMs := cachedAtMs.toInt
  entrySizeBytes := parseEntrySizeBytes digests record
  generationRank := 1
  lastAccessedBucket := bucketOf cachedAtMs.toInt

/-- The constraints of the table. -/
def ParseCacheRow.meetsConstraints (row : ParseCacheRow) : Bool :=
  decide (row.key.sourceGuardKind ∈ sourceGuardKinds.map encodeUtf8 ∧
    sqliteLength row.key.sourceGuardSha256 = 64 ∧ sqliteLength row.key.parseProfileHash = 64 ∧
    sqliteLength row.contentSha256 = 64)

/-- What stops a record from being written. -/
def checkParseRecord (digests : Digests) (inInventory : Text → Bool) (cachedAtMs : Int64)
    (record : CacheWriteRecord) : Except SqlError Unit :=
  if recomputeRank record.parserBackend = none then
    .error (.cacheWrite (lit "parse cache backend '" ++ record.parserBackend ++
      lit "' has no retention recompute_rank"))
  else if parseCacheMaxBytes < parseEntrySizeBytes digests record then
    .error (.cacheWrite (lit "parse cache entry exceeds the 1073741824 byte hard cap"))
  else if (parseCacheRow digests cachedAtMs record).meetsConstraints && inInventory record.fileIdentity
  then .ok ()
  else .error .constraint

/-- The key of a row as texts. -/
def readParseKey (row : ParseCacheRow) : Except SqlError (CacheKey Text) := do
  let fileIdentity ← readText 0 row.key.fileIdentity
  let sourceVersion ← readText 1 row.key.sourceVersion
  let sourceGuardKind ← readText 2 row.key.sourceGuardKind
  let sourceGuardSha256 ← readText 3 row.key.sourceGuardSha256
  let parseProfileHash ← readText 4 row.key.parseProfileHash
  pure ⟨fileIdentity, sourceVersion, sourceGuardKind, sourceGuardSha256, parseProfileHash⟩

theorem readParseKey_eq {row : ParseCacheRow} {key : CacheKey Text}
    (h : readParseKey row = .ok key) : key.map encodeUtf8 = row.key := by
  unfold readParseKey at h
  obtain ⟨_, h₁, h⟩ := bind_eq_ok.1 h
  obtain ⟨_, h₂, h⟩ := bind_eq_ok.1 h
  obtain ⟨_, h₃, h⟩ := bind_eq_ok.1 h
  obtain ⟨_, h₄, h⟩ := bind_eq_ok.1 h
  obtain ⟨_, h₅, h⟩ := bind_eq_ok.1 h
  obtain rfl := Except.ok.inj h
  rw [CacheKey.map, readText_eq h₁, readText_eq h₂, readText_eq h₃, readText_eq h₄, readText_eq h₅]

def parseCacheTable : CacheTable ParseCacheRow (CacheKey Bytes) where
  key := ParseCacheRow.key
  readKey row := (readParseKey row).map (CacheKey.map encodeUtf8)
  generationRank := ParseCacheRow.generationRank
  costRank row := evictionRank row.parserBackend
  lastAccessedBucket := ParseCacheRow.lastAccessedBucket
  cachedAtMs := ParseCacheRow.cachedAtMs
  keyLength row := sqliteLength row.key.fileIdentity + sqliteLength row.key.sourceVersion +
    sqliteLength row.key.sourceGuardKind + sqliteLength row.key.sourceGuardSha256 +
    sqliteLength row.key.parseProfileHash
  entrySizeBytes := ParseCacheRow.entrySizeBytes
  -- the update leaves out the generation
  replace old new := { new with generationRank := old.generationRank }
  readKey_eq row key h := by
    obtain ⟨key, hkey, rfl⟩ := map_eq_ok.1 h
    exact readParseKey_eq hkey
  replace_eq old new h := by rw [h]
  key_replace _ _ _ := rfl

def writeSuccessCacheWithCheck (digests : Digests) (inInventory : Text → Bool)
    (choice : FirstChoice parseCacheTable.evictionTuple) (deadlineOpen : ℕ → Bool)
    (cachedAtMs : Int64) (records : List CacheWriteRecord) (rows : List ParseCacheRow) :
    Option (Except SqlError (List ParseCacheRow)) :=
  writeWithCheck parseCacheTable choice deadlineOpen parseCacheMaxBytes
    (checkParseRecord digests inInventory cachedAtMs) (parseCacheRow digests cachedAtMs) records rows

/-! ### The classification cache -/

/-- What identifies a classification. -/
structure ClassificationKey (α : Type) where
  fileIdentity : α
  sourceVersion : α
  sourceGuardKind : α
  sourceGuardSha256 : α
  classifierProfileHash : α
  classifierBuild : α
  deriving DecidableEq

/-- A key with its columns mapped. -/
def ClassificationKey.map {α β : Type} (f : α → β) (key : ClassificationKey α) :
    ClassificationKey β :=
  ⟨f key.fileIdentity, f key.sourceVersion, f key.sourceGuardKind, f key.sourceGuardSha256,
    f key.classifierProfileHash, f key.classifierBuild⟩

/-- A row of `classification_cache`. -/
structure ClassificationCacheRow where
  key : ClassificationKey Bytes
  status : Bytes
  pageCount : ℕ
  resultExaminedPages : ℕ
  cachedAtMs : ℤ
  entrySizeBytes : ℕ
  generationRank : ℕ
  lastAccessedBucket : Bytes
  deriving DecidableEq

def classificationEntrySizeBytes (record : ClassificationCacheWriteRecord) : ℕ :=
  ([record.fileIdentity, record.sourceVersion, record.sourceGuardKind, record.sourceGuardSha256,
    record.classifierProfileHash, record.classifierBuild, record.status].map textBytes).sum + 8 + 8

/-- The row of a record. -/
def classificationCacheRow (cachedAtMs : Int64) (record : ClassificationCacheWriteRecord) :
    ClassificationCacheRow where
  key := ClassificationKey.map encodeUtf8 ⟨record.fileIdentity, record.sourceVersion,
    record.sourceGuardKind, record.sourceGuardSha256, record.classifierProfileHash,
    record.classifierBuild⟩
  status := encodeUtf8 record.status
  pageCount := record.pageCount
  resultExaminedPages := record.resultExaminedPages
  cachedAtMs := cachedAtMs.toInt
  entrySizeBytes := classificationEntrySizeBytes record
  generationRank := 1
  lastAccessedBucket := bucketOf cachedAtMs.toInt

/-- The constraints of the table.  A number of pages that is too large for a signed number is
negative there. -/
def ClassificationCacheRow.meetsConstraints (row : ClassificationCacheRow) : Bool :=
  decide (row.key.sourceGuardKind ∈ sourceGuardKinds.map encodeUtf8 ∧
    sqliteLength row.key.sourceGuardSha256 = 64 ∧
    sqliteLength row.key.classifierProfileHash = 64 ∧
    sqliteLength row.key.classifierBuild = 64 ∧
    row.status ∈ [lit "text_in_parse_window", lit "no_text_in_parse_window"].map encodeUtf8 ∧
    row.pageCount < 2 ^ 63 ∧ row.resultExaminedPages < 2 ^ 63)

/-- What stops a record from being written. -/
def checkClassificationRecord (inInventory : Text → Bool) (cachedAtMs : Int64)
    (record : ClassificationCacheWriteRecord) : Except SqlError Unit :=
  if classificationCacheMaxBytes < classificationEntrySizeBytes record then
    .error (.cacheWrite (lit "classification cache entry exceeds the 134217728 byte hard cap"))
  else if (classificationCacheRow cachedAtMs record).meetsConstraints &&
      inInventory record.fileIdentity then .ok ()
  else .error .constraint

/-- The key of a row as texts. -/
def readClassificationKey (row : ClassificationCacheRow) :
    Except SqlError (ClassificationKey Text) := do
  let fileIdentity ← readText 0 row.key.fileIdentity
  let sourceVersion ← readText 1 row.key.sourceVersion
  let sourceGuardKind ← readText 2 row.key.sourceGuardKind
  let sourceGuardSha256 ← readText 3 row.key.sourceGuardSha256
  let classifierProfileHash ← readText 4 row.key.classifierProfileHash
  let classifierBuild ← readText 5 row.key.classifierBuild
  pure ⟨fileIdentity, sourceVersion, sourceGuardKind, sourceGuardSha256, classifierProfileHash,
    classifierBuild⟩

theorem readClassificationKey_eq {row : ClassificationCacheRow} {key : ClassificationKey Text}
    (h : readClassificationKey row = .ok key) : key.map encodeUtf8 = row.key := by
  unfold readClassificationKey at h
  obtain ⟨_, h₁, h⟩ := bind_eq_ok.1 h
  obtain ⟨_, h₂, h⟩ := bind_eq_ok.1 h
  obtain ⟨_, h₃, h⟩ := bind_eq_ok.1 h
  obtain ⟨_, h₄, h⟩ := bind_eq_ok.1 h
  obtain ⟨_, h₅, h⟩ := bind_eq_ok.1 h
  obtain ⟨_, h₆, h⟩ := bind_eq_ok.1 h
  obtain rfl := Except.ok.inj h
  rw [ClassificationKey.map, readText_eq h₁, readText_eq h₂, readText_eq h₃, readText_eq h₄,
    readText_eq h₅, readText_eq h₆]

def classificationCacheTable : CacheTable ClassificationCacheRow (ClassificationKey Bytes) where
  key := ClassificationCacheRow.key
  readKey row := (readClassificationKey row).map (ClassificationKey.map encodeUtf8)
  generationRank := ClassificationCacheRow.generationRank
  costRank := ClassificationCacheRow.resultExaminedPages
  lastAccessedBucket := ClassificationCacheRow.lastAccessedBucket
  cachedAtMs := ClassificationCacheRow.cachedAtMs
  keyLength row := sqliteLength row.key.fileIdentity + sqliteLength row.key.sourceVersion +
    sqliteLength row.key.sourceGuardKind + sqliteLength row.key.sourceGuardSha256 +
    sqliteLength row.key.classifierProfileHash + sqliteLength row.key.classifierBuild
  entrySizeBytes := ClassificationCacheRow.entrySizeBytes
  replace old new := { new with generationRank := old.generationRank }
  readKey_eq row key h := by
    obtain ⟨key, hkey, rfl⟩ := map_eq_ok.1 h
    exact readClassificationKey_eq hkey
  replace_eq old new h := by rw [h]
  key_replace _ _ _ := rfl

def writeSuccessClassificationCacheWithCheck (inInventory : Text → Bool)
    (choice : FirstChoice classificationCacheTable.evictionTuple) (deadlineOpen : ℕ → Bool)
    (cachedAtMs : Int64) (records : List ClassificationCacheWriteRecord)
    (rows : List ClassificationCacheRow) : Option (Except SqlError (List ClassificationCacheRow)) :=
  writeWithCheck classificationCacheTable choice deadlineOpen classificationCacheMaxBytes
    (checkClassificationRecord inInventory cachedAtMs) (classificationCacheRow cachedAtMs) records
    rows

end DailyReport.ParseCache
