import DailyReport.ParseCache.Writes

/-!
# What is written is looked up

* `lookupCache_of_find` : a row of the content of a record is found and decoded;
* `payload_roundTrip` : **a record that is stored is looked up as it was written, and not at all when
  its content was changed**.
-/

namespace DailyReport.ParseCache

open Lib

variable {digests : Digests} {reader : JsonReader} {record : CacheWriteRecord}

/-- A write of records to a table. -/
structure WriteOf (digests : Digests) (records : List CacheWriteRecord)
    (table table' : ParseCacheTable) : Prop where
  written : ∃ (inInventory : Text → Bool) (choice : FirstChoice parseCacheTable.evictionTuple)
    (deadlineOpen : ℕ → Bool) (cachedAtMs : Int64),
    writeSuccessCacheWithCheck digests inInventory choice deadlineOpen cachedAtMs records
      table.rows = some (.ok table'.rows)

/-- The record is written and not replaced by a later one nor evicted. -/
structure Stores (digests : Digests) (record : CacheWriteRecord)
    (table table' : ParseCacheTable) : Prop where
  written : ∃ before after, WriteOf digests (before ++ record :: after) table table' ∧
    ∀ later ∈ after, recordKey later ≠ recordKey record
  kept : table'.find (recordKey record) ≠ none

/-- The row has the columns of the record. -/
def RowOf (digests : Digests) (record : CacheWriteRecord) (row : ParseCacheRow) : Prop :=
  ∃ (cachedAtMs : Int64) (generationRank : ℕ),
    row = { parseCacheRow digests cachedAtMs record with generationRank := generationRank }

/-- The last record with its key is the last write of it. -/
theorem eq_of_mem_lastWrites {α κ : Type} [DecidableEq κ] {key : α → κ} {before after : List α}
    {a b : α} (hafter : ∀ c ∈ after, key c ≠ key a) (hkey : key b = key a)
    (h : b ∈ lastWrites key (before ++ a :: after)) : b = a := by
  induction before with
  | nil =>
    have hlast : key a ∉ after.map key := by
      intro hmem
      obtain ⟨c, hc, hca⟩ := List.mem_map.1 hmem
      exact hafter c hc hca
    rw [List.nil_append, lastWrites, if_neg hlast] at h
    rcases List.mem_cons.1 h with rfl | h
    · rfl
    · exact absurd hkey (hafter b (mem_of_mem_lastWrites h))
  | cons c before ih =>
    rw [List.cons_append, lastWrites] at h
    split_ifs at h with hlater
    · exact ih h
    · rcases List.mem_cons.1 h with rfl | h
      · exact absurd (List.mem_map.2 ⟨a, by simp, hkey.symm⟩) hlater
      · exact ih h

theorem CacheKey.map_encode_injective : Function.Injective (CacheKey.map encodeUtf8) :=
  CacheKey.map_injective fun t u h => by
    have hdecode := decodeUtf8_encodeUtf8 t
    rw [h, decodeUtf8_encodeUtf8] at hdecode
    exact (Utf8Text.mk.inj hdecode).1.symm

/-- **A record that is stored has its row.** -/
theorem Stores.exists_row {table table' : ParseCacheTable} (h : Stores digests record table table') :
    ∃ row, table'.find (recordKey record) = some row ∧ RowOf digests record row := by
  obtain ⟨⟨before, after, ⟨inInventory, choice, deadlineOpen, cachedAtMs, hwrite⟩, hlast⟩, hkept⟩ := h
  obtain ⟨row, hrow⟩ := Option.ne_none_iff_exists'.1 hkept
  refine ⟨row, hrow, ?_⟩
  have hkey : row.key = (recordKey record).map encodeUtf8 := by simpa using List.find?_some hrow
  obtain ⟨-, victims, hevicts⟩ := writeWithCheck_evicts table.keys_nodup hwrite
  have hmem := hevicts.minimal.sublist.subset (List.mem_of_find?_eq_some hrow)
  have hnew : parseCacheRow digests cachedAtMs record ∈
      (before ++ record :: after).map (parseCacheRow digests cachedAtMs) :=
    List.mem_map_of_mem (by simp)
  rcases of_mem_upsertAll parseCacheTable.key_replace hmem with ⟨-, hold⟩ | ⟨new, hnewest, hrow⟩
  · exact absurd hkey.symm (hold _ hnew)
  · -- the row of the key is that of the last record with it
    have hnewkey : parseCacheTable.key new = (recordKey record).map encodeUtf8 := by
      rcases hrow with rfl | ⟨old, -, rfl⟩
      · exact hkey
      · exact hkey
    rw [List.map_append, List.map_cons] at hnewest
    obtain rfl : new = parseCacheRow digests cachedAtMs record := by
      refine eq_of_mem_lastWrites (fun c hc => ?_) hnewkey hnewest
      obtain ⟨later, hlater, rfl⟩ := List.mem_map.1 hc
      exact fun heq => hlast later hlater (CacheKey.map_encode_injective heq)
    rcases hrow with rfl | ⟨old, -, rfl⟩
    · exact ⟨cachedAtMs, 1, rfl⟩
    · exact ⟨cachedAtMs, old.generationRank, rfl⟩

/-- The row of a record holds its entry. -/
theorem RowOf.holds {row : ParseCacheRow} (h : RowOf digests record row) :
    row.Holds (recordEntry record (storedContent digests record).1
      (storedContent digests record).2) := by
  obtain ⟨cachedAtMs, generationRank, rfl⟩ := h
  refine ⟨rfl, rfl, rfl, rfl, ?_, rfl, rfl, rfl, rfl⟩
  show record.truncated = decide ((if record.truncated then (1 : ℤ) else 0) ≠ 0)
  cases record.truncated <;> rfl

/-- A lookup of a row that is there. -/
theorem lookupCache_of_find {table : ParseCacheTable} {lookup : CacheLookupKey} {row : ParseCacheRow}
    (h : table.find lookup.key = some row) :
    lookupCache digests table lookup = (row.readEntry 0).map fun entry =>
      resolveCacheLookup digests (some entry) false false lookup.inventoryExistedBefore := by
  rw [lookupCache, h]

/-- The lookup of the row of a valid record is fresh. -/
theorem RowOf.lookupCache {table : ParseCacheTable} {row : ParseCacheRow} {existed : Bool}
    (hrow : RowOf digests record row) (hvalid : validateRecord digests record = .ok ())
    (hfind : table.find (recordKey record) = some row) :
    lookupCache digests table ⟨recordKey record, existed⟩ =
      .ok (.fresh (recordEntry record (storedContent digests record).1
        (storedContent digests record).2)) := by
  rw [lookupCache_of_find hfind, hrow.holds.readEntry 0]
  exact congrArg Except.ok (if_pos (validateEntry_ok_iff.2 (validEntry_storedContent hvalid)))

/-- The content of a row is changed to a text. -/
theorem RowOf.lookupCache_changed {table : ParseCacheTable} {row : ParseCacheRow} {existed : Bool}
    {changed : Text} (hrow : RowOf digests record row)
    (hfind : table.find (recordKey record) = some { row with content := encodeUtf8 changed })
    (hhash : digests.sha256Hex changed ≠ (storedContent digests record).2) :
    ParseCache.lookupCache digests table ⟨recordKey record, existed⟩ = .ok (.miss .errorCache) := by
  have hholds : ParseCacheRow.Holds { row with content := encodeUtf8 changed }
      (recordEntry record changed (storedContent digests record).2) :=
    { hrow.holds with content := rfl }
  rw [lookupCache_of_find hfind, hholds.readEntry 0]
  exact congrArg Except.ok (if_neg fun hok => hhash (validateEntry_ok_iff.1 hok).content)

/-- The content of a row is changed to bytes that are no text. -/
theorem lookupCache_malformed {table : ParseCacheTable} {row : ParseCacheRow} {existed : Bool}
    (hfind : table.find (recordKey record) = some row)
    (hbytes : ∀ t, row.content ≠ encodeUtf8 t) :
    ∃ error, lookupCache digests table ⟨recordKey record, existed⟩ = .error error := by
  rw [lookupCache_of_find hfind, ParseCacheRow.readEntry]
  have hread : readText 0 row.content = .error (.utf8 0) := by
    unfold readText
    split
    · next text hdecode => exact absurd (decodeUtf8_complete_iff.1 hdecode) (hbytes text)
    · rfl
  rw [hread]
  exact ⟨_, rfl⟩

/-- The table with the content of one row changed. -/
structure Damaged (record : CacheWriteRecord) (changed : Bytes)
    (table damaged : ParseCacheTable) : Prop where
  rows : damaged.rows = table.rows.map fun row =>
    if row.key = (recordKey record).map encodeUtf8 then { row with content := changed } else row

theorem Damaged.find {changed : Bytes} {table damaged : ParseCacheTable} {row : ParseCacheRow}
    (h : Damaged record changed table damaged)
    (hfind : table.find (recordKey record) = some row) :
    damaged.find (recordKey record) = some { row with content := changed } := by
  have hkey : row.key = (recordKey record).map encodeUtf8 := by simpa using List.find?_some hfind
  have hsame : (fun row : ParseCacheRow => decide (row.key = (recordKey record).map encodeUtf8)) ∘
      (fun row => if row.key = (recordKey record).map encodeUtf8 then
        { row with content := changed } else row) =
      fun row => decide (row.key = (recordKey record).map encodeUtf8) := by
    funext row
    dsimp only [Function.comp]
    split_ifs <;> rfl
  unfold ParseCacheTable.find at hfind ⊢
  rw [h.rows, List.find?_map, hsame, hfind, Option.map_some, if_pos hkey]

/-- What a lookup of a stored record is. -/
structure PayloadRoundTrip (digests : Digests) (reader : JsonReader) (record : CacheWriteRecord)
    (table : ParseCacheTable) : Prop where
  /-- The lookup is fresh and is decoded to the record. -/
  decoded : ∀ existed, ∃ lookup,
    lookupCache digests table ⟨recordKey record, existed⟩ = .ok lookup ∧
      decodePayload digests reader record.cachePayloadVersion lookup = .fresh (decodedEntry record)
  /-- When the content was changed to another text without a collision the lookup is a miss. -/
  changed : ∀ (changed : Text) damaged, Damaged record (encodeUtf8 changed) table damaged →
    changed ≠ (storedContent digests record).1 →
    (digests.sha256Hex changed = digests.sha256Hex (storedContent digests record).1 →
      changed = (storedContent digests record).1) →
    ∀ existed version, ∃ lookup reason,
      lookupCache digests damaged ⟨recordKey record, existed⟩ = .ok lookup ∧
        decodePayload digests reader version lookup = .miss reason
  /-- When it was changed to bytes that are no text the lookup fails. -/
  malformed : ∀ (changed : Bytes) damaged, Damaged record changed table damaged →
    (∀ t, changed ≠ encodeUtf8 t) →
    ∀ existed, ∃ error, lookupCache digests damaged ⟨recordKey record, existed⟩ = .error error

/-- **A record that is stored is looked up as it was written**, and it is not found with a content
that was changed. -/
theorem payload_roundTrip (digests : Digests) (reader : JsonReader) (record : CacheWriteRecord)
    (table table' : ParseCacheTable) (hvalid : validateRecord digests record = .ok ())
    (hfits : ∀ audit ∈ record.evidenceAudit, audit.Fits)
    (hstores : Stores digests record table table') :
    PayloadRoundTrip digests reader record table' := by
  obtain ⟨row, hfind, hrow⟩ := hstores.exists_row
  refine ⟨fun existed => ?_, ?_, ?_⟩
  · exact ⟨_, hrow.lookupCache hvalid hfind, decodePayload_storedContent hvalid hfits⟩
  · intro changed damaged hdamaged hne hcollision existed version
    refine ⟨.miss .errorCache, .errorCache, ?_, rfl⟩
    refine hrow.lookupCache_changed (hdamaged.find hfind) fun hhash => hne (hcollision ?_)
    exact hhash.trans (validEntry_storedContent hvalid).content.symm
  · intro changed damaged hdamaged hbytes existed
    exact lookupCache_malformed (hdamaged.find hfind) hbytes

/-! ### An empty text file -/

/-- The audit of an empty text file. -/
def emptyTextAudit : ParsedContentAudit :=
  ⟨false, 1, none, some [], some 0, some (lit "utf-8"), some (lit "text")⟩

def emptyTextSha256 : Text :=
  lit "e3b0c44298fc1c149afbf4c8996fb92427ae41e4649b934ca495991b7852b855"

/-- Digests that are right about the empty text and its payload. -/
def emptyTextDigests : Digests where
  sha256Hex t :=
    if t = [] then emptyTextSha256
    else if t = (ParseCachePayload.mk 1 [] emptyTextSha256 emptyTextAudit).json.print then
      lit "2266b9674e26d0de5aa28ccbabe19e1840dbe8f4455d1e00e6355cbb7904f861"
    else List.replicate 64 '0'
  classifierDomainHash _ _ _ := List.replicate 64 '0'
  planSha256 _ := List.replicate 64 '0'
  isSha256Hex_sha256Hex t := by
    split_ifs
    · decide +kernel
    · decide +kernel
    · decide +kernel
  isSha256Hex_classifier _ _ _ := by decide +kernel
  isSha256Hex_plan _ := by decide +kernel

/-- The record of an empty text file. -/
def emptyTextRecord (fileIdentity : Text) (cachePayloadVersion : ℕ) : CacheWriteRecord where
  fileIdentity := fileIdentity
  sourceVersion := lit "mtime_ns=1:size=0"
  sourceGuardKind := lit "content_sha256_v1"
  sourceGuardSha256 := List.replicate 64 'a'
  parseProfileHash := List.replicate 64 'b'
  content := []
  contentSha256 := emptyTextSha256
  cachePayloadVersion := cachePayloadVersion
  evidenceAudit := some emptyTextAudit
  parserBackend := lit "light_text_v2"
  workerLane := lit "rust"
  truncated := false
  workerContractVersion := lit "v1"
  workerVersion := lit "1"
  workerBuild := lit "1"

/-- The table before the record is written. -/
def emptyTable : ParseCacheTable := ⟨[], List.nodup_nil⟩

/-- The table after the record is written, with the given content. -/
def emptyTextTable (content : Bytes) : ParseCacheTable where
  rows := [{ parseCacheRow emptyTextDigests 0 (emptyTextRecord ['a'] 1) with content := content }]
  keys_nodup := List.nodup_singleton _

/-- The reader that reads exactly what is written. -/
def strictReader : JsonReader := ⟨Json.parse, Json.parse_print⟩

theorem emptyTextRecord_stores :
    Stores emptyTextDigests (emptyTextRecord ['a'] 1) emptyTable
      (emptyTextTable (encodeUtf8 (storedContent emptyTextDigests (emptyTextRecord ['a'] 1)).1)) := by
  refine ⟨⟨[], [], ⟨fun _ => true, .scan _ id fun _ => List.Perm.refl _, fun _ => true, 0, ?_⟩,
    nofun⟩, ?_⟩
  · decide +kernel
  · decide +kernel

/-- The round trip of an empty text file. -/
theorem payload_roundTrip_emptyText :
    PayloadRoundTrip emptyTextDigests strictReader (emptyTextRecord ['a'] 1)
      (emptyTextTable (encodeUtf8 (storedContent emptyTextDigests (emptyTextRecord ['a'] 1)).1)) := by
  refine payload_roundTrip emptyTextDigests strictReader (emptyTextRecord ['a'] 1) emptyTable _
    (by decide +kernel) ?_ emptyTextRecord_stores
  rintro audit ⟨⟩
  exact ⟨by decide, nofun, by rintro units ⟨⟩; exact nofun, by rintro n ⟨⟩; decide⟩

/-- **A content that is no text is no miss**: the lookup of a stored record fails. -/
theorem damaged_content_fails :
    Stores emptyTextDigests (emptyTextRecord ['a'] 1) emptyTable
        (emptyTextTable (encodeUtf8 (storedContent emptyTextDigests (emptyTextRecord ['a'] 1)).1)) ∧
      Damaged (emptyTextRecord ['a'] 1) [0xFF]
        (emptyTextTable (encodeUtf8 (storedContent emptyTextDigests (emptyTextRecord ['a'] 1)).1))
        (emptyTextTable [0xFF]) ∧
      lookupCache emptyTextDigests (emptyTextTable [0xFF])
        ⟨recordKey (emptyTextRecord ['a'] 1), true⟩ = .error (.utf8 0) := by
  refine ⟨emptyTextRecord_stores, ⟨?_⟩, ?_⟩
  · decide +kernel
  · decide +kernel

end DailyReport.ParseCache
