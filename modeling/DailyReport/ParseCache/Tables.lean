import DailyReport.Lib.Utf8Cut
import DailyReport.Scheduler.Ports

/-!
# The parse cache

The table of the parse cache, with its rows as they are stored: a column of texts holds bytes, which
need not be those of a text when the database is damaged.  The key of a row is its primary key.
-/

namespace DailyReport.ParseCache

open Lib

/-- What identifies an entry: the file, its version, its guard and the parse profile. -/
structure CacheKey (α : Type) where
  fileIdentity : α
  sourceVersion : α
  sourceGuardKind : α
  sourceGuardSha256 : α
  parseProfileHash : α
  deriving DecidableEq

/-- A key with its columns mapped. -/
def CacheKey.map {α β : Type} (f : α → β) (key : CacheKey α) : CacheKey β :=
  ⟨f key.fileIdentity, f key.sourceVersion, f key.sourceGuardKind, f key.sourceGuardSha256,
    f key.parseProfileHash⟩

theorem CacheKey.map_injective {α β : Type} {f : α → β} (hf : Function.Injective f) :
    Function.Injective (CacheKey.map f) := by
  intro a b h
  obtain ⟨a₁, a₂, a₃, a₄, a₅⟩ := a
  obtain ⟨b₁, b₂, b₃, b₄, b₅⟩ := b
  obtain ⟨h₁, h₂, h₃, h₄, h₅⟩ := CacheKey.mk.inj h
  obtain ⟨rfl, rfl, rfl, rfl, rfl⟩ : a₁ = b₁ ∧ a₂ = b₂ ∧ a₃ = b₃ ∧ a₄ = b₄ ∧ a₅ = b₅ :=
    ⟨hf h₁, hf h₂, hf h₃, hf h₄, hf h₅⟩
  rfl

/-- The key is for the same file, version and guard. -/
def CacheKey.sameSource {α : Type} [DecidableEq α] (key key' : CacheKey α) : Bool :=
  decide (key.fileIdentity = key'.fileIdentity ∧ key.sourceVersion = key'.sourceVersion ∧
    key.sourceGuardKind = key'.sourceGuardKind ∧ key.sourceGuardSha256 = key'.sourceGuardSha256)

/-- The key is for the same file. -/
def CacheKey.sameIdentity {α : Type} [DecidableEq α] (key key' : CacheKey α) : Bool :=
  decide (key.fileIdentity = key'.fileIdentity)

/-- A row of `parse_cache`. -/
structure ParseCacheRow where
  key : CacheKey Bytes
  content : Bytes
  contentSha256 : Bytes
  parserBackend : Bytes
  workerLane : Bytes
  truncated : ℤ
  workerContractVersion : Bytes
  workerVersion : Bytes
  workerBuild : Bytes
  cachedAtMs : ℤ
  entrySizeBytes : ℕ
  generationRank : ℕ
  lastAccessedBucket : Bytes
  deriving DecidableEq

/-- The table: no two rows have the same key. -/
structure ParseCacheTable where
  rows : List ParseCacheRow
  keys_nodup : (rows.map ParseCacheRow.key).Nodup

/-! ### Reading columns -/

/-- What a statement fails with. -/
inductive SqlError
  | utf8 (column : ℕ)
  | invalidQuery
  | constraint
  | cacheWrite (detail : Text)
  | deadlineExhausted
  deriving DecidableEq

/-- The text of a column. -/
def readText (column : ℕ) (bytes : Bytes) : Except SqlError Text :=
  match decodeUtf8 bytes with
  | ⟨text, .complete⟩ => .ok text
  | _ => .error (.utf8 column)

/-- The entry of a row, from column `column` on. -/
def ParseCacheRow.readEntry (column : ℕ) (row : ParseCacheRow) : Except SqlError CacheEntry := do
  let content ← readText column row.content
  let contentSha256 ← readText (column + 1) row.contentSha256
  let parserBackend ← readText (column + 2) row.parserBackend
  let workerLane ← readText (column + 3) row.workerLane
  let workerContractVersion ← readText (column + 5) row.workerContractVersion
  let workerVersion ← readText (column + 6) row.workerVersion
  let workerBuild ← readText (column + 7) row.workerBuild
  pure ⟨content, contentSha256, none, parserBackend, workerLane, decide (row.truncated ≠ 0),
    workerContractVersion, workerVersion, workerBuild⟩

/-- The columns of an entry are those of texts. -/
structure ParseCacheRow.Holds (row : ParseCacheRow) (entry : CacheEntry) : Prop where
  content : row.content = encodeUtf8 entry.content
  contentSha256 : row.contentSha256 = encodeUtf8 entry.contentSha256
  parserBackend : row.parserBackend = encodeUtf8 entry.parserBackend
  workerLane : row.workerLane = encodeUtf8 entry.workerLane
  truncated : entry.truncated = decide (row.truncated ≠ 0)
  workerContractVersion : row.workerContractVersion = encodeUtf8 entry.workerContractVersion
  workerVersion : row.workerVersion = encodeUtf8 entry.workerVersion
  workerBuild : row.workerBuild = encodeUtf8 entry.workerBuild
  evidenceAudit : entry.evidenceAudit = none

theorem readText_encodeUtf8 (column : ℕ) (text : Text) :
    readText column (encodeUtf8 text) = .ok text := by
  rw [readText, decodeUtf8_encodeUtf8]

/-- Whether a column is read does not depend on where it stands. -/
theorem readText_ok_iff {column column' : ℕ} {bytes : Bytes} {text : Text} :
    readText column bytes = .ok text ↔ readText column' bytes = .ok text := by
  unfold readText
  split
  · exact Iff.rfl
  · exact ⟨nofun, nofun⟩

/-- **Whether an entry is read does not depend on where its columns stand.** -/
theorem readEntry_toOption (column column' : ℕ) (row : ParseCacheRow) :
    (row.readEntry column).toOption = (row.readEntry column').toOption := by
  have htext : ∀ (n n' : ℕ) (bytes : Bytes),
      (readText n bytes).toOption = (readText n' bytes).toOption := by
    intro n n' bytes
    ext text
    rw [toOption_eq_some, toOption_eq_some]
    exact readText_ok_iff
  have hbind : ∀ {α β : Type} {x x' : Except SqlError α} {f f' : α → Except SqlError β},
      x.toOption = x'.toOption → (∀ a, (f a).toOption = (f' a).toOption) →
      (x >>= f).toOption = (x' >>= f').toOption := by
    intro α β x x' f f' hx hf
    cases x with
    | error e =>
      cases x' with
      | error e' => rfl
      | ok a => cases hx
    | ok a =>
      cases x' with
      | error e' => cases hx
      | ok a' =>
        cases hx
        exact hf a
  unfold ParseCacheRow.readEntry
  repeat refine hbind (htext ..) fun _ => ?_
  rfl

/-- A row that holds an entry is read as it. -/
theorem ParseCacheRow.Holds.readEntry {row : ParseCacheRow} {entry : CacheEntry}
    (h : row.Holds entry) (column : ℕ) : row.readEntry column = .ok entry := by
  unfold ParseCacheRow.readEntry
  rw [h.content, h.contentSha256, h.parserBackend, h.workerLane, h.workerContractVersion,
    h.workerVersion, h.workerBuild, ← h.truncated]
  simp only [readText_encodeUtf8]
  obtain ⟨content, hash, audit, backend, lane, truncated, contract, version, build⟩ := entry
  obtain rfl : audit = none := h.evidenceAudit
  exact rfl

/-- The row of a key. -/
def ParseCacheTable.find (table : ParseCacheTable) (key : CacheKey Text) : Option ParseCacheRow :=
  table.rows.find? fun row => decide (row.key = key.map encodeUtf8)

/-- A key has one row at most. -/
theorem ParseCacheTable.length_filter_le (table : ParseCacheTable) (key : CacheKey Bytes) :
    (table.rows.filter fun row => decide (row.key = key)).length ≤ 1 := by
  have hcount : (table.rows.filter fun row => decide (row.key = key)).length =
      (table.rows.map ParseCacheRow.key).count key := by
    rw [List.count, List.countP_map, List.countP_eq_length_filter]
    congr 1
  rw [hcount]
  exact List.nodup_iff_count_le_one.1 table.keys_nodup key

end DailyReport.ParseCache
