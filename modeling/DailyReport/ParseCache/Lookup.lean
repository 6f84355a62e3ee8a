import DailyReport.Lib.Chunk
import DailyReport.Lib.LeftJoin
import DailyReport.Lib.Sort
import DailyReport.ParseCache.Tables

/-!
# Looking entries up

One key with queries of its own (`lookupCache`), and a list of keys in batches, each with one query
that joins the table with a temporary table of the keys (`lookupCacheBatch`).

* `lookup_cache_batch_eq` : **the batch has for every key what a lookup of the key alone has.**
-/

namespace DailyReport.ParseCache

open Lib

def cacheLookupBatchSize : ℕ := 256

structure CacheLookupKey where
  key : CacheKey Text
  inventoryExistedBefore : Bool
  deriving DecidableEq

/-! ### The answer -/

/-- The checks on an entry that is read. -/
def validateEntry (digests : Digests) (entry : CacheEntry) : Checked :=
  if isSha256Hex entry.contentSha256 = false ∨
      digests.sha256Hex entry.content ≠ entry.contentSha256 ∨
      entry.parserBackend = [] ∨ 1024 < entry.parserBackend.length ∨
      entry.workerLane = [] ∨ 1024 < entry.workerLane.length ∨
      entry.workerContractVersion = [] ∨ 1024 < entry.workerContractVersion.length ∨
      entry.workerVersion = [] ∨ 1024 < entry.workerVersion.length ∨
      entry.workerBuild = [] ∨ 4096 < entry.workerBuild.length then
    .error (lit "invalid parse cache value")
  else .ok ()

def resolveCacheLookup (digests : Digests) (exact : Option CacheEntry)
    (sameSourceAndGuard sameIdentity inventoryExistedBefore : Bool) : CacheLookup :=
  match exact with
  | some entry =>
    if validateEntry digests entry = .ok () then .fresh entry else .miss .errorCache
  | none =>
    if sameSourceAndGuard then .miss .parserIdentityChanged
    else if sameIdentity then .miss .sourceVersionChanged
    else if inventoryExistedBefore then .miss .entryAbsentOrEvicted
    else .miss .newFile

/-- The flags say nothing where the entry is there. -/
theorem resolveCacheLookup_some (digests : Digests) (entry : CacheEntry)
    (source source' identity identity' existed : Bool) :
    resolveCacheLookup digests (some entry) source identity existed =
      resolveCacheLookup digests (some entry) source' identity' existed := rfl

/-- Whether the file is there says nothing where its version is. -/
theorem resolveCacheLookup_source (digests : Digests) (identity identity' existed : Bool) :
    resolveCacheLookup digests none true identity existed =
      resolveCacheLookup digests none true identity' existed := rfl

/-! ### One key -/

def ParseCacheTable.hasSource (table : ParseCacheTable) (key : CacheKey Text) : Bool :=
  table.rows.any fun row => row.key.sameSource (key.map encodeUtf8)

def ParseCacheTable.hasIdentity (table : ParseCacheTable) (key : CacheKey Text) : Bool :=
  table.rows.any fun row => row.key.sameIdentity (key.map encodeUtf8)

def lookupCache (digests : Digests) (table : ParseCacheTable) (lookup : CacheLookupKey) :
    Except SqlError CacheLookup :=
  match table.find lookup.key with
  | some row =>
    (row.readEntry 0).map fun entry =>
      resolveCacheLookup digests (some entry) false false lookup.inventoryExistedBefore
  | none =>
    let sameSourceAndGuard := table.hasSource lookup.key
    let sameIdentity := if sameSourceAndGuard then false else table.hasIdentity lookup.key
    .ok (resolveCacheLookup digests none sameSourceAndGuard sameIdentity
      lookup.inventoryExistedBefore)

/-! ### A batch -/

/-- A row of the temporary table. -/
structure LookupInput where
  ordinal : ℕ
  lookup : CacheLookupKey

/-- A row of the query. -/
structure BatchRow where
  ordinal : ℕ
  exactRow : Option ParseCacheRow
  sameSource : Bool
  sameIdentity : Bool
  inventoryExistedBefore : Bool

/-- The temporary table of a chunk. -/
def lookupInputs (chunk : List CacheLookupKey) : List LookupInput :=
  chunk.zipIdx.map fun (lookup, ordinal) => ⟨ordinal, lookup⟩

/-- The row is that of the key. -/
def LookupInput.isExact (input : LookupInput) (row : ParseCacheRow) : Bool :=
  decide (row.key = input.lookup.key.map encodeUtf8)

/-- The query: the temporary table joined with the cache, in the order of the ordinals. -/
def batchRows (table : ParseCacheTable) (inputs : List LookupInput) : List BatchRow :=
  sortByKey BatchRow.ordinal ((leftJoin LookupInput.isExact inputs table.rows).map
    fun (input, exactRow) => ⟨input.ordinal, exactRow, table.hasSource input.lookup.key,
      table.hasIdentity input.lookup.key, input.lookup.inventoryExistedBefore⟩)

/-- The answer of a row. -/
def BatchRow.resolve (digests : Digests) (row : BatchRow) : Except SqlError CacheLookup :=
  match row.exactRow with
  | some exactRow =>
    (exactRow.readEntry 1).map fun entry =>
      resolveCacheLookup digests (some entry) row.sameSource row.sameIdentity
        row.inventoryExistedBefore
  | none =>
    .ok (resolveCacheLookup digests none row.sameSource row.sameIdentity
      row.inventoryExistedBefore)

/-- The loop of the rows: the ordinals have to count up. -/
def readBatchRows (digests : Digests) :
    List BatchRow → ℕ → List CacheLookup → Except SqlError (List CacheLookup × ℕ)
  | [], expectedOrdinal, output => .ok (output, expectedOrdinal)
  | row :: rows, expectedOrdinal, output =>
    if row.ordinal ≠ expectedOrdinal then .error .invalidQuery
    else do
      let lookup ← row.resolve digests
      readBatchRows digests rows (expectedOrdinal + 1) (output ++ [lookup])

/-- One chunk after the others. -/
def lookupChunk (digests : Digests) (table : ParseCacheTable) (output : List CacheLookup)
    (chunk : List CacheLookupKey) : Except SqlError (List CacheLookup) := do
  let (output, expectedOrdinal) ←
    readBatchRows digests (batchRows table (lookupInputs chunk)) 0 output
  if expectedOrdinal ≠ chunk.length then .error .invalidQuery else .ok output

def lookupCacheBatch (digests : Digests) (table : ParseCacheTable) (keys : List CacheLookupKey) :
    Except SqlError (List CacheLookup) :=
  if keys = [] then .ok []
  else (chunks cacheLookupBatchSize keys).foldlM (lookupChunk digests table) []

/-! ### The rows of a chunk -/

variable {digests : Digests} {table : ParseCacheTable}

/-- The row of the query for one key of a chunk. -/
def batchRow (table : ParseCacheTable) (lookup : CacheLookupKey) (ordinal : ℕ) : BatchRow :=
  ⟨ordinal, table.find lookup.key, table.hasSource lookup.key, table.hasIdentity lookup.key,
    lookup.inventoryExistedBefore⟩

theorem pairwise_zipIdx (chunk : List CacheLookupKey) (n : ℕ) :
    ((chunk.zipIdx n).map fun (lookup, ordinal) => batchRow table lookup ordinal).Pairwise
      fun row row' => row.ordinal ≤ row'.ordinal := by
  induction chunk generalizing n with
  | nil => exact List.Pairwise.nil
  | cons lookup chunk ih =>
    refine List.Pairwise.cons ?_ (ih (n + 1))
    intro row hrow
    obtain ⟨⟨lookup', ordinal⟩, hmem, rfl⟩ := List.mem_map.1 hrow
    have hle := List.le_snd_of_mem_zipIdx hmem
    exact (Nat.le_succ n).trans hle

/-- The query has one row for each key, in their order. -/
theorem batchRows_lookupInputs (chunk : List CacheLookupKey) :
    batchRows table (lookupInputs chunk) =
      chunk.zipIdx.map fun (lookup, ordinal) => batchRow table lookup ordinal := by
  have hjoin := leftJoin_eq_map (l := lookupInputs chunk) (r := table.rows)
    fun input _ => table.length_filter_le (input.lookup.key.map encodeUtf8)
  have hrows : (leftJoin LookupInput.isExact (lookupInputs chunk) table.rows).map
      (fun (input, exactRow) => (⟨input.ordinal, exactRow, table.hasSource input.lookup.key,
        table.hasIdentity input.lookup.key, input.lookup.inventoryExistedBefore⟩ : BatchRow)) =
      chunk.zipIdx.map fun (lookup, ordinal) => batchRow table lookup ordinal := by
    unfold LookupInput.isExact
    rw [hjoin, lookupInputs, List.map_map, List.map_map]
    rfl
  rw [batchRows, hrows]
  exact sortByKey_of_sorted (pairwise_zipIdx chunk 0)

/-- The row of a key answers as a lookup of the key alone. -/
theorem resolve_batchRow {lookup : CacheLookupKey} {ordinal : ℕ} {result : CacheLookup} :
    (batchRow table lookup ordinal).resolve digests = .ok result ↔
      lookupCache digests table lookup = .ok result := by
  unfold BatchRow.resolve lookupCache batchRow
  cases table.find lookup.key with
  | some row =>
    -- the entry is read from other columns, and the flags say nothing
    have hread : ∀ entry, row.readEntry 1 = .ok entry ↔ row.readEntry 0 = .ok entry := by
      intro entry
      rw [← toOption_eq_some, ← toOption_eq_some, readEntry_toOption 1 0]
    simp only [map_eq_ok, hread]
    exact Iff.rfl
  | none =>
    cases hsource : table.hasSource lookup.key with
    | true => simp [resolveCacheLookup]
    | false => simp

/-- The loop of the rows reads what the lookups of the keys return. -/
theorem readBatchRows_eq_ok {chunk : List CacheLookupKey} {n : ℕ} {output : List CacheLookup}
    {r : List CacheLookup × ℕ} :
    readBatchRows digests
        ((chunk.zipIdx n).map fun (lookup, ordinal) => batchRow table lookup ordinal) n output =
        .ok r ↔
      ∃ results, chunk.mapM (lookupCache digests table) = .ok results ∧
        r = (output ++ results, n + chunk.length) := by
  induction chunk generalizing n output with
  | nil =>
    constructor
    · intro h
      cases h
      exact ⟨[], rfl, by rw [List.append_nil]; rfl⟩
    · rintro ⟨results, hresults, rfl⟩
      obtain rfl : [] = results := Except.ok.inj hresults
      rw [List.append_nil]
      rfl
  | cons lookup chunk ih =>
    have hordinal : ¬(batchRow table lookup n).ordinal ≠ n := not_not.2 rfl
    rw [List.zipIdx_cons, List.map_cons, readBatchRows, if_neg hordinal, bind_eq_ok]
    constructor
    · rintro ⟨result, hresult, hrest⟩
      obtain ⟨results, hresults, rfl⟩ := ih.1 hrest
      refine ⟨result :: results, ?_, ?_⟩
      · rw [List.mapM_cons, resolve_batchRow.1 hresult, hresults]
        rfl
      · rw [List.append_assoc, List.length_cons, Nat.add_assoc, Nat.add_comm 1]
        rfl
    · rintro ⟨all, hall, rfl⟩
      rw [List.mapM_cons, bind_eq_ok] at hall
      obtain ⟨result, hresult, hrest⟩ := hall
      obtain ⟨results, hresults, hr⟩ := bind_eq_ok.1 hrest
      obtain rfl : result :: results = all := Except.ok.inj hr
      refine ⟨result, resolve_batchRow.2 hresult, ih.2 ⟨results, hresults, ?_⟩⟩
      rw [List.append_assoc, List.length_cons, Nat.add_assoc, Nat.add_comm 1]
      rfl

/-- A chunk adds what the lookups of its keys return. -/
theorem lookupChunk_eq_ok {chunk : List CacheLookupKey} {output output' : List CacheLookup} :
    lookupChunk digests table output chunk = .ok output' ↔
      ∃ results, chunk.mapM (lookupCache digests table) = .ok results ∧
        output' = output ++ results := by
  rw [lookupChunk, batchRows_lookupInputs, bind_eq_ok]
  constructor
  · rintro ⟨r, hr, h⟩
    obtain ⟨results, hresults, rfl⟩ := readBatchRows_eq_ok.1 hr
    simp only [Nat.zero_add, ne_eq, not_true_eq_false, if_false, Except.ok.injEq] at h
    exact ⟨results, hresults, h.symm⟩
  · rintro ⟨results, hresults, houtput⟩
    obtain rfl := houtput
    refine ⟨(output ++ results, 0 + chunk.length),
      readBatchRows_eq_ok.2 ⟨results, hresults, rfl⟩, ?_⟩
    simp only [Nat.zero_add, ne_eq, not_true_eq_false, if_false]

/-- Chunk after chunk adds what the lookups of all the keys return. -/
theorem foldlM_lookupChunk {pieces : List (List CacheLookupKey)}
    {output output' : List CacheLookup} :
    pieces.foldlM (lookupChunk digests table) output = .ok output' ↔
      ∃ results, pieces.flatten.mapM (lookupCache digests table) = .ok results ∧
        output' = output ++ results := by
  induction pieces generalizing output with
  | nil =>
    constructor
    · intro h
      obtain rfl : output = output' := Except.ok.inj h
      exact ⟨[], rfl, (List.append_nil output).symm⟩
    · rintro ⟨results, hresults, rfl⟩
      obtain rfl : [] = results := Except.ok.inj hresults
      rw [List.append_nil]
      rfl
  | cons chunk pieces ih =>
    rw [foldlM_cons_eq_ok, List.flatten_cons, List.mapM_append]
    constructor
    · rintro ⟨between, hchunk, hrest⟩
      obtain ⟨results, hresults, rfl⟩ := lookupChunk_eq_ok.1 hchunk
      obtain ⟨results', hresults', rfl⟩ := ih.1 hrest
      refine ⟨results ++ results', ?_, List.append_assoc ..⟩
      rw [hresults, hresults']
      rfl
    · rintro ⟨results, hresults, rfl⟩
      obtain ⟨first, hfirst, hafter⟩ := bind_eq_ok.1 hresults
      obtain ⟨rest, hrest, hr⟩ := bind_eq_ok.1 hafter
      cases hr
      refine ⟨output ++ first, lookupChunk_eq_ok.2 ⟨first, hfirst, rfl⟩, ih.2 ⟨rest, hrest, ?_⟩⟩
      exact (List.append_assoc ..).symm

/-- A batch succeeds with what the lookups of its keys return. -/
theorem lookupCacheBatch_eq_ok {keys : List CacheLookupKey} {results : List CacheLookup} :
    lookupCacheBatch digests table keys = .ok results ↔
      keys.mapM (lookupCache digests table) = .ok results := by
  unfold lookupCacheBatch
  split_ifs with hkeys
  · rw [hkeys]
    rfl
  · rw [foldlM_lookupChunk, flatten_chunks (by decide)]
    constructor
    · rintro ⟨results, hresults, rfl⟩
      exact hresults
    · intro h
      exact ⟨results, h, rfl⟩

/-- **The batch has for every key what a lookup of the key alone has**, in the order of the keys,
and it fails exactly when the lookup of one of them does. -/
theorem lookup_cache_batch_eq (digests : Digests) (table : ParseCacheTable)
    (keys : List CacheLookupKey) :
    (∀ results, lookupCacheBatch digests table keys = .ok results ↔
        List.Forall₂ (fun lookup result => lookupCache digests table lookup = .ok result)
          keys results) ∧
      ((∃ error, lookupCacheBatch digests table keys = .error error) ↔
        ∃ lookup ∈ keys, ∃ error, lookupCache digests table lookup = .error error) := by
  refine ⟨fun results => lookupCacheBatch_eq_ok.trans mapM_eq_ok, ?_⟩
  constructor
  · rintro ⟨error, herror⟩
    by_contra hnone
    push Not at hnone
    have hok : ∀ lookup ∈ keys, ∃ result, lookupCache digests table lookup = .ok result := by
      intro lookup hlookup
      cases hresult : lookupCache digests table lookup with
      | error e => exact absurd hresult (hnone lookup hlookup e)
      | ok result => exact ⟨result, rfl⟩
    obtain ⟨results, hresults⟩ := exists_mapM hok
    rw [lookupCacheBatch_eq_ok.2 hresults] at herror
    cases herror
  · rintro ⟨lookup, hlookup, error, herror⟩
    cases hbatch : lookupCacheBatch digests table keys with
    | error e => exact ⟨e, rfl⟩
    | ok results =>
      obtain ⟨result, -, hresult⟩ :=
        (mem_of_mapM (lookupCacheBatch_eq_ok.1 hbatch)).1 lookup hlookup
      rw [herror] at hresult
      cases hresult

end DailyReport.ParseCache
