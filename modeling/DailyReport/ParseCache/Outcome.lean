import DailyReport.ParseCache.RoundTrip

/-!
# What the caches are after a run of writes

A run starts from empty caches and writes to one of them after the other (`Reached`).  What is written
and when, what the database chooses and what the deadline answers may be anything.

* `Reached.wellFormed` : the rows of a run have distinct keys, and are as their writes stamped them;
* `eviction_outcome` : **every write ends, and evicts a shortest prefix of the rows; it has one outcome
  in a run without ties**, and the tuples differ exactly where there are none.
-/

namespace DailyReport.ParseCache

open Lib

/-- The rows of the two caches. -/
structure Caches where
  parse : List ParseCacheRow
  classification : List ClassificationCacheRow

/-- A write to one of the caches, with everything that it meets. -/
inductive CacheWrite
  | parse (choice : FirstChoice parseCacheTable.evictionTuple) (deadlineOpen : ℕ → Bool)
    (inInventory : Text → Bool) (cachedAtMs : Int64) (records : List CacheWriteRecord)
  | classification (choice : FirstChoice classificationCacheTable.evictionTuple)
    (deadlineOpen : ℕ → Bool) (inInventory : Text → Bool) (cachedAtMs : Int64)
    (records : List ClassificationCacheWriteRecord)

/-- The same records at the same time. -/
inductive SameInput : CacheWrite → CacheWrite → Prop
  | parse {choice choice' deadlineOpen deadlineOpen' inInventory inInventory' cachedAtMs records} :
    SameInput (.parse choice deadlineOpen inInventory cachedAtMs records)
      (.parse choice' deadlineOpen' inInventory' cachedAtMs records)
  | classification
    {choice choice' deadlineOpen deadlineOpen' inInventory inInventory' cachedAtMs records} :
    SameInput (.classification choice deadlineOpen inInventory cachedAtMs records)
      (.classification choice' deadlineOpen' inInventory' cachedAtMs records)

variable (digests : Digests)

/-- A write, with `none` when its loop does not end. -/
def Caches.write (caches : Caches) : CacheWrite → Option (Except SqlError Caches)
  | .parse choice deadlineOpen inInventory cachedAtMs records =>
    (writeSuccessCacheWithCheck digests inInventory choice deadlineOpen cachedAtMs records
      caches.parse).map fun result => result.map fun rows => { caches with parse := rows }
  | .classification choice deadlineOpen inInventory cachedAtMs records =>
    (writeSuccessClassificationCacheWithCheck inInventory choice deadlineOpen cachedAtMs records
      caches.classification).map fun result => result.map fun rows =>
        { caches with classification := rows }

/-- The caches that a run of successful writes leads to, each of which meets a condition. -/
inductive Reached (condition : Caches → CacheWrite → Prop) : Caches → Prop
  | empty : Reached condition ⟨[], []⟩
  | write {caches caches' : Caches} {write : CacheWrite} (hreached : Reached condition caches)
    (hcondition : condition caches write)
    (hwrite : caches.write digests write = some (.ok caches')) : Reached condition caches'

/-- The rows of the written cache after the records are inserted do not tie. -/
def TuplesDifferAfter (caches : Caches) : CacheWrite → Prop
  | .parse _ _ _ cachedAtMs records => TuplesDiffer parseCacheTable
      (insertedRows parseCacheTable (parseCacheRow digests cachedAtMs) records caches.parse)
  | .classification _ _ _ cachedAtMs records => TuplesDiffer classificationCacheTable
      (insertedRows classificationCacheTable (classificationCacheRow cachedAtMs) records
        caches.classification)

/-- No two of the records, unless a later one overwrites them, have different keys of one total
length and one rank; and no stored row under another key has the time of the write and the rank and
the total length of the key of one of them. -/
def UntiedWrite (caches : Caches) : CacheWrite → Prop
  | .parse _ _ _ cachedAtMs records => Untied parseCacheTable cachedAtMs.toInt caches.parse
      (records.map (parseCacheRow digests cachedAtMs))
  | .classification _ _ _ cachedAtMs records =>
      Untied classificationCacheTable cachedAtMs.toInt caches.classification
        (records.map (classificationCacheRow cachedAtMs))

/-- A write evicts a shortest prefix of the rows that are there when its records are inserted. -/
def EvictsShortestPrefix (caches caches' : Caches) : CacheWrite → Prop
  | .parse _ _ _ cachedAtMs records =>
    caches'.classification = caches.classification ∧
      ∃ victims, ShortestPrefix parseCacheTable.evictionTuple parseCacheTable.entrySizeBytes
        parseCacheMaxBytes
        (insertedRows parseCacheTable (parseCacheRow digests cachedAtMs) records caches.parse)
        victims caches'.parse
  | .classification _ _ _ cachedAtMs records =>
    caches'.parse = caches.parse ∧
      ∃ victims, ShortestPrefix classificationCacheTable.evictionTuple
        classificationCacheTable.entrySizeBytes classificationCacheMaxBytes
        (insertedRows classificationCacheTable (classificationCacheRow cachedAtMs) records
          caches.classification) victims caches'.classification

/-- The caches take no more than they may. -/
def FitsCaps (caches : Caches) : Prop :=
  totalSize parseCacheTable.entrySizeBytes caches.parse ≤ parseCacheMaxBytes ∧
    totalSize classificationCacheTable.entrySizeBytes caches.classification ≤
      classificationCacheMaxBytes

/-- The rows of a table as a run leaves them. -/
structure WellFormedRows {α κ : Type} (table : CacheTable α κ) (rows : List α) : Prop where
  keys_nodup : (rows.map table.key).Nodup
  stamped : ∀ row ∈ rows, Stamped table bucketOf row

/-- Both caches are as a run leaves them. -/
structure WellFormed (caches : Caches) : Prop where
  parse : WellFormedRows parseCacheTable caches.parse
  classification : WellFormedRows classificationCacheTable caches.classification

/-! ### One write -/

section

variable {α κ ρ : Type} [DecidableEq α] [DecidableEq κ] {table : CacheTable α κ}
  {choice choice' : FirstChoice table.evictionTuple} {deadlineOpen deadlineOpen' : ℕ → Bool}
  {cap : ℕ} {checkRecord checkRecord' : ρ → Except SqlError Unit} {rowOf : ρ → α}
  {records : List ρ} {rows survivors survivors' : List α} {ms : ℤ}

/-- A write leaves rows of the inserted ones. -/
theorem WellFormedRows.write (h : WellFormedRows table rows)
    (hrow : ∀ record, Stamped table bucketOf (rowOf record))
    (hwrite : writeWithCheck table choice deadlineOpen cap checkRecord rowOf records rows =
      some (.ok survivors)) : WellFormedRows table survivors := by
  obtain ⟨-, victims, hevicts⟩ := writeWithCheck_evicts h.keys_nodup hwrite
  have hsub := hevicts.minimal.sublist
  have hnews : ∀ row ∈ records.map rowOf, Stamped table bucketOf row := by
    intro row hmem
    obtain ⟨record, -, rfl⟩ := List.mem_map.1 hmem
    exact hrow record
  refine ⟨(nodup_upsertAll table.key_replace h.keys_nodup).sublist (hsub.map _), ?_⟩
  intro row hmem
  rcases (mem_insertedRows h.stamped hnews).1 (hsub.subset hmem) with ⟨hold, -⟩ | hnew
  · exact h.stamped row hold
  · exact hnews row (mem_of_mem_lastWrites hnew)

/-- Rows that do not tie when the records are inserted leave one outcome. -/
theorem writeWithCheck_unique (h : WellFormedRows table rows)
    (hdiffer : TuplesDiffer table (insertedRows table rowOf records rows))
    (hwrite : writeWithCheck table choice deadlineOpen cap checkRecord rowOf records rows =
      some (.ok survivors))
    (hwrite' : writeWithCheck table choice' deadlineOpen' cap checkRecord' rowOf records rows =
      some (.ok survivors')) : survivors = survivors' := by
  obtain ⟨-, victims, hevicts⟩ := writeWithCheck_evicts h.keys_nodup hwrite
  obtain ⟨-, victims', hevicts'⟩ := writeWithCheck_evicts h.keys_nodup hwrite'
  exact (hevicts.unique hdiffer hevicts').2

end

variable {digests}

/-! ### Runs -/

/-- What a successful write to the parse cache leaves. -/
theorem of_write_parse {caches caches' : Caches} {choice deadlineOpen inInventory cachedAtMs records}
    (h : caches.write digests (.parse choice deadlineOpen inInventory cachedAtMs records) =
      some (.ok caches')) :
    writeSuccessCacheWithCheck digests inInventory choice deadlineOpen cachedAtMs records
        caches.parse = some (.ok caches'.parse) ∧
      caches'.classification = caches.classification := by
  obtain ⟨result, hresult, hmap⟩ := Option.map_eq_some_iff.1 h
  obtain ⟨rows, rfl, rfl⟩ := map_eq_ok.1 hmap
  exact ⟨hresult, rfl⟩

/-- What a successful write to the classification cache leaves. -/
theorem of_write_classification {caches caches' : Caches}
    {choice deadlineOpen inInventory cachedAtMs records}
    (h : caches.write digests (.classification choice deadlineOpen inInventory cachedAtMs records) =
      some (.ok caches')) :
    writeSuccessClassificationCacheWithCheck inInventory choice deadlineOpen cachedAtMs records
        caches.classification = some (.ok caches'.classification) ∧
      caches'.parse = caches.parse := by
  obtain ⟨result, hresult, hmap⟩ := Option.map_eq_some_iff.1 h
  obtain ⟨rows, rfl, rfl⟩ := map_eq_ok.1 hmap
  exact ⟨hresult, rfl⟩

theorem stamped_parseCacheRow (cachedAtMs : Int64) (record : CacheWriteRecord) :
    Stamped parseCacheTable bucketOf (parseCacheRow digests cachedAtMs record) := ⟨rfl, rfl⟩

theorem stamped_classificationCacheRow (cachedAtMs : Int64)
    (record : ClassificationCacheWriteRecord) :
    Stamped classificationCacheTable bucketOf (classificationCacheRow cachedAtMs record) :=
  ⟨rfl, rfl⟩

/-- **Every write keeps the rows well formed.** -/
theorem WellFormed.write {caches caches' : Caches} {write : CacheWrite} (h : WellFormed caches)
    (hwrite : caches.write digests write = some (.ok caches')) : WellFormed caches' := by
  cases write with
  | parse choice deadlineOpen inInventory cachedAtMs records =>
    obtain ⟨hrows, hsame⟩ := of_write_parse hwrite
    exact ⟨h.parse.write (stamped_parseCacheRow cachedAtMs) hrows, hsame ▸ h.classification⟩
  | classification choice deadlineOpen inInventory cachedAtMs records =>
    obtain ⟨hrows, hsame⟩ := of_write_classification hwrite
    exact ⟨hsame ▸ h.parse,
      h.classification.write (stamped_classificationCacheRow cachedAtMs) hrows⟩

/-- The rows of a run are well formed. -/
theorem Reached.wellFormed {condition : Caches → CacheWrite → Prop} {caches : Caches}
    (h : Reached digests condition caches) : WellFormed caches := by
  induction h with
  | empty => exact ⟨⟨List.nodup_nil, nofun⟩, ⟨List.nodup_nil, nofun⟩⟩
  | write _ _ hwrite ih => exact ih.write hwrite

/-- **A successful write evicts a shortest prefix.** -/
theorem evictsShortestPrefix {caches caches' : Caches} {write : CacheWrite}
    (h : WellFormed caches) (hwrite : caches.write digests write = some (.ok caches')) :
    EvictsShortestPrefix digests caches caches' write := by
  cases write with
  | parse choice deadlineOpen inInventory cachedAtMs records =>
    obtain ⟨hrows, hsame⟩ := of_write_parse hwrite
    obtain ⟨-, victims, hevicts⟩ := writeWithCheck_evicts h.parse.keys_nodup hrows
    exact ⟨hsame, victims, hevicts.minimal⟩
  | classification choice deadlineOpen inInventory cachedAtMs records =>
    obtain ⟨hrows, hsame⟩ := of_write_classification hwrite
    obtain ⟨-, victims, hevicts⟩ := writeWithCheck_evicts h.classification.keys_nodup hrows
    exact ⟨hsame, victims, hevicts.minimal⟩

/-- The caches of a run fit. -/
theorem Reached.fitsCaps {condition : Caches → CacheWrite → Prop} {caches : Caches}
    (h : Reached digests condition caches) : FitsCaps caches := by
  induction h with
  | empty => exact ⟨Nat.zero_le _, Nat.zero_le _⟩
  | @write caches caches' write hreached _ hwrite ih =>
    have hevicts := evictsShortestPrefix hreached.wellFormed hwrite
    cases write with
    | parse choice deadlineOpen inInventory cachedAtMs records =>
      obtain ⟨hsame, victims, hshortest⟩ := hevicts
      exact ⟨hshortest.fits, hsame ▸ ih.2⟩
    | classification choice deadlineOpen inInventory cachedAtMs records =>
      obtain ⟨hsame, victims, hshortest⟩ := hevicts
      exact ⟨hsame ▸ ih.1, hshortest.fits⟩

/-- A write ends. -/
theorem write_terminates (caches : Caches) (write : CacheWrite) :
    caches.write digests write ≠ none := by
  cases write with
  | parse choice deadlineOpen inInventory cachedAtMs records =>
    exact fun h => writeWithCheck_terminates (Option.map_eq_none_iff.1 h)
  | classification choice deadlineOpen inInventory cachedAtMs records =>
    exact fun h => writeWithCheck_terminates (Option.map_eq_none_iff.1 h)

/-- The rows of both caches do not tie. -/
structure RowsDiffer (caches : Caches) : Prop where
  parse : TuplesDiffer parseCacheTable caches.parse
  classification : TuplesDiffer classificationCacheTable caches.classification

/-- **When the tuples differ once the records of a write are inserted.** -/
theorem tuplesDifferAfter_iff {caches : Caches} (h : WellFormed caches) (hdiffer : RowsDiffer caches)
    (write : CacheWrite) :
    TuplesDifferAfter digests caches write ↔ UntiedWrite digests caches write := by
  cases write with
  | parse choice deadlineOpen inInventory cachedAtMs records =>
    refine tuplesDiffer_iff h.parse.keys_nodup h.parse.stamped ?_ hdiffer.parse
    intro row hrow
    obtain ⟨record, -, rfl⟩ := List.mem_map.1 hrow
    exact ⟨stamped_parseCacheRow cachedAtMs record, rfl⟩
  | classification choice deadlineOpen inInventory cachedAtMs records =>
    refine tuplesDiffer_iff h.classification.keys_nodup h.classification.stamped ?_
      hdiffer.classification
    intro row hrow
    obtain ⟨record, -, rfl⟩ := List.mem_map.1 hrow
    exact ⟨stamped_classificationCacheRow cachedAtMs record, rfl⟩

/-- The tuples differ in every state of a run without ties. -/
theorem Reached.rowsDiffer {caches : Caches} (h : Reached digests (UntiedWrite digests) caches) :
    RowsDiffer caches := by
  induction h with
  | empty => exact ⟨nofun, nofun⟩
  | @write caches caches' write hreached huntied hwrite ih =>
    have hafter := (tuplesDifferAfter_iff hreached.wellFormed ih write).2 huntied
    have hevicts := evictsShortestPrefix hreached.wellFormed hwrite
    cases write with
    | parse choice deadlineOpen inInventory cachedAtMs records =>
      obtain ⟨hsame, victims, hshortest⟩ := hevicts
      refine ⟨fun a ha b hb => ?_, hsame ▸ ih.classification⟩
      exact hafter a (hshortest.sublist.subset ha) b (hshortest.sublist.subset hb)
    | classification choice deadlineOpen inInventory cachedAtMs records =>
      obtain ⟨hsame, victims, hshortest⟩ := hevicts
      refine ⟨hsame ▸ ih.parse, fun a ha b hb => ?_⟩
      exact hafter a (hshortest.sublist.subset ha) b (hshortest.sublist.subset hb)

/-- Where nothing ties a write has one outcome. -/
theorem write_unique {caches caches₁ caches₂ : Caches} {write₁ write₂ : CacheWrite}
    (h : WellFormed caches) (hinput : SameInput write₁ write₂)
    (hdiffer : TuplesDifferAfter digests caches write₁)
    (hwrite₁ : caches.write digests write₁ = some (.ok caches₁))
    (hwrite₂ : caches.write digests write₂ = some (.ok caches₂)) : caches₁ = caches₂ := by
  cases caches₁
  cases caches₂
  cases hinput with
  | parse =>
    obtain ⟨hrows₁, hsame₁⟩ := of_write_parse hwrite₁
    obtain ⟨hrows₂, hsame₂⟩ := of_write_parse hwrite₂
    rw [Caches.mk.injEq]
    exact ⟨writeWithCheck_unique h.parse hdiffer hrows₁ hrows₂, hsame₁.trans hsame₂.symm⟩
  | classification =>
    obtain ⟨hrows₁, hsame₁⟩ := of_write_classification hwrite₁
    obtain ⟨hrows₂, hsame₂⟩ := of_write_classification hwrite₂
    rw [Caches.mk.injEq]
    exact ⟨hsame₁.trans hsame₂.symm, writeWithCheck_unique h.classification hdiffer hrows₁ hrows₂⟩

/-- What holds of the writes of every run. -/
structure AnyRun (digests : Digests) : Prop where
  ends : ∀ (caches : Caches) (write : CacheWrite), caches.write digests write ≠ none
  fits : ∀ caches, Reached digests (fun _ _ => True) caches → FitsCaps caches
  shortest : ∀ caches, Reached digests (fun _ _ => True) caches → ∀ write caches',
    caches.write digests write = some (.ok caches') →
      EvictsShortestPrefix digests caches caches' write

/-- What holds of the writes of a run without ties. -/
structure UntiedRun (digests : Digests) : Prop where
  /-- The tuples of different rows differ where the write is without ties as well, and only there. -/
  differ : ∀ caches, Reached digests (UntiedWrite digests) caches → ∀ write,
    TuplesDifferAfter digests caches write ↔ UntiedWrite digests caches write
  /-- Then the survivors depend on the rows alone. -/
  outcome : ∀ caches, Reached digests (UntiedWrite digests) caches → ∀ write₁ write₂,
    UntiedWrite digests caches write₁ → SameInput write₁ write₂ → ∀ caches₁ caches₂,
      caches.write digests write₁ = some (.ok caches₁) →
      caches.write digests write₂ = some (.ok caches₂) → caches₁ = caches₂

/-- **Every write ends below the caps with a shortest prefix of the rows evicted.  In a run without
ties the tuples of different rows differ, and every write has one outcome.** -/
theorem eviction_outcome (digests : Digests) : AnyRun digests ∧ UntiedRun digests := by
  refine ⟨⟨write_terminates, fun caches h => h.fitsCaps, fun caches h write caches' =>
    evictsShortestPrefix h.wellFormed⟩, ⟨fun caches h => ?_, ?_⟩⟩
  · exact tuplesDifferAfter_iff h.wellFormed h.rowsDiffer
  · intro caches h write₁ write₂ huntied hinput caches₁ caches₂
    have hafter := (tuplesDifferAfter_iff h.wellFormed h.rowsDiffer write₁).2 huntied
    exact write_unique h.wellFormed hinput hafter

/-! ### Two records that tie -/

/-- **Two files written together tie**: their rows have one tuple, and which of them survives an
eviction is up to the database. -/
theorem eviction_tie :
    let records := [emptyTextRecord ['a'] 0, emptyTextRecord ['b'] 0]
    let rows := records.map (parseCacheRow emptyTextDigests 0)
    let scan := FirstChoice.scan parseCacheTable.evictionTuple
    validateRecord emptyTextDigests (emptyTextRecord ['a'] 0) = .ok () ∧
      validateRecord emptyTextDigests (emptyTextRecord ['b'] 0) = .ok () ∧
      writeSuccessCacheWithCheck emptyTextDigests (fun _ => true)
        (scan id fun _ => List.Perm.refl _) (fun _ => true) 0 records [] = some (.ok rows) ∧
      ¬ TuplesDiffer parseCacheTable rows ∧
      evictWithCheck parseCacheTable (scan id fun _ => List.Perm.refl _) (fun _ => true) 400 0 rows ≠
        evictWithCheck parseCacheTable (scan List.reverse List.reverse_perm) (fun _ => true) 400 0
          rows := by
  refine ⟨?_, ?_, ?_, ?_, ?_⟩
  · decide +kernel
  · decide +kernel
  · decide +kernel
  · unfold TuplesDiffer
    decide +kernel
  · decide +kernel

end DailyReport.ParseCache
