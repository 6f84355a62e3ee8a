import DailyReport.Lib.Eviction
import DailyReport.Lib.Except
import DailyReport.Lib.Upsert
import DailyReport.ParseCache.Tables
import Mathlib.Data.List.Lex
import Mathlib.Data.Prod.Lex

/-!
# Writing to a cache table and evicting from it

The parse cache and the classification cache are written in the same way: the records are inserted
one after the other, and rows are evicted until the table fits below its cap.  Which of several rows
with the same tuple comes first is up to the database (`FirstChoice`).  The deadline is asked again
and again; `deadlineOpen n` is its answer at check `n`.

* `writeWithCheck_terminates` : the loop ends;
* `writeWithCheck_evicts` : a write that succeeds has inserted the records and evicted;
* `tuplesDiffer_iff` : **when the tuples of the rows differ after the records are inserted**.
-/

namespace DailyReport.ParseCache

open Lib

/-- What the rows are ordered by. -/
abbrev EvictionTuple : Type := ℕ ×ₗ ℕ ×ₗ List ℕ ×ₗ ℤ ×ₗ ℕ

/-- The columns of a cache table that writes and evictions look at. -/
structure CacheTable (α κ : Type) where
  key : α → κ
  /-- The key as it is read from the row of a victim. -/
  readKey : α → Except SqlError κ
  generationRank : α → ℕ
  /-- What it takes to compute the row again. -/
  costRank : α → ℕ
  lastAccessedBucket : α → Bytes
  cachedAtMs : α → ℤ
  keyLength : α → ℕ
  entrySizeBytes : α → ℕ
  /-- An old row that is updated from a new one with its key. -/
  replace : α → α → α
  readKey_eq : ∀ row k, readKey row = .ok k → k = key row
  replace_eq : ∀ old new, generationRank old = generationRank new → replace old new = new
  key_replace : ∀ old new, key old = key new → key (replace old new) = key new

/-- `ORDER BY`: texts are compared byte by byte. -/
def CacheTable.evictionTuple {α κ : Type} (table : CacheTable α κ) (row : α) : EvictionTuple :=
  toLex (table.generationRank row, toLex (table.costRank row,
    toLex ((table.lastAccessedBucket row).map UInt8.toNat,
      toLex (table.cachedAtMs row, table.keyLength row))))

section

variable {α κ ρ : Type} [DecidableEq α] [DecidableEq κ] (table : CacheTable α κ)
  (choice : FirstChoice table.evictionTuple) (deadlineOpen : ℕ → Bool) (cap : ℕ)

def ensureMutationDeadline (check : ℕ) : Except SqlError Unit :=
  if deadlineOpen check then .ok () else .error .deadlineExhausted

/-! ### Evicting -/

/-- What a turn of the loop leads to. -/
inductive Turn (α : Type)
  | done (rows : List α)
  | again (total : ℤ) (rows : List α)

/-- `DELETE`: the rows that are left. -/
def deleteKey (rows : List α) (k : κ) : List α :=
  rows.filter fun row => decide (table.key row ≠ k)

/-- `DELETE`: the number of rows that it deletes. -/
def deletedCount (rows : List α) (k : κ) : ℕ :=
  (rows.filter fun row => decide (table.key row = k)).length

/-- The turn of a victim. -/
def evictVictim (check : ℕ) (total : ℤ) (rows : List α) (victim : α) :
    Except SqlError (Turn α) := do
  let k ← table.readKey victim
  ensureMutationDeadline deadlineOpen check
  if deletedCount table rows k ≠ 1 then .ok (.done (deleteKey table rows k))
  else .ok (.again (total - table.entrySizeBytes victim) (deleteKey table rows k))

/-- A turn of the loop. -/
def evictTurn (check : ℕ) (total : ℤ) (rows : List α) : Except SqlError (Turn α) :=
  if total ≤ cap then .ok (.done rows)
  else do
    ensureMutationDeadline deadlineOpen check
    match choice.first rows with
    | none => .ok (.done rows)
    | some victim => evictVictim table deadlineOpen (check + 1) total rows victim

/-- The loop, with `none` when the fuel is too short. -/
def evictLoop : ℕ → ℕ → ℤ → List α → Option (Except SqlError (List α))
  | 0, _, _, _ => none
  | fuel + 1, check, total, rows =>
    match evictTurn table choice deadlineOpen cap check total rows with
    | .error error => some (.error error)
    | .ok (.done rows) => some (.ok rows)
    | .ok (.again total rows) => evictLoop fuel (check + 2) total rows

/-- Evict rows until the table fits. -/
def evictWithCheck (check : ℕ) (rows : List α) : Option (Except SqlError (List α)) :=
  match ensureMutationDeadline deadlineOpen check with
  | .error error => some (.error error)
  | .ok () => evictLoop table choice deadlineOpen cap (rows.length + 1) (check + 1)
      (totalSize table.entrySizeBytes rows) rows

/-! ### Writing -/

/-- Insert the rows of the records that pass their checks. -/
def insertRecords (checkRecord : ρ → Except SqlError Unit) (rowOf : ρ → α) :
    ℕ → List α → List ρ → Except SqlError (List α)
  | _, rows, [] => .ok rows
  | check, rows, record :: records => do
    ensureMutationDeadline deadlineOpen check
    checkRecord record
    insertRecords checkRecord rowOf (check + 1) (upsert table.key table.replace rows (rowOf record))
      records

/-- Insert the records and evict. -/
def writeWithCheck (checkRecord : ρ → Except SqlError Unit) (rowOf : ρ → α) (records : List ρ)
    (rows : List α) : Option (Except SqlError (List α)) :=
  match ensureMutationDeadline deadlineOpen 0 with
  | .error error => some (.error error)
  | .ok () =>
    match insertRecords table deadlineOpen checkRecord rowOf 1 rows records with
    | .error error => some (.error error)
    | .ok rows => evictWithCheck table choice deadlineOpen cap (records.length + 1) rows

end

/-! ### The loop -/

section

variable {α κ ρ : Type} [DecidableEq α] [DecidableEq κ] {table : CacheTable α κ}
  {choice : FirstChoice table.evictionTuple} {deadlineOpen : ℕ → Bool} {cap : ℕ}

omit [DecidableEq α] in
theorem length_deleteKey (table : CacheTable α κ) (rows : List α) (k : κ) :
    (deleteKey table rows k).length + deletedCount table rows k = rows.length := by
  induction rows with
  | nil => rfl
  | cons row rows ih =>
    unfold deleteKey deletedCount at ih ⊢
    by_cases heq : table.key row = k
    · rw [List.filter_cons_of_neg (by simpa using heq), List.filter_cons_of_pos (by simpa using heq),
        List.length_cons, List.length_cons, ← ih]
      rfl
    · rw [List.filter_cons_of_pos (by simpa using heq), List.filter_cons_of_neg (by simpa using heq),
        List.length_cons, List.length_cons, ← ih]
      omega

/-- A victim is deleted alone. -/
theorem deleteKey_eq {rows : List α} {victim : α} (hkeys : (rows.map table.key).Nodup)
    (hmem : victim ∈ rows) :
    deleteKey table rows (table.key victim) = rows.erase victim ∧
      deletedCount table rows (table.key victim) = 1 := by
  have hdelete : deleteKey table rows (table.key victim) = rows.erase victim := by
    rw [(List.Nodup.of_map _ hkeys).erase_eq_filter]
    refine List.filter_congr fun row hrow => ?_
    have hiff : table.key row = table.key victim ↔ row = victim :=
      ⟨fun heq => List.inj_on_of_nodup_map hkeys hrow hmem heq, fun heq => heq ▸ rfl⟩
    by_cases heq : row = victim <;> simp [hiff, heq]
  have hlength := length_deleteKey table rows (table.key victim)
  have hpos := List.length_pos_of_mem hmem
  rw [hdelete, List.length_erase_of_mem hmem] at hlength
  exact ⟨hdelete, by omega⟩

/-- What a turn that succeeds does. -/
inductive TurnOf (table : CacheTable α κ) (cap : ℕ) (rows : List α) : Turn α → Prop
  | fits (h : totalSize table.entrySizeBytes rows ≤ cap) : TurnOf table cap rows (.done rows)
  | evict {victim : α} (hcap : cap < totalSize table.entrySizeBytes rows) (hmem : victim ∈ rows)
    (hfirst : ∀ row ∈ rows, table.evictionTuple victim ≤ table.evictionTuple row) :
    TurnOf table cap rows
      (.again (totalSize table.entrySizeBytes (rows.erase victim)) (rows.erase victim))

theorem turnOf_evictTurn {check : ℕ} {rows : List α} {turn : Turn α}
    (hkeys : (rows.map table.key).Nodup)
    (h : evictTurn table choice deadlineOpen cap check
      (totalSize table.entrySizeBytes rows) rows = .ok turn) : TurnOf table cap rows turn := by
  unfold evictTurn at h
  split_ifs at h with hcap
  · cases h
    exact .fits (by exact_mod_cast hcap)
  · have hcap : cap < totalSize table.entrySizeBytes rows := by exact_mod_cast not_le.1 hcap
    obtain ⟨-, -, h⟩ := bind_eq_ok.1 h
    have hne : rows ≠ [] := by
      rintro rfl
      exact absurd hcap (Nat.not_lt_zero _)
    obtain ⟨victim, hvictim⟩ := choice.exists_first rows hne
    have hmem := choice.mem rows victim hvictim
    rw [hvictim] at h
    obtain ⟨k, hk, h⟩ := bind_eq_ok.1 h
    obtain ⟨-, -, h⟩ := bind_eq_ok.1 h
    -- the row that was read is deleted, and no other
    obtain rfl := table.readKey_eq victim k hk
    obtain ⟨hdelete, hcount⟩ := deleteKey_eq hkeys hmem
    rw [if_neg (not_not.2 hcount), hdelete] at h
    have htotal : (totalSize table.entrySizeBytes rows : ℤ) - table.entrySizeBytes victim =
        (totalSize table.entrySizeBytes (rows.erase victim) : ℕ) := by
      rw [← totalSize_erase table.entrySizeBytes hmem]
      omega
    rw [htotal] at h
    obtain rfl := Except.ok.inj h
    exact .evict hcap hmem (choice.le rows victim hvictim)

/-- A loop that succeeds evicts. -/
theorem evicts_evictLoop {fuel check : ℕ} {rows survivors : List α}
    (hkeys : (rows.map table.key).Nodup)
    (h : evictLoop table choice deadlineOpen cap fuel check
      (totalSize table.entrySizeBytes rows) rows = some (.ok survivors)) :
    ∃ victims, Evicts table.evictionTuple table.entrySizeBytes cap rows victims survivors := by
  induction fuel generalizing check rows with
  | zero => cases h
  | succ fuel ih =>
    rw [evictLoop] at h
    split at h
    · cases h
    · next done hturn =>
      obtain rfl : done = survivors := Except.ok.inj (Option.some.inj h)
      cases turnOf_evictTurn hkeys hturn with
      | fits hle => exact ⟨[], .fits hle⟩
    · next total left hturn =>
      cases turnOf_evictTurn hkeys hturn with
      | @evict victim hcap hmem hfirst =>
        have hkeys' : ((rows.erase victim).map table.key).Nodup :=
          hkeys.sublist (List.erase_sublist.map _)
        obtain ⟨victims, hrest⟩ := ih hkeys' h
        exact ⟨victim :: victims, .evict hcap hmem hfirst hrest⟩

omit [DecidableEq α] in
/-- A turn after which the loop goes on has deleted a row. -/
theorem length_lt_of_again {check : ℕ} {total total' : ℤ} {rows left : List α}
    (h : evictTurn table choice deadlineOpen cap check total rows = .ok (.again total' left)) :
    left.length < rows.length := by
  unfold evictTurn at h
  split_ifs at h
  · cases h
  · obtain ⟨-, -, h⟩ := bind_eq_ok.1 h
    split at h
    · cases h
    · obtain ⟨k, -, h⟩ := bind_eq_ok.1 h
      obtain ⟨-, -, h⟩ := bind_eq_ok.1 h
      split_ifs at h with hcount
      · cases h
      · obtain ⟨-, rfl⟩ := Turn.again.inj (Except.ok.inj h)
        have hlength := length_deleteKey table rows k
        omega

omit [DecidableEq α] in
/-- **The loop ends**: a turn for each row is enough, whatever the deadline and the choice are. -/
theorem evictLoop_terminates {fuel check : ℕ} {total : ℤ} {rows : List α}
    (hfuel : rows.length < fuel) :
    evictLoop table choice deadlineOpen cap fuel check total rows ≠ none := by
  induction fuel generalizing check total rows with
  | zero => exact absurd hfuel (Nat.not_lt_zero _)
  | succ fuel ih =>
    rw [evictLoop]
    split
    · exact nofun
    · exact nofun
    · next total left hturn =>
      have hlt := length_lt_of_again hturn
      exact ih (by omega)

/-! ### The write -/

variable {checkRecord : ρ → Except SqlError Unit} {rowOf : ρ → α} {records : List ρ} {rows : List α}

/-- The rows after the records are inserted. -/
def insertedRows (table : CacheTable α κ) (rowOf : ρ → α) (records : List ρ) (rows : List α) :
    List α :=
  (records.map rowOf).foldl (upsert table.key table.replace) rows

omit [DecidableEq α] in
theorem insertRecords_eq_ok {check : ℕ} {rows' : List α}
    (h : insertRecords table deadlineOpen checkRecord rowOf check rows records = .ok rows') :
    rows' = insertedRows table rowOf records rows ∧
      ∀ record ∈ records, checkRecord record = .ok () := by
  induction records generalizing check rows with
  | nil =>
    cases h
    exact ⟨rfl, nofun⟩
  | cons record records ih =>
    obtain ⟨-, -, h⟩ := bind_eq_ok.1 h
    obtain ⟨⟨⟩, hcheck, h⟩ := bind_eq_ok.1 h
    obtain ⟨hrows, hrest⟩ := ih h
    exact ⟨hrows, List.forall_mem_cons.2 ⟨hcheck, hrest⟩⟩

omit [DecidableEq α] in
/-- **A write ends**, whatever the deadline and the choice are. -/
theorem writeWithCheck_terminates :
    writeWithCheck table choice deadlineOpen cap checkRecord rowOf records rows ≠ none := by
  unfold writeWithCheck
  split
  · exact nofun
  · split
    · exact nofun
    · unfold evictWithCheck
      split
      · exact nofun
      · exact evictLoop_terminates (Nat.lt_succ_self _)

/-- **A write that succeeds has inserted the records and evicted rows.** -/
theorem writeWithCheck_evicts {survivors : List α} (hkeys : (rows.map table.key).Nodup)
    (h : writeWithCheck table choice deadlineOpen cap checkRecord rowOf records rows =
      some (.ok survivors)) :
    (∀ record ∈ records, checkRecord record = .ok ()) ∧
      ∃ victims, Evicts table.evictionTuple table.entrySizeBytes cap
        (insertedRows table rowOf records rows) victims survivors := by
  unfold writeWithCheck at h
  split at h
  · cases h
  · split at h
    · cases h
    · next inserted hinsert =>
      obtain ⟨rfl, hcheck⟩ := insertRecords_eq_ok hinsert
      refine ⟨hcheck, ?_⟩
      unfold evictWithCheck at h
      split at h
      · cases h
      · exact evicts_evictLoop (nodup_upsertAll table.key_replace hkeys) h

/-! ### Ties -/

/-- The tuples of different rows differ. -/
def TuplesDiffer (table : CacheTable α κ) (rows : List α) : Prop :=
  ∀ a ∈ rows, ∀ b ∈ rows, table.evictionTuple a = table.evictionTuple b → a = b

/-- A row as a write leaves it: of the first generation, and in the bucket of its time. -/
structure Stamped (table : CacheTable α κ) (bucketOf : ℤ → Bytes) (row : α) : Prop where
  generation : table.generationRank row = 1
  bucket : table.lastAccessedBucket row = bucketOf (table.cachedAtMs row)

/-- The rows `news` that are written at `ms` tie neither with each other nor with stored rows.  Those
that a later one of them replaces do not count, nor do the stored rows that one of them replaces. -/
structure Untied (table : CacheTable α κ) (ms : ℤ) (rows news : List α) : Prop where
  batch : ∀ a ∈ lastWrites table.key news, ∀ b ∈ lastWrites table.key news,
    table.key a ≠ table.key b →
      ¬(table.costRank a = table.costRank b ∧ table.keyLength a = table.keyLength b)
  stored : ∀ a ∈ lastWrites table.key news, ∀ row ∈ rows, (∀ b ∈ news, table.key b ≠ table.key row) →
    ¬(table.cachedAtMs row = ms ∧ table.costRank row = table.costRank a ∧
      table.keyLength row = table.keyLength a)

variable {bucketOf : ℤ → Bytes} {ms : ℤ}

omit [DecidableEq α] [DecidableEq κ] in
/-- Stamped rows tie when time, rank and length are the same. -/
theorem evictionTuple_eq_iff {a b : α} (ha : Stamped table bucketOf a)
    (hb : Stamped table bucketOf b) :
    table.evictionTuple a = table.evictionTuple b ↔ table.cachedAtMs a = table.cachedAtMs b ∧
      table.costRank a = table.costRank b ∧ table.keyLength a = table.keyLength b := by
  unfold CacheTable.evictionTuple
  rw [ha.generation, hb.generation, ha.bucket, hb.bucket]
  simp only [EmbeddingLike.apply_eq_iff_eq, Prod.mk.injEq, true_and]
  constructor
  · rintro ⟨hrank, -, hms, hlength⟩
    exact ⟨hms, hrank, hlength⟩
  · rintro ⟨hms, hrank, hlength⟩
    exact ⟨hrank, by rw [hms], hms, hlength⟩

omit [DecidableEq α] in
/-- The rows after stamped rows are written to stamped rows. -/
theorem mem_insertedRows {a : α} (hrows : ∀ row ∈ rows, Stamped table bucketOf row)
    (hnews : ∀ row ∈ records.map rowOf, Stamped table bucketOf row) :
    a ∈ insertedRows table rowOf records rows ↔
      (a ∈ rows ∧ ∀ b ∈ records.map rowOf, table.key b ≠ table.key a) ∨
        a ∈ lastWrites table.key (records.map rowOf) :=
  mem_upsertAll (fun old new hold hnew =>
    table.replace_eq old new (hold.generation.trans hnew.generation.symm)) hrows hnews

omit [DecidableEq α] in
/-- **When the tuples of the rows differ after the records are inserted.** -/
theorem tuplesDiffer_iff (hkeys : (rows.map table.key).Nodup)
    (hrows : ∀ row ∈ rows, Stamped table bucketOf row)
    (hnews : ∀ row ∈ records.map rowOf, Stamped table bucketOf row ∧ table.cachedAtMs row = ms)
    (hdiffer : TuplesDiffer table rows) :
    TuplesDiffer table (insertedRows table rowOf records rows) ↔
      Untied table ms rows (records.map rowOf) := by
  have hmem : ∀ {a}, a ∈ insertedRows table rowOf records rows ↔
      (a ∈ rows ∧ ∀ b ∈ records.map rowOf, table.key b ≠ table.key a) ∨
        a ∈ lastWrites table.key (records.map rowOf) :=
    mem_insertedRows hrows fun row hrow => (hnews row hrow).1
  have hlast : ∀ {a}, a ∈ lastWrites table.key (records.map rowOf) →
      Stamped table bucketOf a ∧ table.cachedAtMs a = ms :=
    fun ha => hnews _ (mem_of_mem_lastWrites ha)
  constructor
  · intro h
    refine ⟨fun a ha b hb hne htie => hne ?_, fun a ha row hrow hnew htie => ?_⟩
    · have hab := h a (hmem.2 (.inr ha)) b (hmem.2 (.inr hb))
        ((evictionTuple_eq_iff (hlast ha).1 (hlast hb).1).2
          ⟨(hlast ha).2.trans (hlast hb).2.symm, htie⟩)
      rw [hab]
    · have hab := h row (hmem.2 (.inl ⟨hrow, hnew⟩)) a (hmem.2 (.inr ha))
        ((evictionTuple_eq_iff (hrows row hrow) (hlast ha).1).2
          ⟨htie.1.trans (hlast ha).2.symm, htie.2⟩)
      exact hnew a (mem_of_mem_lastWrites ha) (congrArg table.key hab.symm)
  · intro h a ha b hb htuple
    rcases hmem.1 ha with ⟨ha', hnewa⟩ | ha' <;> rcases hmem.1 hb with ⟨hb', hnewb⟩ | hb'
    · exact hdiffer a ha' b hb' htuple
    · obtain ⟨hms, htie⟩ := (evictionTuple_eq_iff (hrows a ha') (hlast hb').1).1 htuple
      exact absurd ⟨hms.trans (hlast hb').2, htie⟩ (h.stored b hb' a ha' hnewa)
    · obtain ⟨hms, hrank, hlength⟩ :=
        (evictionTuple_eq_iff (hlast ha').1 (hrows b hb')).1 htuple
      exact absurd ⟨hms.symm.trans (hlast ha').2, hrank.symm, hlength.symm⟩
        (h.stored a ha' b hb' hnewb)
    · obtain ⟨-, htie⟩ := (evictionTuple_eq_iff (hlast ha').1 (hlast hb').1).1 htuple
      by_contra hne
      have hkey : table.key a ≠ table.key b := fun heq =>
        hne (List.inj_on_of_nodup_map (nodup_upsertAll table.key_replace hkeys) ha hb heq)
      exact h.batch a ha' b hb' hkey htie

end

end DailyReport.ParseCache
