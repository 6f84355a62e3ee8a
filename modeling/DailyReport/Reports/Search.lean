import DailyReport.Lib.Sort
import DailyReport.Lib.Stamps
import DailyReport.Reports.Chain

/-!
# The search index

A search looks at an index of the published reports.  Before it does, it compares a signature of the
report tables (the number of rows and the latest `updated_at` of each) with the one the index was
built from, and rebuilds the index when they differ.

* `publish_outdates` : a publication outdates exactly one table, when time goes forward;
* `search_index_fresh` : **after every search the index is the one that a rebuild would make**.
-/

namespace DailyReport.Reports

open Lib

/-! ### The index -/

structure Fragment where
  title : Text
  body : Text
  sources : Text
  deriving DecidableEq

/-- What is indexed of a report of a kind. -/
class FragmentRules where
  fragments : ReportDocument → Text → List Fragment

/-- A row of `report_search`. -/
structure IndexRow where
  reportKey : Text
  kind : Text
  reportLabel : Text
  reportDate : Option Text
  title : Text
  body : Text
  sources : Text
  deriving DecidableEq

structure SearchIndex where
  rows : List IndexRow
  entries : List (Text × Text)
  deriving DecidableEq

def SearchIndex.empty : SearchIndex := ⟨[], []⟩

/-- A row of a report table, as the index reads it. -/
structure SourceRow where
  key : Text
  rawJson : ReportDocument
  updatedAt : Text
  deriving DecidableEq

/-- The report tables: the name, the kind of report, and the rows. -/
structure ReportTable where
  name : Text
  kind : Text
  rows : List SourceRow

def dailyRows (db : Db) : List SourceRow :=
  db.dailyReports.map fun row => { key := row.date, rawJson := row.rawJson, updatedAt := row.updatedAt }

/-- The table of the weekly or monthly reports. -/
def periodRows (db : Db) (kind : Text) : List SourceRow :=
  (db.periodReports.filter fun row => decide (row.kind = kind)).map fun row =>
    { key := row.label, rawJson := row.rawJson, updatedAt := row.updatedAt }

def weekly : Text := lit "weekly"
def monthly : Text := lit "monthly"

/-- `TABLES`. -/
def reportTables (db : Db) : List ReportTable :=
  [⟨lit "daily_reports", lit "daily", dailyRows db⟩,
    ⟨lit "weekly_reports", weekly, periodRows db weekly⟩,
    ⟨lit "monthly_reports", monthly, periodRows db monthly⟩]

/-- `MAX(updated_at)`. -/
def ReportTable.latest (table : ReportTable) : Option Text := latestStamp SourceRow.updatedAt table.rows

/-- The larger one of two optional texts; none is less than all. -/
def maxText : Option Text → Option Text → Option Text
  | none, other => other
  | some text, none => some text
  | some text, some other => some (max text other)

/-- An entry of the signature. -/
def ReportTable.signature (table : ReportTable) : Json :=
  .arr [.str table.name, .num table.rows.length, Json.ofNullable .str table.latest]

structure SourceState where
  tables : List ReportTable
  metadata : List (Text × Text)
  count : ℕ

def sourceState (db : Db) : SourceState :=
  let tables := reportTables db
  let count := (tables.map fun table => table.rows.length).sum
  let latest := tables.foldl (fun latest table => maxText latest table.latest) none
  { tables
    metadata :=
      [(lit "schema_version", lit "2"), (lit "source_count", decimal count),
        (lit "source_max_updated_at", latest.getD []),
        (lit "source_tables", (Json.arr (tables.map ReportTable.signature)).print)]
    count }

section Index

variable [FragmentRules]

/-- The index rows of a report. -/
def indexRows (kind : Text) (row : SourceRow) : List IndexRow :=
  (FragmentRules.fragments row.rawJson kind).map fun fragment =>
    { reportKey := row.key
      kind
      reportLabel := row.key
      reportDate := if kind = lit "daily" then some row.key else none
      title := fragment.title
      body := fragment.body
      sources := fragment.sources }

def tableIndex (table : ReportTable) : List IndexRow :=
  (sortByKey SourceRow.key table.rows).flatMap (indexRows table.kind)

/-- The reports that have no fragment. -/
def skippedReports (table : ReportTable) : ℕ :=
  table.rows.countP fun row => (FragmentRules.fragments row.rawJson table.kind).isEmpty

/-- Build the index of the report tables, whatever was indexed before. -/
def rebuild (state : SourceState) : SearchIndex :=
  let rows := state.tables.flatMap tableIndex
  { rows
    entries := state.metadata ++
      [(lit "indexed_fragments", decimal rows.length),
        (lit "skipped_reports", decimal (state.tables.map skippedReports).sum)] }

/-- The value of a key of `index_meta`. -/
def SearchIndex.metaValue (index : SearchIndex) (key : Text) : Option Text :=
  (index.entries.find? fun entry => decide (entry.1 = key)).map Prod.snd

/-- Whether the index was built from another state of the report tables. -/
def outdated (state : SourceState) (index : SearchIndex) : Bool :=
  state.metadata.any fun entry => decide (index.metaValue entry.1 ≠ some entry.2)

/-- `search::execute`, and the index it commits.  `found` is the query, which may fail. -/
def executeSearch (db : Db) (index : SearchIndex) (reindex : Bool) (query : Text)
    (found : List IndexRow → Except ReportError Unit) : Except ReportError SearchIndex := do
  ensure (reindex = true ∨ query.all isWhitespace = false)
    (reportError "SEARCH_QUERY_EMPTY" "请输入非空检索关键词")
  let state := sourceState db
  let index := if reindex || outdated state index then rebuild state else index
  if reindex = false then found index.rows
  .ok index

end Index

/-! ### Publications and searches -/

/-- The database and the index. -/
structure SearchSystem where
  db : Db
  index : SearchIndex

/-- A publication reads the clock for `now`, and the database reads it when it inserts a row.  What
other operations do to the runs is arbitrary; they do not touch the report tables. -/
inductive SearchEvent
  | publish (id verified : Text) (now databaseNow : ℤ)
  | runs (runs : List RunRecord)
  | search (reindex : Bool) (query : Text) (found : List IndexRow → Except ReportError Unit)

/-- The readings of the clock of an event, from the first to the last one. -/
def SearchEvent.readings : SearchEvent → Option (ℤ × ℤ)
  | .publish _ _ now databaseNow => some (now, databaseNow)
  | _ => none

/-- The format of the clock of the database. -/
class DatabaseClock where
  datetime : ℤ → Text

section System

variable [Chrono] [ReportRules] [FragmentRules] [DatabaseClock]

def searchStep (s : SearchSystem) : SearchEvent → Except ReportError SearchSystem
  | .publish id verified now databaseNow => do
    let db ← markPublished s.db id verified now (DatabaseClock.datetime databaseNow)
    .ok { s with db }
  | .runs runs => .ok { s with db := { s.db with runs } }
  | .search reindex query found => do
    let index ← executeSearch s.db s.index reindex query found
    .ok { s with index }

/-- The state after a run of events from a database without reports. -/
def runSearch (runs : List RunRecord) (events : List SearchEvent) : SearchSystem :=
  applyAll searchStep { db := { Db.empty with runs }, index := .empty } events

end System

/-- Later readings have greater texts: a timestamp is after the ones before it, and after what the
database wrote before it. -/
def ClockOrdered [Chrono] [DatabaseClock] (readings : List (ℤ × ℤ)) : Prop :=
  ∀ r ∈ readings, ∀ r' ∈ readings,
    (r.1 < r'.1 → Chrono.timestamp r.1 < Chrono.timestamp r'.1) ∧
    (r.2 < r'.1 → DatabaseClock.datetime r.2 < Chrono.timestamp r'.1)

/-- The clock goes forward: the readings of an event are in order, and before the next ones. -/
def ClockForward (readings : List (ℤ × ℤ)) : Prop :=
  (∀ r ∈ readings, r.1 ≤ r.2) ∧ readings.Pairwise fun r r' => r.2 < r'.1

/-! ### What a publication does to the report tables -/

section Publications

variable {db db' : Db} {id verified databaseNow : Text} {now : ℤ}

/-- A table is as before, or it outdates what it was. -/
def Follows (rows rows' : List SourceRow) : Prop :=
  rows' = rows ∨ Outdates SourceRow.updatedAt rows rows'

theorem Follows.trans {rows rows' rows'' : List SourceRow} (h : Follows rows rows')
    (h' : Follows rows' rows'') : Follows rows rows'' := by
  rcases h with rfl | h
  · exact h'
  · rcases h' with rfl | h'
    · exact .inr h
    · exact .inr (h.trans h')

/-- The row of a date is new, or later than all others. -/
theorem upsertDaily_outdates (row : DailyReportRow) (databaseNow : Text) {updatedAt : Text}
    {rows : List DailyReportRow} (hlater : ∀ before ∈ rows, before.updatedAt < updatedAt) :
    Outdates DailyReportRow.updatedAt rows (upsertDaily row databaseNow updatedAt rows) := by
  unfold upsertDaily
  split_ifs with hany
  · obtain ⟨other, hother, hdate⟩ := List.any_eq_true.1 hany
    refine .inr ⟨by simp [updateWhere], { row with updatedAt }, ?_, hlater⟩
    exact mem_updateWhere.2 (.inr ⟨other, hother, hdate, rfl⟩)
  · exact .inl (by simp)

/-- A row of a date is as before, or has one of the two times. -/
theorem upsertDaily_stamp {row other : DailyReportRow} {databaseNow updatedAt : Text}
    {rows : List DailyReportRow} (h : other ∈ upsertDaily row databaseNow updatedAt rows) :
    other.updatedAt = updatedAt ∨ other.updatedAt = databaseNow ∨ other ∈ rows := by
  unfold upsertDaily at h
  split_ifs at h
  · rcases mem_updateWhere.1 h with ⟨hother, -⟩ | ⟨_, -, -, rfl⟩
    · exact .inr (.inr hother)
    · exact .inl rfl
  · rcases List.mem_append.1 h with hother | hother
    · exact .inr (.inr hother)
    · rw [List.mem_singleton.1 hother]
      exact .inr (.inl rfl)

/-- The key of a weekly or monthly report. -/
def PeriodReportRow.key (row : PeriodReportRow) : Text × Text := (row.kind, row.label)

/-- The period reports after the publication of one. -/
def replacePeriod (row : PeriodReportRow) (rows : List PeriodReportRow) : List PeriodReportRow :=
  deleteWhere (fun other => decide (other.kind = row.kind ∧ other.label = row.label)) rows ++ [row]

theorem mem_replacePeriod {row other : PeriodReportRow} {rows : List PeriodReportRow}
    (h : other ∈ replacePeriod row rows) : other = row ∨ other ∈ rows := by
  rcases List.mem_append.1 h with h | h
  · exact .inr (mem_deleteWhere.1 h).1
  · exact .inl (List.mem_singleton.1 h)

theorem replacePeriod_nodup (row : PeriodReportRow) {rows : List PeriodReportRow}
    (h : (rows.map PeriodReportRow.key).Nodup) :
    ((replacePeriod row rows).map PeriodReportRow.key).Nodup := by
  rw [replacePeriod, List.map_append, List.nodup_append]
  refine ⟨h.sublist ((deleteWhere_sublist _ rows).map _), by simp, ?_⟩
  intro key hkey other hother
  rw [List.map_singleton, List.mem_singleton] at hother
  rw [hother]
  rintro rfl
  obtain ⟨same, hsame, hkey⟩ := List.mem_map.1 hkey
  obtain ⟨hkind, hlabel⟩ := Prod.mk.inj hkey
  have hnot := of_decide_eq_false (mem_deleteWhere.1 hsame).2
  exact hnot ⟨hkind, hlabel⟩

/-- The reports of the kind: the one of the label is new, or later than all others. -/
theorem replacePeriod_outdates (row : PeriodReportRow) {rows : List PeriodReportRow}
    (hnodup : (rows.map PeriodReportRow.key).Nodup)
    (hlater : ∀ before ∈ rows, before.updatedAt < row.updatedAt) :
    Outdates PeriodReportRow.updatedAt (rows.filter fun other => decide (other.kind = row.kind))
      ((replacePeriod row rows).filter fun other => decide (other.kind = row.kind)) := by
  have hlabels : ((rows.filter fun other => decide (other.kind = row.kind)).map
      PeriodReportRow.key).Nodup := hnodup.sublist (List.filter_sublist.map _)
  have hfilter : (replacePeriod row rows).filter (fun other => decide (other.kind = row.kind)) =
      deleteWhere (fun other => decide (other.key = row.key))
        (rows.filter fun other => decide (other.kind = row.kind)) ++ [row] := by
    simp only [replacePeriod, deleteWhere, List.filter_append, List.filter_filter,
      List.filter_singleton, decide_true, cond_true]
    congr 1
    refine List.filter_congr fun other _ => ?_
    by_cases hkind : other.kind = row.kind <;> simp [hkind, PeriodReportRow.key]
  rw [hfilter]
  by_cases hthere : row.key ∈ (rows.filter fun other => decide (other.kind = row.kind)).map
      PeriodReportRow.key
  · obtain ⟨other, hother, hkey⟩ := List.mem_map.1 hthere
    have hlength := length_deleteWhere_key hlabels hother
    rw [hkey] at hlength
    refine .inr ⟨by simpa using hlength.symm, row, by simp, fun before hbefore => ?_⟩
    exact hlater before (List.mem_filter.1 hbefore).1
  · rw [deleteWhere_key_of_not_mem hthere]
    exact .inl (by simp)

/-- The reports of another kind are as before. -/
theorem replacePeriod_of_ne {row : PeriodReportRow} {rows : List PeriodReportRow} {kind : Text}
    (hkind : kind ≠ row.kind) :
    (replacePeriod row rows).filter (fun other => decide (other.kind = kind)) =
      rows.filter fun other => decide (other.kind = kind) := by
  rw [replacePeriod, List.filter_append, filter_deleteWhere_of_not]
  · simp [hkind.symm]
  · rintro other - hother
    rw [(of_decide_eq_true hother).1]
    simp [hkind.symm]

variable [Chrono]

/-- The row that a run is published with as the report of a period. -/
def RunRecord.periodRow (run : RunRecord) (label : Text) (report : ReportDocument) (now : ℤ) :
    PeriodReportRow where
  kind := run.runKind
  label := label
  rawJson := report
  updatedAt := Chrono.timestamp now

theorem markPeriodPublished_eq_ok [ReportRules] (h : markPeriodPublished db id verified now = .ok db') :
    ∃ run report label, db.findRun id = some run ∧
      db'.dailyReports = db.dailyReports ∧
      db'.periodReports = replacePeriod (run.periodRow label report now) db.periodReports := by
  simp only [markPeriodPublished, bind_eq_ok, readRun_eq_ok, Except.ok.injEq] at h
  obtain ⟨run, hfind, -, -, report, -, label, -, -, -, -, -, rfl⟩ := h
  exact ⟨run, report, label, hfind, rfl, rfl⟩

variable [DatabaseClock]

/-- What the report tables rely on. -/
structure TablesInv (readings : List (ℤ × ℤ)) (db : Db) : Prop where
  periods_nodup : (db.periodReports.map PeriodReportRow.key).Nodup
  daily : ∀ row ∈ db.dailyReports, ∃ r ∈ readings,
    row.updatedAt = Chrono.timestamp r.1 ∨ row.updatedAt = DatabaseClock.datetime r.2
  periods : ∀ row ∈ db.periodReports, ∃ r ∈ readings, row.updatedAt = Chrono.timestamp r.1

/-- Readings of the past are texts before the next timestamp. -/
theorem TablesInv.later {readings : List (ℤ × ℤ)} (h : TablesInv readings db)
    (hbefore : ∀ r ∈ readings, Chrono.timestamp r.1 < Chrono.timestamp now ∧
      DatabaseClock.datetime r.2 < Chrono.timestamp now) :
    (∀ row ∈ db.dailyReports, row.updatedAt < Chrono.timestamp now) ∧
      ∀ row ∈ db.periodReports, row.updatedAt < Chrono.timestamp now := by
  constructor
  · intro row hrow
    obtain ⟨r, hr, hstamp | hstamp⟩ := h.daily row hrow
    · rw [hstamp]
      exact (hbefore r hr).1
    · rw [hstamp]
      exact (hbefore r hr).2
  · intro row hrow
    obtain ⟨r, hr, hstamp⟩ := h.periods row hrow
    rw [hstamp]
    exact (hbefore r hr).1

/-- The tables after some publications: every table follows what it was. -/
structure FollowsAll (db db' : Db) : Prop where
  daily : Follows (dailyRows db) (dailyRows db')
  periods : ∀ kind, Follows (periodRows db kind) (periodRows db' kind)

omit [Chrono] [DatabaseClock] in
theorem FollowsAll.of_eq (hdaily : db'.dailyReports = db.dailyReports)
    (hperiods : db'.periodReports = db.periodReports) : FollowsAll db db' where
  daily := .inl (by simp only [dailyRows, hdaily])
  periods kind := .inl (by simp only [periodRows, hperiods])

omit [Chrono] [DatabaseClock] in
theorem FollowsAll.trans {db'' : Db} (h : FollowsAll db db') (h' : FollowsAll db' db'') :
    FollowsAll db db'' where
  daily := h.daily.trans h'.daily
  periods kind := (h.periods kind).trans (h'.periods kind)

/-- A publication outdates a table and leaves the other ones as they are. -/
theorem publish_follows [ReportRules] {readings : List (ℤ × ℤ)} (h : TablesInv readings db)
    {databaseNow : ℤ}
    (hbefore : ∀ r ∈ readings, Chrono.timestamp r.1 < Chrono.timestamp now ∧
      DatabaseClock.datetime r.2 < Chrono.timestamp now)
    (hpublish : markPublished db id verified now (DatabaseClock.datetime databaseNow) = .ok db') :
    TablesInv (readings ++ [(now, databaseNow)]) db' ∧ FollowsAll db db' := by
  obtain ⟨hdailyLater, hperiodsLater⟩ := h.later hbefore
  obtain ⟨run, hfind, hpublish⟩ := bind_eq_ok.1 hpublish
  have hold : ∀ r ∈ readings, r ∈ readings ++ [(now, databaseNow)] := fun r hr =>
    List.mem_append_left _ hr
  have hnew : (now, databaseNow) ∈ readings ++ [(now, databaseNow)] := by simp
  split_ifs at hpublish with hkind
  · obtain ⟨run, report, label, -, hdaily, hperiods⟩ := markPeriodPublished_eq_ok hpublish
    refine ⟨⟨?_, ?_, ?_⟩, ?_, ?_⟩
    · rw [hperiods]
      exact replacePeriod_nodup _ h.periods_nodup
    · intro row hrow
      rw [hdaily] at hrow
      obtain ⟨r, hr, hstamp⟩ := h.daily row hrow
      exact ⟨r, hold r hr, hstamp⟩
    · intro row hrow
      rw [hperiods] at hrow
      rcases mem_replacePeriod hrow with rfl | hrow
      · exact ⟨_, hnew, rfl⟩
      · obtain ⟨r, hr, hstamp⟩ := h.periods row hrow
        exact ⟨r, hold r hr, hstamp⟩
    · exact .inl (by simp only [dailyRows, hdaily])
    · intro kind
      unfold Follows periodRows
      rw [hperiods]
      by_cases hsame : kind = run.runKind
      · subst hsame
        refine .inr (Outdates.map ?_)
        exact replacePeriod_outdates (run.periodRow label report now) h.periods_nodup hperiodsLater
      · exact .inl (congrArg _ (replacePeriod_of_ne hsame))
  · obtain ⟨run, report, version, -, -, -, -, -, hdb'⟩ := markDailyPublished_eq_ok hpublish
    have hdaily := congrArg Db.dailyReports hdb'
    have hperiods := congrArg Db.periodReports hdb'
    refine ⟨⟨?_, ?_, ?_⟩, ?_, ?_⟩
    · rw [hperiods]
      exact h.periods_nodup
    · intro row hrow
      rw [hdaily] at hrow
      rcases upsertDaily_stamp hrow with hstamp | hstamp | hrow
      · exact ⟨_, hnew, .inl hstamp⟩
      · exact ⟨_, hnew, .inr hstamp⟩
      · obtain ⟨r, hr, hstamp⟩ := h.daily row hrow
        exact ⟨r, hold r hr, hstamp⟩
    · intro row hrow
      rw [hperiods] at hrow
      obtain ⟨r, hr, hstamp⟩ := h.periods row hrow
      exact ⟨r, hold r hr, hstamp⟩
    · unfold Follows dailyRows
      rw [hdaily]
      exact .inr (Outdates.map (upsertDaily_outdates _ _ hdailyLater))
    · intro kind
      exact .inl (by simp only [periodRows, hperiods])

end Publications

/-! ### The signature -/

section Signatures

variable {db db' : Db}

theorem signature_injective {table table' : ReportTable} (h : table.signature = table'.signature) :
    table.rows.length = table'.rows.length ∧ table.latest = table'.latest := by
  simp only [ReportTable.signature, Json.arr.injEq, List.cons.injEq, Json.num.injEq, and_true] at h
  refine ⟨h.2.1, ?_⟩
  have hlatest := h.2.2
  cases hfirst : table.latest <;> cases hsecond : table'.latest <;>
    simp_all [Json.ofNullable]

/-- A table that follows another one and has its signature is the same. -/
theorem Follows.eq_of_signature {name kind : Text} {rows rows' : List SourceRow}
    (h : Follows rows rows')
    (hsignature : ReportTable.signature ⟨name, kind, rows'⟩ = ReportTable.signature ⟨name, kind, rows⟩) :
    rows' = rows := by
  rcases h with heq | houtdated
  · exact heq
  · obtain ⟨hlength, hlatest⟩ := signature_injective hsignature
    exact absurd (Prod.ext hlength hlatest) houtdated.signature_ne

/-- Tables that follow others and have their signatures have their content. -/
theorem FollowsAll.eq_of_signatures (h : FollowsAll db db')
    (hsignatures : (reportTables db').map ReportTable.signature =
      (reportTables db).map ReportTable.signature) : reportTables db' = reportTables db := by
  simp only [reportTables, List.map_cons, List.map_nil, List.cons.injEq, and_true] at hsignatures
  obtain ⟨hdaily, hweekly, hmonthly⟩ := hsignatures
  have hdailyRows : dailyRows db' = dailyRows db := h.daily.eq_of_signature hdaily
  have hweeklyRows : periodRows db' weekly = periodRows db weekly :=
    (h.periods weekly).eq_of_signature hweekly
  have hmonthlyRows : periodRows db' monthly = periodRows db monthly :=
    (h.periods monthly).eq_of_signature hmonthly
  simp only [reportTables, hdailyRows, hweeklyRows, hmonthlyRows]

end Signatures

/-! ### The index after a search -/

section Runs

variable [FragmentRules]

/-- The index was never built, or it was built from a database whose tables the ones of now follow. -/
def IndexInv (s : SearchSystem) : Prop :=
  s.index = .empty ∨ ∃ db, s.index = rebuild (sourceState db) ∧ FollowsAll db s.db

omit [FragmentRules] in
/-- The state depends on the report tables only. -/
theorem sourceState_congr {db db' : Db} (h : reportTables db' = reportTables db) :
    sourceState db' = sourceState db := by
  simp only [sourceState, h]

/-- The texts of the tables are found in the index that was built from them. -/
theorem metaValue_rebuild (db : Db) : (rebuild (sourceState db)).metaValue (lit "source_tables") =
    some (Json.arr ((reportTables db).map ReportTable.signature)).print := by
  have hversion : lit "schema_version" ≠ lit "source_tables" := by decide +kernel
  have hcount : lit "source_count" ≠ lit "source_tables" := by decide +kernel
  have hlatest : lit "source_max_updated_at" ≠ lit "source_tables" := by decide +kernel
  simp [rebuild, sourceState, SearchIndex.metaValue, hversion, hcount, hlatest]

omit [FragmentRules] in
theorem metaValue_empty (key : Text) : SearchIndex.empty.metaValue key = none := rfl

/-- An index that is not outdated is the one that a rebuild would make. -/
theorem IndexInv.eq_rebuild {s : SearchSystem} (h : IndexInv s)
    (hcurrent : outdated (sourceState s.db) s.index = false) :
    s.index = rebuild (sourceState s.db) := by
  have htables : s.index.metaValue (lit "source_tables") =
      some (Json.arr ((reportTables s.db).map ReportTable.signature)).print := by
    have hmem : (lit "source_tables",
        (Json.arr ((reportTables s.db).map ReportTable.signature)).print) ∈
        (sourceState s.db).metadata := by
      simp [sourceState]
    simpa using List.any_eq_false.1 hcurrent _ hmem
  rcases h with hempty | ⟨db, hindex, hfollows⟩
  · rw [hempty, metaValue_empty] at htables
    cases htables
  · rw [hindex, metaValue_rebuild, Option.some.injEq] at htables
    have hsignatures := Json.arr.inj (Json.print_injective htables)
    rw [hindex, sourceState_congr (hfollows.eq_of_signatures hsignatures.symm)]

/-- After a search the index is the one that a rebuild would make. -/
theorem executeSearch_index {s : SearchSystem} (h : IndexInv s) {reindex : Bool} {query : Text}
    {found : List IndexRow → Except ReportError Unit} {index : SearchIndex}
    (hsearch : executeSearch s.db s.index reindex query found = .ok index) :
    index = rebuild (sourceState s.db) := by
  unfold executeSearch at hsearch
  obtain ⟨_, -, hsearch⟩ := bind_eq_ok.1 hsearch
  have hindex : index = if (reindex || outdated (sourceState s.db) s.index) = true then
      rebuild (sourceState s.db) else s.index := by
    cases reindex with
    | true =>
      cases hsearch
      rfl
    | false =>
      obtain ⟨_, -, hsearch⟩ := bind_eq_ok.1 hsearch
      cases hsearch
      rfl
  rw [hindex]
  split_ifs with hrebuilt
  · rfl
  · rw [Bool.or_eq_true, not_or, Bool.not_eq_true, Bool.not_eq_true] at hrebuilt
    exact h.eq_rebuild hrebuilt.2

/-- The readings of a run. -/
def readingsOf (events : List SearchEvent) : List (ℤ × ℤ) := events.filterMap SearchEvent.readings

variable [Chrono] [DatabaseClock]

omit [FragmentRules] in
/-- The readings so far are texts before the timestamp of the next one. -/
theorem readings_before {done rest : List (ℤ × ℤ)} {r : ℤ × ℤ}
    (hordered : ClockOrdered (done ++ [r] ++ rest)) (hforward : ClockForward (done ++ [r] ++ rest)) :
    ∀ earlier ∈ done, Chrono.timestamp earlier.1 < Chrono.timestamp r.1 ∧
      DatabaseClock.datetime earlier.2 < Chrono.timestamp r.1 := by
  intro earlier hearlier
  have hmem : earlier ∈ done ++ [r] ++ rest := by simp [hearlier]
  have hr : r ∈ done ++ [r] ++ rest := by simp
  have hlt : earlier.2 < r.1 := by
    have hpair := (List.pairwise_append.1 hforward.2).1
    exact (List.pairwise_append.1 hpair).2.2 earlier hearlier r (by simp)
  obtain ⟨htimestamp, hdatetime⟩ := hordered earlier hmem r hr
  exact ⟨htimestamp ((hforward.1 earlier hmem).trans_lt hlt), hdatetime hlt⟩

variable [ReportRules]

theorem searchInv_runSearch (runs : List RunRecord) (events : List SearchEvent)
    (hordered : ClockOrdered (readingsOf events)) (hforward : ClockForward (readingsOf events)) :
    IndexInv (runSearch runs events) := by
  have hinv : TablesInv (readingsOf events) (runSearch runs events).db ∧
      IndexInv (runSearch runs events) := by
    have hinit : TablesInv (readingsOf []) { Db.empty with runs } :=
      ⟨by simp [Db.empty], by simp [Db.empty], by simp [Db.empty]⟩
    have hstart : IndexInv { db := { Db.empty with runs }, index := .empty } := .inl rfl
    refine applyAll_invariant_history (I := fun done s => TablesInv (readingsOf done) s.db ∧ IndexInv s)
      ⟨hinit, hstart⟩ ?_
    rintro done e s ⟨rest, hevents⟩ ⟨htables, hindex⟩
    have hreadings : readingsOf (done ++ [e]) = readingsOf done ++ e.readings.toList := by
      simp only [readingsOf, List.filterMap_append]
      cases hr : e.readings <;> simp [hr]
    have hkept : ∀ r ∈ readingsOf done, r ∈ readingsOf (done ++ [e]) := by
      intro r hr
      rw [hreadings]
      exact List.mem_append_left _ hr
    have hmore : TablesInv (readingsOf (done ++ [e])) s.db :=
      { periods_nodup := htables.periods_nodup
        daily := fun row hrow => by
          obtain ⟨r, hr, hstamp⟩ := htables.daily row hrow
          exact ⟨r, hkept r hr, hstamp⟩
        periods := fun row hrow => by
          obtain ⟨r, hr, hstamp⟩ := htables.periods row hrow
          exact ⟨r, hkept r hr, hstamp⟩ }
    cases hstep : searchStep s e with
    | error x =>
      rw [applyEvent_of_error hstep]
      exact ⟨hmore, hindex⟩
    | ok s' =>
      rw [applyEvent_of_ok hstep]
      cases e with
      | runs runs =>
        cases hstep
        refine ⟨⟨hmore.periods_nodup, hmore.daily, hmore.periods⟩, ?_⟩
        rcases hindex with hempty | ⟨db, hbuilt, hfollows⟩
        · exact .inl hempty
        · exact .inr ⟨db, hbuilt, hfollows.trans (.of_eq rfl rfl)⟩
      | search reindex query found =>
        obtain ⟨index, hsearch, hs'⟩ := bind_eq_ok.1 hstep
        cases hs'
        refine ⟨⟨hmore.periods_nodup, hmore.daily, hmore.periods⟩, .inr ⟨s.db, ?_, .of_eq rfl rfl⟩⟩
        exact executeSearch_index hindex hsearch
      | publish id verified now databaseNow =>
        obtain ⟨db, hpublish, hs'⟩ := bind_eq_ok.1 hstep
        cases hs'
        have hsplit : readingsOf events =
            readingsOf done ++ [(now, databaseNow)] ++ readingsOf rest := by
          rw [← hevents, readingsOf, List.filterMap_append]
          exact congrArg (· ++ readingsOf rest) hreadings
        have hbefore := readings_before (hsplit ▸ hordered) (hsplit ▸ hforward)
        obtain ⟨htables', hfollows⟩ := publish_follows htables hbefore hpublish
        refine ⟨hreadings ▸ htables', ?_⟩
        rcases hindex with hempty | ⟨built, hbuilt, hbefore⟩
        · exact .inl hempty
        · exact .inr ⟨built, hbuilt, hbefore.trans hfollows⟩
  exact hinv.2

/-- **The search index is never stale**: after any publications of daily, weekly and monthly reports
and searches, at times that go forward, a search leaves the index that a rebuild of the report tables
from nothing makes, whether it rebuilds the index or not. -/
theorem search_index_fresh (runs : List RunRecord) (events : List SearchEvent)
    (hordered : ClockOrdered (readingsOf events)) (hforward : ClockForward (readingsOf events))
    (reindex : Bool) (query : Text) (found : List IndexRow → Except ReportError Unit)
    (index : SearchIndex)
    (hsearch : executeSearch (runSearch runs events).db (runSearch runs events).index reindex query
      found = .ok index) :
    index = rebuild (sourceState (runSearch runs events).db) :=
  executeSearch_index (searchInv_runSearch runs events hordered hforward) hsearch

end Runs

/-! ### A report that is replaced -/

section Replaced

local instance searchChrono : Chrono := utcClock
local instance searchSha256 : Sha256 := markdownSha256
local instance searchRules : ReportRules := noRules

/-- `datetime('now')`: a blank between the date and the time, and whole seconds. -/
local instance secondsClock : DatabaseClock where
  datetime micros := dateTime ' ' micros

/-- The fragment of a report is its text. -/
local instance wholeText : FragmentRules where
  fragments report _ := [⟨[], report.text, []⟩]

/-- The first run of the date is staged. -/
def firstStaged : List RunRecord :=
  (runEvents (preparedRun runA 36000 ++ [.stageReport runA dayStaged (dayInstant 36060)])).db.runs

/-- The second one is staged on it. -/
def secondStaged : List RunRecord :=
  (runEvents (preparedRun runA 36000 ++
    [.stageReport runA dayStaged (dayInstant 36060),
      .markPublished runA markdownDigest (dayInstant 36120) (lit "2026-10-15 10:02:00")] ++
    preparedRun runB 36120 ++ [.stageReport runB dayStaged (dayInstant 36120)])).db.runs

/-- A report is published, searched, and replaced in the same second. -/
def replacedReport : List SearchEvent :=
  [.publish runA markdownDigest (dayInstant 36120) (dayInstant 36120 + 1),
    .search false (lit "a") (fun _ => .ok ()), .runs secondStaged,
    .publish runB markdownDigest (dayInstant 36120 + 2) (dayInstant 36120 + 3)]

set_option maxRecDepth 10000 in
theorem search_index_fresh_replaced :
    (runSearch firstStaged replacedReport).db.currentRunId octoberDay = some runB ∧
      outdated (sourceState (runSearch firstStaged replacedReport).db)
        (runSearch firstStaged replacedReport).index = true ∧
      ∃ index, executeSearch (runSearch firstStaged replacedReport).db
          (runSearch firstStaged replacedReport).index false (lit "a") (fun _ => .ok ()) = .ok index ∧
        index = rebuild (sourceState (runSearch firstStaged replacedReport).db) := by
  have hordered : ClockOrdered (readingsOf replacedReport) := by
    unfold ClockOrdered
    decide +kernel
  have hforward : ClockForward (readingsOf replacedReport) := by
    unfold ClockForward
    decide +kernel
  have hquery : (lit "a").all isWhitespace = false := by decide +kernel
  have hsearch : ∃ index, executeSearch (runSearch firstStaged replacedReport).db
      (runSearch firstStaged replacedReport).index false (lit "a") (fun _ => .ok ()) = .ok index := by
    simp [executeSearch, hquery, ensure, bind, Except.bind]
  obtain ⟨index, hindex⟩ := hsearch
  refine ⟨by decide +kernel, by decide +kernel, index, hindex, ?_⟩
  exact search_index_fresh firstStaged replacedReport hordered hforward false (lit "a") _ index hindex

end Replaced

end DailyReport.Reports
