import DailyReport.Reports.Pending

/-!
# Accounts of personal runs

Compaction deletes the calls and the runs that the counters were made from.  A ledger beside the
database records every call that was reserved for a personal run, and every run that was compacted,
once (`Ledger.enter`).  The counters and the summaries of the store are the totals of the ledger:

* `compactRun_accounts` : a run that is compacted is entered, unless it was entered before as the
  published run of its date;
* `personal_accounts` : the totals agree in every state of every run.
-/

namespace DailyReport.Reports

open Lib

/-! ### The ledger -/

/-- A compacted run: what the summary of its date counts of it. -/
structure Tally where
  runId : Text
  scopeId : Text
  targetDate : Text
  failed : Bool
  elapsedMs : ℕ
  deriving DecidableEq

structure Ledger where
  /-- The scopes and dates that calls were reserved for. -/
  reserved : List (Text × Text)
  /-- The compacted runs. -/
  tallied : List Tally
  /-- The compacted runs whose ids were not given to other runs. -/
  entered : List Text
  deriving DecidableEq

def Ledger.empty : Ledger := ⟨[], [], []⟩

/-- Enter a compacted run, once. -/
def Ledger.enter (ledger : Ledger) (tally : Tally) : Ledger :=
  if tally.runId ∈ ledger.entered then ledger
  else { ledger with
    tallied := ledger.tallied ++ [tally]
    entered := ledger.entered ++ [tally.runId] }

theorem Ledger.enter_of_mem {ledger : Ledger} {tally : Tally} (h : tally.runId ∈ ledger.entered) :
    ledger.enter tally = ledger := if_pos h

theorem Ledger.enter_of_not_mem {ledger : Ledger} {tally : Tally} (h : tally.runId ∉ ledger.entered) :
    ledger.enter tally = { ledger with
      tallied := ledger.tallied ++ [tally], entered := ledger.entered ++ [tally.runId] } := if_neg h

theorem Ledger.enter_reserved (ledger : Ledger) (tally : Tally) :
    (ledger.enter tally).reserved = ledger.reserved := by
  unfold Ledger.enter
  split_ifs <;> rfl

def Ledger.runsOf (ledger : Ledger) (scope date : Text) : List Tally :=
  ledger.tallied.filter fun tally => decide (tally.scopeId = scope ∧ tally.targetDate = date)

/-- The runs, the failures and the milliseconds, which are counted up to the largest number. -/
def Ledger.totals (ledger : Ledger) (scope date : Text) : ℕ × ℕ × ℕ :=
  let runs := ledger.runsOf scope date
  (runs.length, runs.countP Tally.failed, min (runs.map Tally.elapsedMs).sum u64Max)

section Ledgers

variable [Chrono]

def RunRecord.tally (run : RunRecord) : Tally where
  runId := run.runId
  scopeId := run.scopeId
  targetDate := run.targetDate
  failed := run.errorCode.isSome
  elapsedMs := (elapsedMs run).getD 0

/-- Enter a run that a compaction handles, if it does not spare it. -/
def Ledger.see (now : ℤ) (present : Text → Bool) (ledger : Ledger) (seen : ℕ × RunRecord) : Ledger :=
  let run := seen.2.aged now present
  if sparesRun now seen.1 run then ledger else ledger.enter run.tally

/-- What an operation that was accepted adds to the ledger. -/
def Ledger.record (ledger : Ledger) (db : Db) : Event → Ledger
  | .create context .. | .createPersonal context .. =>
    { ledger with entered := ledger.entered.filter (· ≠ context.runId) }
  | .reserveCall input =>
    if input.runId ∈ db.personalRuns then
      { ledger with
        reserved := ledger.reserved ++
          ((db.findRun input.runId).map fun run => (run.scopeId, run.targetDate)).toList }
    else ledger
  | .compact now present ticks =>
    (compactionSeen db now present ticks).foldl (Ledger.see now present) ledger
  | _ => ledger

/-- The store with its ledger. -/
structure Audited where
  system : System
  ledger : Ledger

variable [ReportRules] [Sha256]

def auditedStep (a : Audited) (e : Event) : Except ReportError Audited := do
  let system ← step a.system e
  .ok { system, ledger := a.ledger.record a.system.db e }

/-- The store and its ledger after a run. -/
def runAudited (events : List Event) : Audited :=
  applyAll auditedStep { system := .init, ledger := .empty } events

end Ledgers

/-! ### The counters of the store -/

/-- `used` of a scope and date. -/
def Db.used (db : Db) (scope date : Text) : ℕ :=
  ((db.personalCalls.find? fun row => decide (row.scopeId = scope ∧ row.targetDate = date)).map
    PersonalCalls.used).getD 0

def summaryFor (scope date : Text) (summary : PersonalSummary) : Bool :=
  decide (summary.scopeId = scope ∧ summary.targetDate = date)

/-- The totals that a summary keeps. -/
def PersonalSummary.totals (summary : PersonalSummary) : ℕ × ℕ × ℕ :=
  (summary.runs, summary.failures, summary.elapsedMsTotal)

/-- The totals of a scope and date, which are zero where there is no summary. -/
def Db.totals (db : Db) (scope date : Text) : ℕ × ℕ × ℕ :=
  ((db.summaries.find? (summaryFor scope date)).map PersonalSummary.totals).getD (0, 0, 0)

/-! ### Invariants -/

def Db.runIds (db : Db) : List Text := db.runs.map RunRecord.runId

/-- The summaries are the totals of the ledger, and the runs that are marked as compacted are the ones
in the ledger whose rows are still there. -/
structure Tallied (created : List Text) (ledger : Ledger) (db : Db) : Prop where
  ids_nodup : db.runIds.Nodup
  marked : ∀ id ∈ db.compacted, id ∈ db.runIds
  entered : ∀ id ∈ db.runIds, id ∈ ledger.entered ↔ id ∈ db.compacted
  /-- Every run that was created has a tally, or a row that is not compacted. -/
  once : ∀ id, (ledger.tallied.map Tally.runId).count id +
    (if id ∈ db.runIds ∧ id ∉ db.compacted then 1 else 0) = created.count id
  totals : ∀ scope date, db.totals scope date = ledger.totals scope date

/-- The counters of the calls are the numbers of reservations. -/
structure Reserved (ledger : Ledger) (db : Db) : Prop where
  bounded : ledger.reserved.length < db.nextCall
  ids : db.nextCall ≤ maxRowId + 1
  used : ∀ scope date, db.used scope date = ledger.reserved.count (scope, date)

structure Accounts (created : List Text) (ledger : Ledger) (db : Db) : Prop where
  tallied : Tallied created ledger db
  reserved : Reserved ledger db

/-- The operation leaves the counters and the summaries alone, and deletes no run. -/
structure SameBooks (db db' : Db) : Prop where
  ids : db'.runIds = db.runIds
  compacted : db'.compacted = db.compacted
  summaries : db'.summaries = db.summaries
  personalCalls : db'.personalCalls = db.personalCalls
  nextCall : db'.nextCall = db.nextCall

section Books

variable {created : List Text} {db db' : Db} {ledger : Ledger}

theorem Tallied.of_books (h : Tallied created ledger db) {ledger' : Ledger}
    (htallied : ledger'.tallied = ledger.tallied) (hentered : ledger'.entered = ledger.entered)
    (hids : db'.runIds = db.runIds) (hcompacted : db'.compacted = db.compacted)
    (hsummaries : db'.summaries = db.summaries) : Tallied created ledger' db' where
  ids_nodup := by
    rw [hids]
    exact h.ids_nodup
  marked := by
    rw [hcompacted, hids]
    exact h.marked
  entered := by
    rw [hentered, hcompacted, hids]
    exact h.entered
  once := by
    rw [htallied, hcompacted, hids]
    exact h.once
  totals scope date := by
    unfold Db.totals Ledger.totals Ledger.runsOf
    rw [hsummaries, htallied]
    exact h.totals scope date

theorem Reserved.of_calls (h : Reserved ledger db) {ledger' : Ledger}
    (hreserved : ledger'.reserved = ledger.reserved) (hcalls : db'.personalCalls = db.personalCalls)
    (hnext : db'.nextCall = db.nextCall) : Reserved ledger' db' where
  bounded := by
    rw [hreserved, hnext]
    exact h.bounded
  ids := by
    rw [hnext]
    exact h.ids
  used scope date := by
    unfold Db.used
    rw [hreserved, hcalls]
    exact h.used scope date

theorem Accounts.of_books (h : Accounts created ledger db) (hbooks : SameBooks db db') :
    Accounts created ledger db' where
  tallied := h.tallied.of_books rfl rfl hbooks.ids hbooks.compacted hbooks.summaries
  reserved := h.reserved.of_calls rfl hbooks.personalCalls hbooks.nextCall

/-- The form for an operation that creates no run. -/
theorem Accounts.of_same (h : Accounts created ledger db) (hbooks : SameBooks db db') :
    Accounts (created ++ (none : Option Text).toList) ledger db' := by
  rw [Option.toList_none, List.append_nil]
  exact h.of_books hbooks

theorem SameBooks.updateOne {p : RunRecord → Bool} {f : RunRecord → RunRecord} {code : String}
    (h : updateOne db p f code = .ok db') (hid : ∀ run, (f run).runId = run.runId) :
    SameBooks db db' := by
  obtain ⟨-, rfl⟩ := updateOne_eq_ok.1 h
  exact ⟨map_updateWhere RunRecord.runId hid, rfl, rfl, rfl, rfl⟩

theorem SameBooks.trans {db'' : Db} (h : SameBooks db db') (h' : SameBooks db' db'') :
    SameBooks db db'' :=
  ⟨h'.ids.trans h.ids, h'.compacted.trans h.compacted, h'.summaries.trans h.summaries,
    h'.personalCalls.trans h.personalCalls, h'.nextCall.trans h.nextCall⟩

theorem SameBooks.insertSources {id : Text} {sources : List SourceDocument} {missing : ReportError}
    (h : insertSources db id sources missing = .ok db') : SameBooks db db' := by
  obtain ⟨rows, rfl⟩ := insertSources_eq_ok h
  exact ⟨rfl, rfl, rfl, rfl, rfl⟩

end Books

/-! ### Summaries -/

section Summaries

variable [Chrono] {db : Db} {ledger : Ledger} {run : RunRecord}

theorem count_totals (run : RunRecord) (summary : PersonalSummary) :
    (summary.count run).totals = (summary.runs + 1,
      summary.failures + (if run.errorCode.isSome then 1 else 0),
      saturatingAdd summary.elapsedMsTotal ((elapsedMs run).getD 0)) := by
  unfold PersonalSummary.count
  cases run.errorCode with
  | none => rfl
  | some code =>
    simp only [Option.isSome_some, if_true]
    split_ifs <;> rfl

theorem keepLast_totals (run : RunRecord) (summary : PersonalSummary) :
    (summary.keepLast run).totals = summary.totals := by
  unfold PersonalSummary.keepLast
  split_ifs <;> rfl

/-- What the summary of a run counts after the run is in it. -/
theorem summarize_totals (db : Db) (run : RunRecord) :
    (summarize db run).totals =
      if run.runId ∈ db.compacted then db.totals run.scopeId run.targetDate
      else ((db.totals run.scopeId run.targetDate).1 + 1,
        (db.totals run.scopeId run.targetDate).2.1 + (if run.errorCode.isSome then 1 else 0),
        saturatingAdd (db.totals run.scopeId run.targetDate).2.2 ((elapsedMs run).getD 0)) := by
  have hprior : db.totals run.scopeId run.targetDate = (priorSummary db run).totals := by
    show ((db.summaries.find? (summaryOf run)).map PersonalSummary.totals).getD (0, 0, 0) = _
    unfold priorSummary
    cases db.summaries.find? (summaryOf run) <;> rfl
  have hcounted : (summarize db run).totals = (if run.runId ∈ db.compacted then priorSummary db run
      else (priorSummary db run).count run).totals := by
    unfold summarize
    dsimp only
    split_ifs <;> exact keepLast_totals run _
  rw [hcounted, hprior, apply_ite PersonalSummary.totals, count_totals]
  rfl

theorem count_key (run : RunRecord) (summary : PersonalSummary) :
    (summary.count run).scopeId = summary.scopeId ∧
      (summary.count run).targetDate = summary.targetDate := by
  unfold PersonalSummary.count
  cases run.errorCode with
  | none => exact ⟨rfl, rfl⟩
  | some code =>
    dsimp only
    split_ifs <;> exact ⟨rfl, rfl⟩

theorem keepLast_key (run : RunRecord) (summary : PersonalSummary) :
    (summary.keepLast run).scopeId = summary.scopeId ∧
      (summary.keepLast run).targetDate = summary.targetDate := by
  unfold PersonalSummary.keepLast
  split_ifs <;> exact ⟨rfl, rfl⟩

/-- The summary is of the scope and date of the run. -/
theorem summarize_key (db : Db) (run : RunRecord) :
    (summarize db run).scopeId = run.scopeId ∧ (summarize db run).targetDate = run.targetDate := by
  have hprior : (priorSummary db run).scopeId = run.scopeId ∧
      (priorSummary db run).targetDate = run.targetDate := by
    unfold priorSummary
    cases hfind : db.summaries.find? (summaryOf run) with
    | none => exact ⟨rfl, rfl⟩
    | some summary =>
      have hkey := List.find?_some hfind
      exact of_decide_eq_true hkey
  unfold summarize
  dsimp only
  split_ifs <;> simp only [keepLast_key, count_key] <;> exact hprior

/-- The totals of the scope and date of a run that is compacted, and of the others. -/
theorem compactDetails_totals (db : Db) (run : RunRecord) (scope date : Text) :
    (compactDetails db run).totals scope date =
      if run.scopeId = scope ∧ run.targetDate = date then (summarize db run).totals
      else db.totals scope date := by
  have hsummaries : (compactDetails db run).summaries =
      deleteWhere (summaryOf run) db.summaries ++ [summarize db run] := by
    unfold compactDetails
    split_ifs <;> rfl
  obtain ⟨hscope, hdate⟩ := summarize_key db run
  unfold Db.totals
  rw [hsummaries, List.find?_append]
  split_ifs with hkey
  · obtain ⟨rfl, rfl⟩ := hkey
    have hnone : (deleteWhere (summaryOf run) db.summaries).find?
        (summaryFor run.scopeId run.targetDate) = none := by
      refine List.find?_eq_none.2 fun summary hsummary hpass => ?_
      rw [mem_deleteWhere] at hsummary
      exact absurd hpass (by simpa [summaryOf, summaryFor] using hsummary.2)
    rw [hnone]
    simp [summaryFor, hscope, hdate]
  · rw [find?_deleteWhere_of_not]
    · have hlast : [summarize db run].find? (summaryFor scope date) = none := by
        simp only [List.find?_singleton, summaryFor, hscope, hdate, decide_eq_true_eq, if_neg hkey]
      rw [hlast, Option.or_none]
    · intro summary hpass
      have hpass := of_decide_eq_true hpass
      refine decide_eq_false fun hsame => hkey ?_
      rw [← hsame.1, ← hsame.2]
      exact hpass

omit [Chrono] in
/-- The totals of a ledger after a run is entered that was not there. -/
theorem enter_totals {tally : Tally} (hnew : tally.runId ∉ ledger.entered) (scope date : Text) :
    (ledger.enter tally).totals scope date =
      if tally.scopeId = scope ∧ tally.targetDate = date then
        ((ledger.totals scope date).1 + 1,
          (ledger.totals scope date).2.1 + (if tally.failed then 1 else 0),
          saturatingAdd (ledger.totals scope date).2.2 tally.elapsedMs)
      else ledger.totals scope date := by
  unfold Ledger.totals Ledger.runsOf
  rw [Ledger.enter_of_not_mem hnew, List.filter_append]
  split_ifs with hkey hfailed
  · simp only [List.filter_singleton, hkey, and_self, decide_true, cond_true, List.length_append,
      List.countP_append, List.map_append, List.sum_append, List.length_singleton, hfailed,
      List.countP_singleton, List.map_singleton, List.sum_singleton, if_true, saturatingAdd]
    refine Prod.ext rfl (Prod.ext rfl ?_)
    dsimp only
    omega
  · simp only [List.filter_singleton, hkey, and_self, decide_true, cond_true, List.length_append,
      List.countP_append, List.map_append, List.sum_append, List.length_singleton, hfailed,
      List.countP_singleton, List.map_singleton, List.sum_singleton, saturatingAdd]
    refine Prod.ext rfl (Prod.ext rfl ?_)
    dsimp only
    omega
  · simp [hkey]

end Summaries

/-! ### Compaction -/

section Compaction

variable [Chrono] {created : List Text} {db : Db} {ledger : Ledger} {now : ℤ} {present : Text → Bool}

theorem expireInput_books (now : ℤ) (present : Text → Bool) (db : Db) (run : RunRecord) :
    SameBooks db (expireInput now present db run) where
  ids := expireInput_ids now present db run
  compacted := by
    unfold expireInput
    split_ifs <;> rfl
  summaries := by
    unfold expireInput
    split_ifs <;> rfl
  personalCalls := by
    unfold expireInput
    split_ifs <;> rfl
  nextCall := by
    unfold expireInput
    split_ifs <;> rfl

theorem compactDetails_calls (db : Db) (run : RunRecord) :
    (compactDetails db run).personalCalls = db.personalCalls ∧
      (compactDetails db run).nextCall = db.nextCall := by
  unfold compactDetails
  split_ifs <;> exact ⟨rfl, rfl⟩

/-- The run is deleted or marked, and no other run is. -/
theorem compactDetails_marks (hmarked : ∀ id ∈ db.compacted, id ∈ db.runIds) {run : RunRecord}
    (hrun : run.runId ∈ db.runIds) :
    (compactDetails db run).runIds.Sublist db.runIds ∧
      (∀ id ∈ db.runIds, id ≠ run.runId → id ∈ (compactDetails db run).runIds) ∧
      ∀ id, id ∈ (compactDetails db run).compacted ↔
        id ∈ (compactDetails db run).runIds ∧ (id ∈ db.compacted ∨ id = run.runId) := by
  unfold compactDetails
  cases hcurrent : db.isCurrent run.runId with
  | true =>
    have hids : (updateWhere (ofRun run.runId) RunRecord.dropInput db.runs).map RunRecord.runId =
        db.runIds := map_updateWhere RunRecord.runId fun _ => rfl
    simp only [if_true, Db.runIds, Db.updateRun] at hids ⊢
    rw [hids]
    refine ⟨.refl _, fun id hid _ => hid, fun id => ?_⟩
    split_ifs with hmark
    · refine ⟨fun hid => ⟨hmarked id hid, .inl hid⟩, ?_⟩
      rintro ⟨-, hid | rfl⟩
      · exact hid
      · exact hmark
    · rw [List.mem_append, List.mem_singleton]
      exact ⟨fun hid => ⟨hid.elim (hmarked id) (· ▸ hrun), hid⟩, fun hid => hid.2⟩
  | false =>
    simp only [Bool.false_eq_true, if_false, Db.runIds, List.mem_filter, decide_eq_true_eq]
    refine ⟨(deleteWhere_sublist _ _).map _, ?_, ?_⟩
    · intro id hid hne
      obtain ⟨row, hrow, rfl⟩ := List.mem_map.1 hid
      exact List.mem_map_of_mem (mem_deleteWhere.2 ⟨hrow, decide_eq_false hne⟩)
    · intro id
      have hdeleted : id ∈ (deleteWhere (ofRun run.runId) db.runs).map RunRecord.runId →
          id ≠ run.runId := by
        intro hid
        obtain ⟨row, hrow, rfl⟩ := List.mem_map.1 hid
        exact of_decide_eq_false (mem_deleteWhere.1 hrow).2
      constructor
      · rintro ⟨hid, hne⟩
        obtain ⟨row, hrow, rfl⟩ := List.mem_map.1 (hmarked id hid)
        exact ⟨List.mem_map_of_mem (mem_deleteWhere.2 ⟨hrow, decide_eq_false hne⟩), .inl hid⟩
      · rintro ⟨hid, hmark⟩
        exact ⟨hmark.resolve_right (hdeleted hid), hdeleted hid⟩

/-- Every run that was created is entered or has a row that is not marked. -/
theorem compactDetails_once (h : Tallied created ledger db) {run : RunRecord}
    (hrun : run.runId ∈ db.runIds) (id : Text) :
    ((ledger.enter run.tally).tallied.map Tally.runId).count id +
      (if id ∈ (compactDetails db run).runIds ∧ id ∉ (compactDetails db run).compacted then 1 else 0) =
        created.count id := by
  obtain ⟨hsublist, hothers, hcompacted⟩ := compactDetails_marks h.marked hrun
  rw [← h.once id]
  -- the rows that are left and not marked were so before, and are not of the run
  have hleft : id ∈ (compactDetails db run).runIds ∧ id ∉ (compactDetails db run).compacted ↔
      (id ∈ db.runIds ∧ id ∉ db.compacted) ∧ id ≠ run.runId := by
    rw [hcompacted, not_and, not_or]
    constructor
    · rintro ⟨hid, hnot⟩
      exact ⟨⟨hsublist.subset hid, (hnot hid).1⟩, (hnot hid).2⟩
    · rintro ⟨⟨hid, hnot⟩, hne⟩
      exact ⟨hothers id hid hne, fun _ => ⟨hnot, hne⟩⟩
  rw [if_congr hleft rfl rfl]
  by_cases hthere : run.runId ∈ ledger.entered
  · have hmarked : run.runId ∈ db.compacted := (h.entered _ hrun).1 hthere
    have hsame : (id ∈ db.runIds ∧ id ∉ db.compacted) ∧ id ≠ run.runId ↔
        id ∈ db.runIds ∧ id ∉ db.compacted :=
      ⟨And.left, fun hrest => ⟨hrest, fun heq => hrest.2 (heq ▸ hmarked)⟩⟩
    rw [Ledger.enter_of_mem hthere, if_congr hsame rfl rfl]
  · have hunmarked : run.runId ∉ db.compacted := fun hmark => hthere ((h.entered _ hrun).2 hmark)
    rw [Ledger.enter_of_not_mem hthere, List.map_append, List.count_append, List.map_singleton,
      List.count_singleton]
    by_cases hid : id = run.runId
    · subst hid
      have hself : (run.tally.runId == run.runId) = true := beq_self_eq_true _
      have hdone : ¬ ((run.runId ∈ db.runIds ∧ run.runId ∉ db.compacted) ∧ run.runId ≠ run.runId) :=
        fun hrest => hrest.2 rfl
      rw [hself, if_pos rfl, if_neg hdone, if_pos ⟨hrun, hunmarked⟩]
    · have hne : (run.tally.runId == id) = false := beq_false_of_ne (Ne.symm hid)
      rw [hne, if_neg Bool.false_ne_true, Nat.add_zero, if_congr (and_iff_left hid) rfl rfl]

/-- A run whose details are compacted is entered, unless it is marked as entered. -/
theorem compactDetails_tallied (h : Tallied created ledger db) {run : RunRecord}
    (hrun : run.runId ∈ db.runIds) :
    Tallied created (ledger.enter run.tally) (compactDetails db run) := by
  obtain ⟨hsublist, -, hcompacted⟩ := compactDetails_marks h.marked hrun
  have hmark : run.runId ∈ ledger.entered ↔ run.runId ∈ db.compacted := h.entered _ hrun
  refine ⟨h.ids_nodup.sublist hsublist, fun id hid => ((hcompacted id).1 hid).1, ?_,
    compactDetails_once h hrun, ?_⟩
  · intro id hid
    have hentered : id ∈ (ledger.enter run.tally).entered ↔ id ∈ ledger.entered ∨ id = run.runId := by
      by_cases hthere : run.runId ∈ ledger.entered
      · rw [Ledger.enter_of_mem hthere]
        exact ⟨.inl, fun hor => hor.elim (fun hmem => hmem) fun heq => heq ▸ hthere⟩
      · have hnew : run.tally.runId ∉ ledger.entered := hthere
        rw [Ledger.enter_of_not_mem hnew, List.mem_append, List.mem_singleton]
        rfl
    rw [hentered, hcompacted, h.entered id (hsublist.subset hid)]
    exact (and_iff_right hid).symm
  · intro scope date
    rw [compactDetails_totals, summarize_totals]
    by_cases hthere : run.runId ∈ ledger.entered
    · rw [if_pos (hmark.1 hthere), Ledger.enter_of_mem hthere]
      split_ifs with hkey
      · obtain ⟨rfl, rfl⟩ := hkey
        exact h.totals _ _
      · exact h.totals _ _
    · have hnew : run.tally.runId ∉ ledger.entered := hthere
      rw [if_neg fun hmem => hthere (hmark.2 hmem), enter_totals hnew, ← h.totals]
      show _ = if run.scopeId = scope ∧ run.targetDate = date then _ else _
      by_cases hkey : run.scopeId = scope ∧ run.targetDate = date
      · rw [if_pos hkey, if_pos hkey, hkey.1, hkey.2]
        rfl
      · rw [if_neg hkey, if_neg hkey]

/-- A run that a compaction handles is entered if its details are compacted. -/
theorem compactRun_accounts (now : ℤ) (present : Text → Bool) (c : Compaction) (h : Accounts created ledger c.db) {run : RunRecord}
    (hrun : run ∈ c.db.runs) :
    Accounts created (ledger.see now present (c.detail, run)) (compactRun now present c run).db := by
  have hexpired := h.of_books (expireInput_books now present c.db run)
  have haged : (run.aged now present).runId ∈ (expireInput now present c.db run).runIds := by
    rw [(aged_columns now present run).1, (expireInput_books now present c.db run).ids]
    exact List.mem_map_of_mem hrun
  rw [compactRun_eq h.tallied.ids_nodup hrun]
  unfold Ledger.see
  dsimp only
  split_ifs with hspared
  · exact hexpired
  · obtain ⟨hcalls, hnext⟩ := compactDetails_calls (expireInput now present c.db run)
      (run.aged now present)
    exact ⟨compactDetails_tallied hexpired.tallied haged, hexpired.reserved.of_calls (Ledger.enter_reserved _ _) hcalls hnext⟩

theorem compactBatch_accounts (now : ℤ) (present : Text → Bool) (ticks : ℕ) (ids : List Text)
    {c : Compaction} (h : Accounts created ledger c.db) :
    Accounts created ((batchSeen now present ticks ids c).foldl (Ledger.see now present) ledger)
      (compactBatch now present ticks ids c).2.db := by
  fun_induction compactBatch now present ticks ids c generalizing ledger with
  | case1 ticks c =>
    rw [batchSeen]
    exact h
  | case2 id ids c => exact h
  | case3 ticks id ids c hnone =>
    simp only [batchSeen, hnone, List.foldl_nil]
    exact h
  | case4 ticks id ids c run hfound ih =>
    simp only [batchSeen, hfound, List.foldl_cons]
    have hrun := compactRun_accounts now present { c with cursor := (run.createdAt, run.runId) } h
      (findRun_eq_some hfound).1
    exact ih hrun

theorem compactLoop_accounts {fuel ticks : ℕ} {c : Compaction} (h : Accounts created ledger c.db) :
    Accounts created ((loopSeen now present fuel ticks c).foldl (Ledger.see now present) ledger)
      (compactLoop now present fuel ticks c) := by
  induction fuel generalizing ticks c ledger with
  | zero => exact h
  | succ fuel ih =>
    cases ticks with
    | zero => exact h
    | succ ticks =>
      unfold compactLoop loopSeen
      cases hnext : nextBatch c with
      | nil => exact h
      | cons id ids =>
        have hbatch := compactBatch_accounts now present ticks (id :: ids) h
        dsimp only
        rw [List.foldl_append]
        rcases hresult : compactBatch now present ticks (id :: ids) c with ⟨_ | left, c'⟩
        · rw [hresult] at hbatch
          exact hbatch
        · rw [hresult] at hbatch
          exact ih hbatch

end Compaction

/-! ### Operations -/

section Operations

variable [Chrono] {created : List Text} {db db' : Db} {ledger : Ledger} {id : Text} {now : ℤ}

theorem createRun_accounts (h : Accounts created ledger db) {context : RunContext}
    {kind generationId : Text} {reason : Option Text} {personal : Bool}
    (hop : createRun db context kind generationId reason now personal = .ok db') :
    Accounts (created ++ [context.runId])
      { ledger with entered := ledger.entered.filter (· ≠ context.runId) } db' := by
  simp only [createRun, bind_eq_ok, ensure_eq_ok, Except.ok.injEq] at hop
  obtain ⟨-, -, -, -, -, hfresh, -, -, rfl⟩ := hop
  have hfresh : context.runId ∉ db.runIds := hfresh
  have hids : (db.runs ++ [RunRecord.new context kind generationId reason now]).map RunRecord.runId =
      db.runIds ++ [context.runId] := by
    rw [List.map_append]
    rfl
  have hunmarked : context.runId ∉ db.compacted := fun hmem => hfresh (h.tallied.marked _ hmem)
  refine ⟨⟨?_, ?_, ?_, ?_, h.tallied.totals⟩, h.reserved.of_calls rfl rfl rfl⟩
  · rw [Db.runIds, hids]
    rw [← List.concat_eq_append]
    exact h.tallied.ids_nodup.concat hfresh
  · intro id hid
    rw [Db.runIds, hids]
    exact List.mem_append_left _ (h.tallied.marked id hid)
  · intro id hid
    rw [Db.runIds, hids, List.mem_append, List.mem_singleton] at hid
    simp only [List.mem_filter, decide_eq_true_eq]
    rcases hid with hid | rfl
    · have hne : id ≠ context.runId := fun heq => hfresh (heq ▸ hid)
      rw [and_iff_left hne]
      exact h.tallied.entered id hid
    · exact ⟨fun hmem => absurd rfl hmem.2, fun hmem => absurd hmem hunmarked⟩
  · intro id
    have honce := h.tallied.once id
    rw [List.count_append, List.count_singleton, Db.runIds, hids]
    simp only [List.mem_append, List.mem_singleton]
    by_cases hid : id = context.runId
    · subst hid
      rw [if_neg fun hboth => hfresh hboth.1] at honce
      rw [if_pos ⟨.inr rfl, hunmarked⟩, beq_self_eq_true, if_pos rfl]
      omega
    · have hne : (context.runId == id) = false := beq_false_of_ne (Ne.symm hid)
      rw [hne, if_neg Bool.false_ne_true, Nat.add_zero]
      simpa only [hid, or_false] using honce

omit [Chrono] in
theorem registerPersonalRun_books (h : registerPersonalRun db id = .ok db') : SameBooks db db' := by
  simp only [registerPersonalRun, bind_eq_ok, Except.ok.injEq] at h
  obtain ⟨-, -, rfl⟩ := h
  exact ⟨rfl, rfl, rfl, rfl, rfl⟩

omit [Chrono] in
theorem saveScanFailure_books {snapshot : SnapshotRef} {sources : List SourceDocument}
    (h : saveScanFailure db id snapshot sources = .ok db') : SameBooks db db' := by
  obtain ⟨updated, hupdate, hinsert⟩ := bind_eq_ok.1 h
  exact (SameBooks.updateOne hupdate fun _ => rfl).trans (.insertSources hinsert)

theorem prepare_books {snapshot : SnapshotRef} {fingerprint : Text} {sources : List SourceDocument}
    (h : prepare db id snapshot fingerprint sources now = .ok db') : SameBooks db db' := by
  obtain ⟨updated, hupdate, hinsert⟩ := bind_eq_ok.1 h
  exact (SameBooks.updateOne hupdate fun _ => rfl).trans (.insertSources hinsert)

theorem resume_books (h : resume db id now = .ok db') : SameBooks db db' := by
  obtain ⟨updated, hupdate, hdb'⟩ := bind_eq_ok.1 h
  cases hdb'
  exact (SameBooks.updateOne hupdate fun _ => rfl).trans ⟨rfl, rfl, rfl, rfl, rfl⟩

theorem fail_books {code : Text} {cancelled : Bool} : SameBooks db (fail db id code cancelled now) :=
  ⟨map_updateWhere RunRecord.runId fun _ => rfl, rfl, rfl, rfl, rfl⟩

theorem recoverInterrupted_books : SameBooks db (recoverInterrupted db now) :=
  ⟨map_updateWhere RunRecord.runId fun _ => rfl, rfl, rfl, rfl, rfl⟩

theorem stageReport_books [ReportRules] [Sha256] {staged : StagedReport}
    (h : stageReport db id staged now = .ok db') : SameBooks db db' := by
  simp only [stageReport, bind_eq_ok, ensure_eq_ok] at h
  obtain ⟨run, -, -, -, _, -, previous, -, hinsert⟩ := h
  refine SameBooks.trans ?_ (.insertSources hinsert)
  exact ⟨map_updateWhere (f := RunRecord.stage staged previous now) RunRecord.runId fun _ => rfl, rfl,
    rfl, rfl, rfl⟩

theorem publishedRuns_ids (run : RunRecord) (now : ℤ) (runs : List RunRecord) :
    (publishedRuns run now runs).map RunRecord.runId = runs.map RunRecord.runId := by
  have hpublished : (updateWhere (ofRun run.runId) (RunRecord.publish now) runs).map RunRecord.runId =
      runs.map RunRecord.runId := map_updateWhere RunRecord.runId fun _ => rfl
  unfold publishedRuns
  dsimp only
  split_ifs
  · refine Eq.trans ?_ hpublished
    exact map_updateWhere (f := RunRecord.supersede now) RunRecord.runId fun _ => rfl
  · exact hpublished

theorem markDailyPublished_books {verified databaseNow : Text}
    (h : markDailyPublished db id verified now databaseNow = .ok db') : SameBooks db db' := by
  obtain ⟨run, -, -, -, -, -, -, -, rfl⟩ := markDailyPublished_eq_ok h
  exact ⟨publishedRuns_ids run now db.runs, rfl, rfl, rfl, rfl⟩

theorem finishPreview_books [ReportRules] [Sha256] {report : ReportDocument} {markdown : Text}
    (h : finishPreview db id report markdown now = .ok db') : SameBooks db db' := by
  obtain ⟨_, -, h⟩ := bind_eq_ok.1 h
  obtain ⟨_, -, h⟩ := bind_eq_ok.1 h
  obtain ⟨_, -, h⟩ := bind_eq_ok.1 h
  exact .updateOne h fun _ => rfl

/-! ### Reserving calls -/

omit [Chrono] in
theorem recordCall_books (db : Db) (run : RunRecord) :
    (recordCall db run).runs = db.runs ∧ (recordCall db run).compacted = db.compacted ∧
      (recordCall db run).summaries = db.summaries := by
  unfold recordCall
  split_ifs <;> exact ⟨rfl, rfl, rfl⟩

/-- The count of a scope and date in the rows of the counters. -/
def usedIn (rows : List PersonalCalls) (scope date : Text) : ℕ :=
  ((rows.find? fun row => decide (row.scopeId = scope ∧ row.targetDate = date)).map
    PersonalCalls.used).getD 0

omit [Chrono] in
/-- Counting a call where there is a counter. -/
theorem usedIn_update {rows : List PersonalCalls} {run : RunRecord} (hcounted : rows.any (counterOf run))
    {f : PersonalCalls → PersonalCalls} (hused : ∀ row, (f row).used = saturatingAdd row.used 1)
    (hkey : ∀ row, (f row).scopeId = row.scopeId ∧ (f row).targetDate = row.targetDate)
    (scope date : Text) :
    usedIn (updateWhere (counterOf run) f rows) scope date =
      if run.scopeId = scope ∧ run.targetDate = date then saturatingAdd (usedIn rows scope date) 1
      else usedIn rows scope date := by
  unfold usedIn
  rw [find?_updateWhere fun row => by rw [(hkey row).1, (hkey row).2]]
  split_ifs with hsame
  · obtain ⟨rfl, rfl⟩ := hsame
    -- the counter that is found is the one that is updated
    obtain ⟨row, hrow⟩ : ∃ row, rows.find? (counterOf run) = some row :=
      Option.isSome_iff_exists.1 (List.find?_isSome.2 (List.any_eq_true.1 hcounted))
    have hpass := List.find?_some hrow
    unfold counterOf at hrow
    rw [hrow]
    simp only [Option.map_some, Option.getD_some, hpass, if_true, hused]
  · cases hrow : rows.find? fun row => decide (row.scopeId = scope ∧ row.targetDate = date) with
    | none => rfl
    | some row =>
      have hrow := List.find?_some hrow
      rw [decide_eq_true_eq] at hrow
      have hnot : counterOf run row = false := by
        refine decide_eq_false fun heq => hsame ?_
        rw [← heq.1, ← heq.2]
        exact hrow
      simp [hnot]

omit [Chrono] in
/-- Counting the first call of a scope and date. -/
theorem usedIn_append {rows : List PersonalCalls} {run : RunRecord}
    (hcounted : ¬ rows.any (counterOf run)) (scope date : Text) :
    usedIn (rows ++
      [{ scopeId := run.scopeId, targetDate := run.targetDate, used := 1, lastRunId := run.runId }])
        scope date =
      if run.scopeId = scope ∧ run.targetDate = date then saturatingAdd (usedIn rows scope date) 1
      else usedIn rows scope date := by
  unfold usedIn
  rw [List.find?_append]
  split_ifs with hsame
  · obtain ⟨rfl, rfl⟩ := hsame
    have hnone : rows.find? (fun row => decide (row.scopeId = run.scopeId ∧
        row.targetDate = run.targetDate)) = none := by
      rw [List.find?_eq_none]
      intro row hrow hpass
      exact hcounted (List.any_eq_true.2 ⟨row, hrow, hpass⟩)
    rw [hnone]
    simp [saturatingAdd, u64Max]
  · simp [hsame]

omit [Chrono] in
/-- The counters after a call of a run. -/
theorem recordCall_used (db : Db) (run : RunRecord) (scope date : Text) :
    (recordCall db run).used scope date =
      if run.runId ∈ db.personalRuns ∧ run.scopeId = scope ∧ run.targetDate = date then
        saturatingAdd (db.used scope date) 1
      else db.used scope date := by
  by_cases hpersonal : run.runId ∈ db.personalRuns
  · simp only [hpersonal, true_and]
    by_cases hcounted : db.personalCalls.any (counterOf run)
    · have hcalls : (recordCall db run).personalCalls = updateWhere (counterOf run)
          (fun row => { row with used := saturatingAdd row.used 1, lastRunId := run.runId })
          db.personalCalls := by
        simp only [recordCall, hpersonal, not_true_eq_false, if_false, hcounted, if_true]
      show usedIn (recordCall db run).personalCalls scope date = _
      rw [hcalls]
      exact usedIn_update (f := fun row => { row with
        used := saturatingAdd row.used 1, lastRunId := run.runId }) hcounted (fun _ => rfl)
        (fun _ => ⟨rfl, rfl⟩) scope date
    · have hcalls : (recordCall db run).personalCalls = db.personalCalls ++ [
          { scopeId := run.scopeId, targetDate := run.targetDate, used := 1, lastRunId := run.runId }] := by
        simp only [recordCall, hpersonal, not_true_eq_false, if_false, hcounted, Bool.false_eq_true]
      show usedIn (recordCall db run).personalCalls scope date = _
      rw [hcalls]
      exact usedIn_append hcounted scope date
  · have hsame : recordCall db run = db := if_pos hpersonal
    rw [hsame, if_neg fun hboth => hpersonal hboth.1]

/-- A call of a personal run is a reservation of its scope and date. -/
theorem reserveCall_accounts (h : Accounts created ledger db) {input : CallReservation}
    (hop : reserveCall db input = .ok db') :
    Accounts created (ledger.record db (.reserveCall input)) db' := by
  obtain ⟨run, hfind, -, -, hnext, -, -, rfl⟩ := reserveCall_eq_ok hop
  obtain ⟨-, hid⟩ := findRun_eq_some hfind
  obtain ⟨hruns, hcompacted, hsummaries⟩ := recordCall_books db run
  have hids : (updateWhere (ofRun input.runId) (fun run => { run with
      phase := .generating, updatedAt := Chrono.timestamp input.now }) (recordCall db run).runs).map
        RunRecord.runId = db.runIds := by
    rw [hruns]
    exact map_updateWhere RunRecord.runId fun _ => rfl
  have hbounded := h.reserved.bounded
  have hused : ∀ scope date, (recordCall db run).used scope date =
      (ledger.record db (.reserveCall input)).reserved.count (scope, date) := by
    intro scope date
    rw [recordCall_used, h.reserved.used]
    unfold Ledger.record
    dsimp only
    rw [hfind, hid]
    by_cases hpersonal : input.runId ∈ db.personalRuns
    · rw [if_pos hpersonal]
      simp only [hpersonal, true_and, Option.map_some, Option.toList_some, List.count_append,
        List.count_singleton]
      by_cases hkey : run.scopeId = scope ∧ run.targetDate = date
      · obtain ⟨rfl, rfl⟩ := hkey
        have hcount := List.count_le_length (a := (run.scopeId, run.targetDate)) (l := ledger.reserved)
        simp only [and_self, if_true, beq_self_eq_true, saturatingAdd]
        -- the ids of the calls run out before the counter does
        have hmax : maxRowId + 1 ≤ u64Max := by decide
        omega
      · have hne : ((run.scopeId, run.targetDate) == (scope, date)) = false :=
          beq_false_of_ne fun heq => hkey (Prod.mk.inj heq)
        rw [if_neg hkey, hne]
        rfl
    · simp only [hpersonal, false_and, if_false]
  have htallied : (ledger.record db (.reserveCall input)).tallied = ledger.tallied ∧
      (ledger.record db (.reserveCall input)).entered = ledger.entered := by
    unfold Ledger.record
    dsimp only
    split_ifs <;> exact ⟨rfl, rfl⟩
  have hlength : (ledger.record db (.reserveCall input)).reserved.length ≤ ledger.reserved.length + 1 := by
    unfold Ledger.record
    dsimp only
    rw [hfind]
    split_ifs <;> simp
  refine ⟨?_, ⟨?_, ?_, hused⟩⟩
  · exact h.tallied.of_books htallied.1 htallied.2 hids hcompacted hsummaries
  · show _ < db.nextCall + 1
    omega
  · show db.nextCall + 1 ≤ maxRowId + 1
    omega

variable [ReportRules] [Sha256]

/-- Every operation keeps the accounts. -/
theorem Accounts.step {s : System} (hchain : ChainInv s) (h : Accounts s.created ledger s.db) {e : Event}
    {s' : System} (hstep : step s e = .ok s') :
    Accounts s'.created (ledger.record s.db e) s'.db := by
  obtain ⟨db', hop, rfl⟩ := step_eq_ok.1 hstep
  cases e with
  | create context kind generationId reason now => exact createRun_accounts h hop
  | createPersonal context kind generationId reason now =>
    obtain ⟨_, -, hcreate⟩ := bind_eq_ok.1 hop
    exact createRun_accounts h hcreate
  | reserveCall input =>
    simp only [Event.createdRun?, Option.toList_none, List.append_nil]
    exact reserveCall_accounts h hop
  | compact now present ticks =>
    cases hop
    simp only [Event.createdRun?, Option.toList_none, List.append_nil]
    exact compactLoop_accounts (c := { db := s.db, detail := detailBytes s.db, cursor := ([], []) }) h
  | registerPersonalRun id => exact h.of_same (registerPersonalRun_books hop)
  | setScanning id now => exact h.of_same (.updateOne hop fun _ => rfl)
  | saveScanFailure id snapshot sources => exact h.of_same (saveScanFailure_books hop)
  | prepare id snapshot fingerprint sources now => exact h.of_same (prepare_books hop)
  | resume id now => exact h.of_same (resume_books hop)
  | fail id code cancelled now =>
    cases hop
    exact h.of_same fail_books
  | recoverInterrupted now =>
    cases hop
    exact h.of_same recoverInterrupted_books
  | stageReport id staged now => exact h.of_same (stageReport_books hop)
  | markPublished id verified now databaseNow =>
    exact h.of_same (markDailyPublished_books (markPublished_eq_ok hchain.store hop))
  | finishPreview id report markdown now => exact h.of_same (finishPreview_books hop)
  | finishObservation id current now => exact h.of_same (.updateOne hop fun _ => rfl)
  | finishScanPreview id quality now => exact h.of_same (.updateOne hop fun _ => rfl)
  | finishModelCheck id result now => exact h.of_same (.updateOne hop fun _ => rfl)

omit [Chrono] [ReportRules] [Sha256] in
theorem accounts_init : Accounts System.init.created Ledger.empty System.init.db where
  tallied := ⟨by simp [System.init, Db.empty, Db.runIds], by simp [System.init, Db.empty],
    by simp [System.init, Db.empty, Db.runIds], by simp [System.init, Db.empty, Db.runIds, Ledger.empty],
    fun _ _ => rfl⟩
  reserved := ⟨by simp [System.init, Db.empty, Ledger.empty],
    by simp [System.init, Db.empty, maxRowId], fun _ _ => rfl⟩

/-- The ledger does not change what the store does. -/
theorem runAudited_system (events : List Event) : (runAudited events).system = runEvents events := by
  refine applyAll_map Audited.system (fun a e => ?_) _ events
  unfold auditedStep
  cases step a.system e <;> rfl

theorem accounts_runAudited (events : List Event) :
    ChainInv (runAudited events).system ∧
      Accounts (runAudited events).system.created (runAudited events).ledger
        (runAudited events).system.db := by
  refine applyAll_invariant (I := fun a : Audited => ChainInv a.system ∧
    Accounts a.system.created a.ledger a.system.db) ?_ events ⟨chainInv_init, accounts_init⟩
  rintro a e a' ⟨hchain, h⟩ hstep
  obtain ⟨system, hsystem, ha'⟩ := bind_eq_ok.1 hstep
  cases ha'
  exact ⟨hchain.step hsystem, h.step hchain hsystem⟩

/-- **The accounts of personal runs survive compaction**: in every state of every run the counter of
a scope and date is the number of calls that were reserved for it; every run that was created is
either there, not compacted, or has one tally; and the summaries are the totals of the tallies. -/
theorem personal_accounts (events : List Event) :
    (∀ scope date, (runEvents events).db.used scope date =
        (runAudited events).ledger.reserved.count (scope, date)) ∧
      (∀ id, ((runAudited events).ledger.tallied.map Tally.runId).count id +
          (if id ∈ (runEvents events).db.runIds ∧ id ∉ (runEvents events).db.compacted then 1 else 0) =
        (runEvents events).created.count id) ∧
      ∀ scope date, (runEvents events).db.totals scope date =
        (runAudited events).ledger.totals scope date := by
  obtain ⟨-, h⟩ := accounts_runAudited events
  rw [runAudited_system] at h
  exact ⟨h.reserved.used, h.tallied.once, h.tallied.totals⟩

end Operations

end DailyReport.Reports
