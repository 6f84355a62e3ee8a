import DailyReport.Lib.Sort
import DailyReport.Reports.Lifecycle

/-!
# Audited model calls

A call is reserved before its request is sent and finished when the reply is there.  Its request,
its plan and its response are files of the snapshot store, which names a file by the digest of its
bytes and never rewrites one.
-/

namespace DailyReport.Reports

open Lib

/-! ### Snapshot files -/

/-- The snapshot store: its files by their relative paths, and the largest size of a file. -/
structure Snapshots where
  files : List (Text × Text)
  maxFileBytes : ℕ

def snapshotPathInvalid : ReportError := reportError "SNAPSHOT_PATH_INVALID" "无效快照路径"

/-- `hex`. -/
def isHex (value : Text) (length : ℕ) : Bool := decide (value.length = length) && value.all isLowerHex

/-- A character of the kind of a snapshot. -/
def isKindChar (c : Char) : Bool := c.isLower || c.isDigit || c == '_' || c == '-'

/-- The parts before and after the first separator. -/
def splitOnce (separator : Char) (t : Text) : Option (Text × Text) :=
  if separator ∈ t then some (t.takeWhile (· ≠ separator), (t.dropWhile (· ≠ separator)).tail)
  else none

/-- The parts before and after the last separator. -/
def rsplitOnce (separator : Char) (t : Text) : Option (Text × Text) :=
  (splitOnce separator t.reverse).map fun (after, before) => (before.reverse, after.reverse)

def stripSuffix (suffix t : Text) : Option Text :=
  if suffix <:+ t then some (t.take (t.length - suffix.length)) else none

/-- The path of a snapshot: a run, then a kind and a digest. -/
def isSnapshotPath (relative : Text) : Bool :=
  match splitOnce '/' relative with
  | none => false
  | some (run, filename) =>
    match (stripSuffix (lit ".json") filename).bind (rsplitOnce '-') with
    | none => false
    | some (kind, digest) =>
      isHex run 32 && isHex digest 64 && kind.head?.any Char.isLower && kind.all isKindChar

/-- `SnapshotStore::resolve`. -/
def resolve (relative : Text) : Except ReportError Unit :=
  ensure (isSnapshotPath relative = true) snapshotPathInvalid

section Sha256

variable [Sha256]

def Snapshots.readBytes (s : Snapshots) (reference : SnapshotRef) : Except ReportError Text := do
  resolve reference.path
  match s.files.lookup reference.path with
  | none => .error (reportError "SNAPSHOT_MISSING" "快照文件不存在或无法读取")
  | some bytes => do
    ensure (byteLength bytes ≤ s.maxFileBytes ∧ Sha256.hex bytes = reference.sha256)
      (reportError "SNAPSHOT_HASH_MISMATCH" "快照原字节校验失败")
    .ok bytes

/-- The reference to the bytes as a snapshot of a run. -/
def snapshotRef (run kind bytes : Text) : SnapshotRef where
  path := run ++ '/' :: kind ++ '-' :: Sha256.hex bytes ++ lit ".json"
  sha256 := Sha256.hex bytes

/-- A path that is there is checked, not written again. -/
def Snapshots.putBytes (s : Snapshots) (run kind bytes : Text) :
    Except ReportError (SnapshotRef × Snapshots) := do
  let reference := snapshotRef run kind bytes
  resolve reference.path
  match s.files.lookup reference.path with
  | some _ => do
    let _ ← s.readBytes reference
    .ok (reference, s)
  | none => do
    ensure (byteLength bytes ≤ s.maxFileBytes)
      (reportError "SNAPSHOT_CAPACITY_EXCEEDED" "快照容量达到上限")
    .ok (reference, { s with files := s.files ++ [(reference.path, bytes)] })

theorem Snapshots.readBytes_eq_ok {s : Snapshots} {reference : SnapshotRef} {bytes : Text} :
    s.readBytes reference = .ok bytes ↔ isSnapshotPath reference.path = true ∧
      s.files.lookup reference.path = some bytes ∧ byteLength bytes ≤ s.maxFileBytes ∧
      Sha256.hex bytes = reference.sha256 := by
  unfold Snapshots.readBytes resolve
  cases hfile : s.files.lookup reference.path with
  | none => simp [bind_eq_ok]
  | some found =>
    simp only [bind_eq_ok, ensure_eq_ok, Except.ok.injEq, Option.some.injEq]
    constructor
    · rintro ⟨_, hpath, _, ⟨hsize, hhash⟩, rfl⟩
      exact ⟨hpath, rfl, hsize, hhash⟩
    · rintro ⟨hpath, rfl, hsize, hhash⟩
      exact ⟨(), hpath, (), ⟨hsize, hhash⟩, rfl⟩

/-- The files only become more. -/
def Snapshots.Grows (s s' : Snapshots) : Prop :=
  s'.maxFileBytes = s.maxFileBytes ∧
    ∀ path bytes, s.files.lookup path = some bytes → s'.files.lookup path = some bytes

omit [Sha256] in
theorem Snapshots.Grows.refl (s : Snapshots) : s.Grows s := ⟨rfl, fun _ _ h => h⟩

omit [Sha256] in
theorem Snapshots.Grows.trans {s s' s'' : Snapshots} (h : s.Grows s') (h' : s'.Grows s'') :
    s.Grows s'' := ⟨h'.1.trans h.1, fun path bytes hfile => h'.2 path bytes (h.2 path bytes hfile)⟩

/-- What could be read can be read. -/
theorem Snapshots.Grows.readBytes {s s' : Snapshots} (h : s.Grows s') {reference : SnapshotRef}
    {bytes : Text} (hread : s.readBytes reference = .ok bytes) :
    s'.readBytes reference = .ok bytes := by
  obtain ⟨hpath, hfile, hsize, hhash⟩ := readBytes_eq_ok.1 hread
  exact readBytes_eq_ok.2 ⟨hpath, h.2 _ _ hfile, by rw [h.1]; exact hsize, hhash⟩

/-- After a write there is a file under the digest: the bytes, or an older file that shares it. -/
theorem Snapshots.putBytes_eq_ok {s s' : Snapshots} {run kind bytes : Text} {reference : SnapshotRef}
    (h : s.putBytes run kind bytes = .ok (reference, s')) :
    reference.sha256 = Sha256.hex bytes ∧ s.Grows s' ∧
      (∃ found, s'.readBytes reference = .ok found ∧
        (found = bytes ∨ s.readBytes reference = .ok found)) := by
  unfold Snapshots.putBytes resolve at h
  cases hfile : s.files.lookup (snapshotRef run kind bytes).path with
  | some old =>
    simp only [hfile, bind_eq_ok, ensure_eq_ok, Except.ok.injEq, Prod.mk.injEq] at h
    obtain ⟨_, hpath, found, hread, rfl, rfl⟩ := h
    exact ⟨rfl, .refl s, found, hread, .inr hread⟩
  | none =>
    simp only [hfile, bind_eq_ok, ensure_eq_ok, Except.ok.injEq, Prod.mk.injEq] at h
    obtain ⟨_, hpath, _, hsize, rfl, rfl⟩ := h
    refine ⟨rfl, ⟨rfl, fun path found hfound => ?_⟩, bytes, ?_, .inl rfl⟩
    · rw [List.lookup_append, hfound]
      rfl
    · refine Snapshots.readBytes_eq_ok.2 ⟨hpath, ?_, hsize, rfl⟩
      rw [List.lookup_append, hfile]
      simp

end Sha256

/-! ### Finishing a call -/

/-- The library words the message. -/
def jsonInvalid : ReportError := reportError "JSON_INVALID" ""

/-- `serde_json::from_str`. -/
def readJson (text : Text) : Except ReportError Json :=
  match Json.parse text with
  | some v => .ok v
  | none => .error jsonInvalid

@[simp] theorem readJson_print (v : Json) : readJson v.print = .ok v := by
  simp [readJson, Json.parse_print]

structure CallCompletion where
  callId : ℕ
  status : CallStatus
  response : Option SnapshotRef
  usage : Json
  errorCode : Option Text
  now : ℤ

/-- What the usage of a call keeps from its reservation. -/
def keptUsage : List Text :=
  [lit "job_id", lit "request_audit", lit "reserved_budget", lit "budget_limits_enforced"]

/-- The fields of an object. -/
def objectFields : Json → List (Text × Json)
  | .obj fields => fields
  | _ => []

/-- The usage that the model reports, with the kept fields of the reservation. -/
def mergeUsage (old usage : Json) : Json :=
  .obj (sortByKey Prod.fst
    ((keptUsage.filterMap fun name => (old.get name).map fun value => (name, value)) ++
      (objectFields usage).filter fun field => decide (field.1 ∉ keptUsage)))

/-- The fields of a list of names that is without duplicates, of one name. -/
theorem filter_filterMap_name {names : List Text} (hnodup : names.Nodup) (read : Text → Option Json)
    {name : Text} (h : name ∈ names) :
    (names.filterMap fun other => (read other).map fun value => (other, value)).filter
      (fun field => decide (field.1 = name)) = ((read name).map fun value => (name, value)).toList := by
  induction names with
  | nil => cases h
  | cons first names ih =>
    obtain ⟨hfirst, hnodup⟩ := List.nodup_cons.1 hnodup
    rw [List.filterMap_cons]
    rcases List.mem_cons.1 h with rfl | hrest
    · have hnone : (names.filterMap fun other => (read other).map fun value => (other, value)).filter
          (fun field => decide (field.1 = name)) = [] := by
        rw [List.filter_eq_nil_iff]
        intro field hfield
        obtain ⟨other, hother, hmap⟩ := List.mem_filterMap.1 hfield
        obtain ⟨value, -, rfl⟩ := Option.map_eq_some_iff.1 hmap
        simp only [decide_eq_true_eq]
        rintro rfl
        exact hfirst hother
      cases read name <;> simp [hnone]
    · have hne : first ≠ name := fun heq => hfirst (heq ▸ hrest)
      rw [← ih hnodup hrest]
      cases read first <;> simp [hne]

theorem get_obj (fields : List (Text × Json)) (key : Text) : (Json.obj fields).get key =
    ((fields.filter fun field => decide (field.1 = key)).head?).map Prod.snd := by
  rw [List.head?_filter]
  rfl

theorem mergeUsage_get {old usage : Json} {name : Text} (h : name ∈ keptUsage) :
    (mergeUsage old usage).get name = old.get name := by
  have hfilter := (sortByKey_perm Prod.fst
    ((keptUsage.filterMap fun name => (old.get name).map fun value => (name, value)) ++
      (objectFields usage).filter fun field => decide (field.1 ∉ keptUsage))).filter
        fun field => decide (field.1 = name)
  have hrest : ((objectFields usage).filter fun field => decide (field.1 ∉ keptUsage)).filter
      (fun field => decide (field.1 = name)) = [] := by
    rw [List.filter_eq_nil_iff]
    intro field hfield
    have hnot : field.1 ∉ keptUsage := by simpa using (List.mem_filter.1 hfield).2
    simp only [decide_eq_true_eq]
    rintro rfl
    exact hnot h
  rw [List.filter_append, hrest, List.append_nil,
    filter_filterMap_name (by decide +kernel) old.get h] at hfilter
  rw [mergeUsage, get_obj]
  cases hold : old.get name with
  | none =>
    rw [hold] at hfilter
    rw [List.Perm.eq_nil hfilter]
    rfl
  | some value =>
    rw [hold] at hfilter
    rw [List.perm_singleton.1 hfilter]
    rfl

def callStateInvalid (message : String) : ReportError := reportError "MODEL_CALL_STATE_INVALID" message

/-- The row of a call that is finished. -/
def ModelCallRow.finish [Chrono] (input : CallCompletion) (usage : Json) (call : ModelCallRow) :
    ModelCallRow :=
  { call with
    status := input.status, response := input.response, usageJson := some usage.print
    errorCode := input.errorCode, finishedAt := some (Chrono.timestamp input.now) }

/-- The call is reserved. -/
def isReserved (callId : ℕ) (call : ModelCallRow) : Bool :=
  decide (call.callId = callId) && decide (call.status = .reserved)

def finishCall [Chrono] (db : Db) (input : CallCompletion) : Except ReportError Db := do
  ensure (input.status ≠ .reserved ∧ (input.status = .succeeded → input.response.isSome = true))
    (callStateInvalid "模型调用状态无效")
  match db.calls.find? (isReserved input.callId) with
  | none => .error (callStateInvalid "模型调用已结束或不存在")
  | some row => do
    let old ← readJson (row.usageJson.getD (lit "\x7b\x7d"))
    ensure (db.calls.countP (isReserved input.callId) = 1) (callStateInvalid "运行状态不允许此操作")
    .ok { db with
      calls := updateWhere (isReserved input.callId)
        (ModelCallRow.finish input (mergeUsage old input.usage)) db.calls }

/-! ### Looking calls up -/

def generationCalls (db : Db) (generationId logicalStep : Text) : List ModelCallRow :=
  sortByKey ModelCallRow.callId (db.calls.filter fun call =>
    decide (call.generationId = generationId ∧ call.logicalStep = logicalStep))

/-- The last call of a generation that succeeded with the request. -/
def successfulCall (db : Db) (generationId requestFingerprint : Text) : Option ModelCallRow :=
  (sortByKey ModelCallRow.callId (db.calls.filter fun call =>
    decide (call.generationId = generationId ∧ call.requestFingerprint = requestFingerprint ∧
      call.status = .succeeded))).getLast?

/-- The rows of calls are in the order of their ids, and the ids are used up. -/
def Numbered (db : Db) : Prop :=
  db.calls.Pairwise (fun call other => call.callId < other.callId) ∧
    ∀ call ∈ db.calls, call.callId < db.nextCall

theorem Numbered.sorted {db : Db} (h : Numbered db) (p : ModelCallRow → Bool) :
    sortByKey ModelCallRow.callId (db.calls.filter p) = db.calls.filter p :=
  sortByKey_of_sorted ((h.1.sublist List.filter_sublist).imp fun hlt => Nat.le_of_lt hlt)

theorem Numbered.generationCalls_eq {db : Db} (h : Numbered db) (generationId logicalStep : Text) :
    generationCalls db generationId logicalStep = db.calls.filter fun call =>
      decide (call.generationId = generationId ∧ call.logicalStep = logicalStep) := h.sorted _

theorem successfulCall_eq_some {db : Db} {generationId requestFingerprint : Text}
    {call : ModelCallRow} (h : successfulCall db generationId requestFingerprint = some call) :
    call ∈ db.calls ∧ call.generationId = generationId ∧
      call.requestFingerprint = requestFingerprint ∧ call.status = .succeeded := by
  have hmem := (mem_sortByKey.1 (List.mem_of_getLast? h))
  simpa using hmem

theorem successfulCall_eq_none {db : Db} {generationId requestFingerprint : Text} :
    successfulCall db generationId requestFingerprint = none ↔ ∀ call ∈ db.calls,
      call.generationId = generationId → call.requestFingerprint = requestFingerprint →
        call.status ≠ .succeeded := by
  have hnil : ∀ rows : List ModelCallRow, sortByKey ModelCallRow.callId rows = [] ↔ rows = [] := by
    intro rows
    rw [← List.length_eq_zero_iff, length_sortByKey, List.length_eq_zero_iff]
  unfold successfulCall
  rw [List.getLast?_eq_none_iff, hnil, List.filter_eq_nil_iff]
  simp

end DailyReport.Reports
