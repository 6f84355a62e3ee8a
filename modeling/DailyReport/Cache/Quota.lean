import DailyReport.Lib.FileTree
import DailyReport.Lib.Transitions
import DailyReport.Reports.Tables

/-!
# The quota of the processing cache

All writers of a processing area share one quota.  A writer reserves bytes, tracks the paths it is
going to write, writes them, and commits: the paths it keeps are recorded, what they take moves from
the reserved to the used bytes, and the control file is saved.  A reservation that is dropped
without a commit cleans its paths up.

The model follows `processing_cache.rs`.  What the file system does during an operation is a
parameter of the event (`Disk`): which paths can be resolved, measured and removed, what a failed
removal leaves, and whether the control file can be saved.
-/

namespace DailyReport.Cache

open Lib Reports

/-- A path inside the processing area, by its components. -/
abbrev RelPath := List Text

structure Entry where
  created : ℕ
  pending : Bool
  deriving DecidableEq

/-- The registered paths. -/
abbrev Entries := List (RelPath × Entry)

structure CacheQuota where
  maxBytes : ℕ
  controlBytes : ℕ
  now : ℕ
  deriving DecidableEq

/-- The accounting of the quota, the processing area and the saved control file. -/
structure Store where
  used : ℕ
  reserved : ℕ
  entries : Entries
  nodes : List (Node Text)
  ledger : Entries
  deriving DecidableEq

structure CacheReservation where
  bytes : ℕ
  paths : List RelPath
  deriving DecidableEq

/-- What the file system does during an operation. -/
structure Disk where
  resolves : RelPath → Bool
  readable : RelPath → Bool
  removable : RelPath → Bool
  /-- What a removal that fails half-way leaves of what is at or below its path. -/
  leaves : RelPath → Node Text → Bool
  saves : Bool
  /-- What an operation that fails reports. -/
  error : ReportError

def full : ReportError := reportError "PROCESSING_CACHE_FULL" "处理缓存容量不足，当前材料已暂缓"

def conflict : ReportError := reportError "PROCESSING_WRITE_CONFLICT" "处理路径已经存在"

def fileNotEmpty : ReportError := reportError "PROCESSING_WRITE_CONFLICT" "暂存文件必须为空"

def directoryNotEmpty : ReportError := reportError "PROCESSING_WRITE_CONFLICT" "暂存目录必须为空"

def unknownFile : ReportError := reportError "PROCESSING_UNKNOWN_FILE" "禁止清理未登记材料"

/-! ### The processing area -/

/-- The path is registered. -/
def Store.hasEntry (s : Store) (path : RelPath) : Bool := s.entries.any fun entry => entry.1 == path

/-- Something is at or below the path. -/
def Store.pathExists (s : Store) (path : RelPath) : Bool := s.nodes.any (under [path])

/-- `CacheQuota::size`: bytes at or below a path. -/
def Store.size (s : Store) (path : RelPath) : ℕ := bytesUnder [path] s.nodes

/-- `CacheQuota::save`. -/
def Store.save (disk : Disk) (s : Store) : Store × Option ReportError :=
  if disk.saves then ({ s with ledger := s.entries }, none) else (s, some disk.error)

/-- `CacheQuota::remove_path`; the flag says whether everything is gone. -/
def Store.removePath (disk : Disk) (s : Store) (path : RelPath) : Store × Bool :=
  if disk.removable path then ({ s with nodes := prune path s.nodes }, true)
  else ({ s with nodes := s.nodes.filter fun node => !under [path] node || disk.leaves path node },
    false)

/-- Strike a path off the register. -/
def Store.erase (s : Store) (path : RelPath) : Store :=
  { s with entries := s.entries.filter fun entry => !(entry.1 == path) }

/-- The sizes of some paths together, if all of them can be measured. -/
def Store.measure (disk : Disk) (s : Store) (paths : List RelPath) : Option ℕ :=
  if paths.all disk.readable then
    some (paths.foldl (fun total path => saturatingAdd total (s.size path)) 0)
  else none

/-! ### The operations -/

/-- `CacheQuota::reserve`. -/
def CacheQuota.reserve (q : CacheQuota) (bytes : ℕ) (s : Store) :
    Except ReportError (Store × CacheReservation) :=
  if saturatingAdd (saturatingAdd (saturatingAdd s.used s.reserved) bytes) q.controlBytes >
      q.maxBytes then .error full
  else .ok ({ s with reserved := s.reserved + bytes }, ⟨bytes, []⟩)

/-- The three ways to track a path. -/
inductive Tracking
  | path
  | existingEmpty
  | emptyDirectory
  deriving DecidableEq

/-- What is checked before a path is tracked. -/
def Tracking.check (s : Store) (path : RelPath) : Tracking → Except ReportError Unit
  | .path => .ok ()
  | .existingEmpty =>
    if s.nodes.any (fun node => node.path == path) && s.size path == 0 then .ok ()
    else .error fileNotEmpty
  | .emptyDirectory =>
    if s.nodes.any (fun node => node.path == path && node.isDir) &&
        s.nodes.all (fun node => !under [path] node || node.path == path && node.isDir) then .ok ()
    else .error directoryNotEmpty

/-- `CacheReservation::track_inner` behind the checks of its three callers. -/
def CacheReservation.track (q : CacheQuota) (disk : Disk) (r : CacheReservation) (path : RelPath)
    (tracking : Tracking) (s : Store) : Store × CacheReservation × Option ReportError :=
  match tracking.check s path with
  | .error error => (s, r, some error)
  | .ok () =>
    if !disk.resolves path then (s, r, some disk.error)
    else if s.hasEntry path || tracking == .path && s.pathExists path then (s, r, some conflict)
    else
      let (s, error) := Store.save disk { s with entries := s.entries ++ [(path, ⟨q.now, true⟩)] }
      match error with
      | some error => (s, r, some error)
      | none => (s, { r with paths := r.paths ++ [path] }, none)

/-- The turn of one path in a commit: record it, or clean it up. -/
def commitPath (disk : Disk) (keep : List RelPath) (s : Store) (path : RelPath) : Store × Bool :=
  if !disk.resolves path then (s, false)
  else if path ∈ keep then
    if s.hasEntry path then
      ({ s with entries := s.entries.map fun entry =>
          if entry.1 == path then (entry.1, { entry.2 with pending := false }) else entry }, true)
    else (s, false)
  else
    let (s, removed) := s.removePath disk path
    if removed then (s.erase path, true) else (s, false)

/-- The turns of all paths, up to the first failure. -/
def commitPaths (disk : Disk) (keep : List RelPath) : List RelPath → Store → Store × Bool
  | [], s => (s, true)
  | path :: paths, s =>
    let (s, done) := commitPath disk keep s path
    if done then commitPaths disk keep paths s else (s, false)

/-- `CacheReservation::commit` up to its return; `before` is what the file system does while the
paths are measured first. -/
def CacheReservation.commit (before disk : Disk) (r : CacheReservation) (keep : List RelPath)
    (s : Store) : Store × Option ReportError :=
  match s.measure before r.paths with
  | none => (s, some before.error)
  | some total =>
    if total > r.bytes ∨ ∃ path ∈ keep, path ∉ r.paths then (s, some full)
    else
      let (s, done) := commitPaths disk keep r.paths s
      if !done then (s, some disk.error)
      else match s.measure disk keep with
        | none => (s, some disk.error)
        | some kept => Store.save disk
          { s with used := saturatingAdd s.used kept, reserved := s.reserved - r.bytes }

/-- The cleanup of one path; what cannot be removed is residual. -/
def dropPath (disk : Disk) (bytes : ℕ) (acc : Store × ℕ) (path : RelPath) : Store × ℕ :=
  let (s, removed) := acc.1.removePath disk path
  if removed then (s.erase path, acc.2)
  else (s, acc.2 + if disk.readable path then s.size path else bytes)

/-- `Drop` of a reservation without a commit.  The error of the save is ignored. -/
def CacheReservation.drop (disk : Disk) (r : CacheReservation) (s : Store) : Store :=
  let (s, residual) := r.paths.foldl (dropPath disk r.bytes) (s, 0)
  (Store.save disk
    { s with used := saturatingAdd s.used residual, reserved := s.reserved - r.bytes }).1

/-- A commit with what follows it: a reservation whose commit fails is dropped at its end. -/
def CacheReservation.finish (before disk after : Disk) (r : CacheReservation)
    (keep : List RelPath) (s : Store) : Store × Option ReportError :=
  match r.commit before disk keep s with
  | (s, none) => (s, none)
  | (s, some error) => (r.drop after s, some error)

/-- `CacheQuota::remove`. -/
def Store.remove (disk : Disk) (path : RelPath) (s : Store) : Store × Option ReportError :=
  if !disk.resolves path then (s, some disk.error)
  else if !s.hasEntry path then (s, some unknownFile)
  else if !disk.readable path then (s, some disk.error)
  else
    let size := s.size path
    let (s, removed) := s.removePath disk path
    if removed then Store.save disk (Store.erase { s with used := s.used - size } path)
    else (s, some disk.error)

/-! ### Runs -/

/-- The quota with the reservations that are held. -/
structure CacheSystem where
  quota : CacheQuota
  store : Store
  live : List CacheReservation
  deriving DecidableEq

/-- What the writers do.  A reservation goes by its place among those that are held, and `write` is
what a writer puts into the processing area itself. -/
inductive CacheEvent
  | reserve (bytes : ℕ)
  | track (i : ℕ) (path : RelPath) (tracking : Tracking) (disk : Disk)
  | write (node : Node Text)
  | commit (i : ℕ) (keep : List RelPath) (before disk after : Disk)
  | drop (i : ℕ) (disk : Disk)
  | remove (path : RelPath) (disk : Disk)

/-- Put a node into the processing area, in the place of one with its path. -/
def Store.write (node : Node Text) (s : Store) : Store :=
  { s with nodes := node :: s.nodes.filter fun old => !(old.path == node.path) }

/-- One event; it is refused where no such reservation is held, or nothing may be reserved. -/
def cacheStep (sys : CacheSystem) : CacheEvent → Except ReportError CacheSystem
  | .reserve bytes =>
    (sys.quota.reserve bytes sys.store).map fun (store, r) =>
      { sys with store := store, live := sys.live ++ [r] }
  | .track i path tracking disk =>
    match sys.live[i]? with
    | none => .error full
    | some r =>
      let (store, r, _) := r.track sys.quota disk path tracking sys.store
      .ok { sys with store := store, live := sys.live.set i r }
  | .write node => .ok { sys with store := sys.store.write node }
  | .commit i keep before disk after =>
    match sys.live[i]? with
    | none => .error full
    | some r => .ok { sys with
        store := (r.finish before disk after keep sys.store).1
        live := sys.live.eraseIdx i }
  | .drop i disk =>
    match sys.live[i]? with
    | none => .error full
    | some r => .ok { sys with store := r.drop disk sys.store, live := sys.live.eraseIdx i }
  | .remove path disk => .ok { sys with store := (sys.store.remove disk path).1 }

def runCache : CacheSystem → List CacheEvent → CacheSystem := applyAll cacheStep

/-- `CacheQuota::open` over the control file and the processing area that a former owner has left;
`controls` are the bytes of the control files.  Every file must be registered. -/
def CacheQuota.openCache (q : CacheQuota) (disk : Disk) (controls : ℕ) (ledger : Entries)
    (nodes : List (Node Text)) : Except ReportError CacheSystem :=
  let entries := ledger.map fun entry => (entry.1, { entry.2 with pending := false })
  if nodes.any (fun node => !node.isDir && !under (entries.map Prod.fst) node) then
    .error (reportError "PROCESSING_UNKNOWN_FILE" "处理区存在未登记文件")
  else if controls > q.controlBytes then .error full
  else if disk.saves then
    .ok ⟨q, ⟨bytesUnder (entries.map Prod.fst) nodes, 0, entries, nodes, entries⟩, []⟩
  else .error disk.error

end DailyReport.Cache
