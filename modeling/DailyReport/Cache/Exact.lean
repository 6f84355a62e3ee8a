import DailyReport.Cache.Quota
import Mathlib.Data.List.Perm.Basic
import Mathlib.Data.List.Nodup
import Mathlib.Data.List.Pairwise

/-!
# When the quota of the processing cache is exact

The accounting is exact when the reserved bytes are those of the reservations that are held, the
used bytes are those below the recorded paths, and everything together stays within the maximum.
A commit whose last save fails has moved its bytes already, and the drop that follows it gives the
reservation back a second time.  A commit that fails before that leaves nothing behind that the
drop does not clean up (`commit_failed`).

* `CacheInv.step` : the accounting stays exact while paths are apart, cleanups succeed, commits are
  saved, and only recorded paths are removed;
* `quota_exact` : **over such runs the quota is exact, and a commit that fails is a drop**;
* `commit_unsaved` : a commit that is not saved makes the quota wrong.
-/

namespace DailyReport.Cache

open Lib Reports

/-! ### Exact accounting -/

/-- The registered paths. -/
def Store.keys (s : Store) : List RelPath := s.entries.map Prod.fst

/-- The paths that the reservations track. -/
def CacheSystem.tracked (sys : CacheSystem) : List RelPath :=
  sys.live.flatMap CacheReservation.paths

/-- The registered paths that no reservation tracks. -/
def CacheSystem.recorded (sys : CacheSystem) : List RelPath :=
  sys.store.keys.filter fun path => decide (path ∉ sys.tracked)

/-- The accounting is exact and within the maximum. -/
structure Exact (sys : CacheSystem) : Prop where
  within : sys.store.used + sys.store.reserved + sys.quota.controlBytes ≤ sys.quota.maxBytes
  reserved : sys.store.reserved = (sys.live.map CacheReservation.bytes).sum
  used : sys.store.used = bytesUnder sys.recorded sys.store.nodes

instance (sys : CacheSystem) : Decidable (Exact sys) :=
  decidable_of_iff
    (sys.store.used + sys.store.reserved + sys.quota.controlBytes ≤ sys.quota.maxBytes ∧
      sys.store.reserved = (sys.live.map CacheReservation.bytes).sum ∧
      sys.store.used = bytesUnder sys.recorded sys.store.nodes)
    ⟨fun ⟨hwithin, hreserved, hused⟩ => ⟨hwithin, hreserved, hused⟩,
      fun h => ⟨h.within, h.reserved, h.used⟩⟩

/-- The accounting is exact, the registered paths are apart, and every tracked path is registered by
one reservation. -/
structure CacheInv (sys : CacheSystem) : Prop where
  exact : Exact sys
  limit : sys.quota.maxBytes < u64Max
  apart : sys.store.keys.Pairwise Apart
  nodup : sys.tracked.Nodup
  registered : sys.tracked ⊆ sys.store.keys

section Inv

variable {sys : CacheSystem}

theorem mem_recorded {path : RelPath} :
    path ∈ sys.recorded ↔ path ∈ sys.store.keys ∧ path ∉ sys.tracked := by
  simp [CacheSystem.recorded]

/-- Different registered paths are apart. -/
theorem CacheInv.apart_of_ne (h : CacheInv sys) {p q : RelPath} (hp : p ∈ sys.store.keys)
    (hq : q ∈ sys.store.keys) (hne : p ≠ q) : Apart p q :=
  h.apart.forall hp hq hne

/-- A tracked path is apart from every recorded one. -/
theorem CacheInv.apart_recorded (h : CacheInv sys) {p q : RelPath} (hp : p ∈ sys.tracked)
    (hq : q ∈ sys.recorded) : Apart p q := by
  obtain ⟨hkey, hnot⟩ := mem_recorded.1 hq
  refine h.apart_of_ne (h.registered hp) hkey ?_
  rintro rfl
  exact hnot hp

theorem hasEntry_iff {s : Store} {path : RelPath} : s.hasEntry path = true ↔ path ∈ s.keys := by
  simp [Store.hasEntry, Store.keys]

end Inv

/-! ### Saving -/

@[simp] theorem save_used (disk : Disk) (s : Store) : (s.save disk).1.used = s.used := by
  unfold Store.save
  split_ifs <;> rfl

@[simp] theorem save_reserved (disk : Disk) (s : Store) :
    (s.save disk).1.reserved = s.reserved := by
  unfold Store.save
  split_ifs <;> rfl

@[simp] theorem save_entries (disk : Disk) (s : Store) : (s.save disk).1.entries = s.entries := by
  unfold Store.save
  split_ifs <;> rfl

@[simp] theorem save_nodes (disk : Disk) (s : Store) : (s.save disk).1.nodes = s.nodes := by
  unfold Store.save
  split_ifs <;> rfl

/-! ### Cleaning up -/

/-- The store without some paths, their nodes and their entries. -/
def Store.cleaned (s : Store) (paths : List RelPath) : Store :=
  { s with
    entries := s.entries.filter fun entry => decide (entry.1 ∉ paths)
    nodes := s.nodes.filter fun node => !under paths node }

theorem keys_cleaned (s : Store) (paths : List RelPath) :
    (s.cleaned paths).keys = s.keys.filter fun path => decide (path ∉ paths) := by
  simp only [Store.keys, Store.cleaned, List.filter_map]
  rfl

theorem under_cons (path : RelPath) (paths : List RelPath) (node : Node Text) :
    under (path :: paths) node = (under [path] node || under paths node) := by
  simp [under]

/-- Cleaning up one path after another. -/
theorem cleaned_cons (s : Store) (path : RelPath) (paths : List RelPath) :
    (({ s with nodes := prune path s.nodes }).erase path).cleaned paths =
      s.cleaned (path :: paths) := by
  have hentries : (fun entry : RelPath × Entry => decide (entry.1 ∉ paths) && !(entry.1 == path)) =
      fun entry => decide (entry.1 ∉ path :: paths) := by
    funext entry
    by_cases hpath : entry.1 = path <;> simp [hpath]
  have hnodes : (fun node : Node Text => !under paths node && !under [path] node) =
      fun node => !under (path :: paths) node := by
    funext node
    rw [under_cons path paths, Bool.not_or, Bool.and_comm]
  simp only [Store.cleaned, Store.erase, prune, List.filter_filter, hentries, hnodes]

theorem foldl_dropPath {disk : Disk} {bytes : ℕ} {paths : List RelPath}
    (h : ∀ path ∈ paths, disk.removable path = true) (s : Store) (residual : ℕ) :
    paths.foldl (dropPath disk bytes) (s, residual) = (s.cleaned paths, residual) := by
  induction paths generalizing s with
  | nil => simp [Store.cleaned, under]
  | cons path paths ih =>
    have hone : dropPath disk bytes (s, residual) path =
        (({ s with nodes := prune path s.nodes }).erase path, residual) := by
      simp [dropPath, Store.removePath, h path (by simp)]
    rw [List.foldl_cons, hone, ih (fun p hp => h p (List.mem_cons_of_mem _ hp)), cleaned_cons]

/-- **A drop whose cleanup succeeds** gives the reservation back and removes its paths. -/
theorem drop_eq {disk : Disk} {r : CacheReservation}
    (h : ∀ path ∈ r.paths, disk.removable path = true) (s : Store) :
    r.drop disk s = (Store.save disk
      { s.cleaned r.paths with
        used := saturatingAdd s.used 0
        reserved := s.reserved - r.bytes }).1 := by
  unfold CacheReservation.drop
  rw [foldl_dropPath h]
  rfl

/-! ### Commits that fail -/

/-- **The turn of a path leaves nothing behind** that a cleanup of the paths does not remove. -/
theorem commitPath_cleaned {disk : Disk} {keep paths : List RelPath} {path : RelPath}
    (h : path ∈ paths) (s : Store) :
    (commitPath disk keep s path).1.cleaned paths = s.cleaned paths := by
  unfold commitPath
  split_ifs with hresolves hkeep hentry
  · rfl
  · -- the path is recorded: its entry changes, which is among those that a cleanup removes
    have hentries : (s.entries.map fun entry =>
        if entry.1 == path then (entry.1, { entry.2 with pending := false }) else entry).filter
          (fun entry => decide (entry.1 ∉ paths)) =
        s.entries.filter fun entry => decide (entry.1 ∉ paths) := by
      have hkey : (fun entry : RelPath × Entry => decide (entry.1 ∉ paths)) ∘ (fun entry =>
          if entry.1 == path then (entry.1, { entry.2 with pending := false }) else entry) =
            fun entry => decide (entry.1 ∉ paths) := by
        funext entry
        simp only [Function.comp_apply]
        split_ifs <;> rfl
      rw [List.filter_map, hkey]
      conv_rhs => rw [← List.map_id (s.entries.filter _)]
      refine List.map_congr_left fun entry hmem => ?_
      have hnot : entry.1 ∉ paths := by simpa using (List.mem_filter.1 hmem).2
      have hne : entry.1 ≠ path := fun heq => hnot (heq ▸ h)
      simp [hne]
    simp only [Store.cleaned, hentries]
  · rfl
  · unfold Store.removePath
    split_ifs with hremovable
    · simp only [if_true]
      rw [cleaned_cons]
      have hmem : ∀ p, p ∈ path :: paths ↔ p ∈ paths := by
        intro p
        constructor
        · intro hp
          rcases List.mem_cons.1 hp with rfl | hp
          · exact h
          · exact hp
        · exact List.mem_cons_of_mem _
      have hentries : (fun entry : RelPath × Entry => decide (entry.1 ∉ path :: paths)) =
          fun entry => decide (entry.1 ∉ paths) := by
        funext entry
        simp only [hmem]
      have hnodes : (fun node : Node Text => !under (path :: paths) node) =
          fun node => !under paths node := by
        funext node
        rw [Bool.eq_iff_iff]
        simp only [Bool.not_eq_true', ← Bool.not_eq_true, under_iff, hmem]
      simp only [Store.cleaned, hentries, hnodes]
    · have hnodes : (s.nodes.filter fun node => !under [path] node || disk.leaves path node).filter
          (fun node => !under paths node) = s.nodes.filter fun node => !under paths node := by
        rw [List.filter_filter]
        refine List.filter_congr fun node _ => ?_
        cases hunder : under [path] node with
        | true =>
          have hpaths : under paths node = true := by
            obtain ⟨root, hroot, hpre⟩ := under_iff.1 hunder
            exact under_iff.2 ⟨path, h, List.mem_singleton.1 hroot ▸ hpre⟩
          simp [hpaths]
        | false => simp
      simp only [Bool.false_eq_true, if_false, Store.cleaned, hnodes]

theorem commitPaths_cleaned {disk : Disk} {keep paths : List RelPath} (s : Store)
    {rest : List RelPath} (h : rest ⊆ paths) :
    (commitPaths disk keep rest s).1.cleaned paths = s.cleaned paths := by
  induction rest generalizing s with
  | nil => rfl
  | cons path rest ih =>
    have hmem : path ∈ paths := h List.mem_cons_self
    have hone : (commitPath disk keep s path).1.cleaned paths = s.cleaned paths :=
      commitPath_cleaned hmem s
    simp only [commitPaths]
    split_ifs
    · rw [ih _ fun p hp => h (List.mem_cons_of_mem _ hp), hone]
    · exact hone

/-- The commit has been saved, if it has come that far. -/
theorem commit_failed_cleaned {before disk : Disk} {r : CacheReservation} {keep : List RelPath}
    {s s' : Store} {error : ReportError} (hsaves : disk.saves = true)
    (h : r.commit before disk keep s = (s', some error)) :
    s'.cleaned r.paths = s.cleaned r.paths := by
  unfold CacheReservation.commit at h
  split at h
  · cases h
    rfl
  · dsimp only at h
    split_ifs at h
    · cases h
      rfl
    · cases h
      exact commitPaths_cleaned s (List.Subset.refl _)
    · split at h
      · cases h
        exact commitPaths_cleaned s (List.Subset.refl _)
      · rw [Store.save, if_pos hsaves] at h
        cases h

/-- **A commit that fails is a drop**, when it fails before the save and the cleanup succeeds. -/
theorem commit_failed {before disk after : Disk} {r : CacheReservation} {keep : List RelPath}
    {s : Store} (hsaves : disk.saves = true)
    (hcleanup : ∀ path ∈ r.paths, after.removable path = true)
    (hfailed : (r.finish before disk after keep s).2 ≠ none) :
    (r.finish before disk after keep s).1 = r.drop after s := by
  unfold CacheReservation.finish at hfailed ⊢
  cases hcommit : r.commit before disk keep s with
  | mk s' outcome =>
    cases outcome with
    | none => simp [hcommit] at hfailed
    | some error =>
      have hcleaned := commit_failed_cleaned hsaves hcommit
      have hused : (s'.cleaned r.paths).used = (s.cleaned r.paths).used := by rw [hcleaned]
      have hreserved : (s'.cleaned r.paths).reserved = (s.cleaned r.paths).reserved := by
        rw [hcleaned]
      change s'.used = s.used at hused
      change s'.reserved = s.reserved at hreserved
      simp only
      rw [drop_eq hcleanup, drop_eq hcleanup, hcleaned, hused, hreserved]

/-! ### Commits that succeed -/

/-- What a successful turn of all paths does: the paths that are not kept are gone. -/
structure Turned (keep paths : List RelPath) (s s' : Store) : Prop where
  used : s'.used = s.used
  reserved : s'.reserved = s.reserved
  keys : s'.keys = s.keys.filter fun path => decide (path ∈ keep ∨ path ∉ paths)
  nodes : s'.nodes =
    s.nodes.filter fun node => !under (paths.filter fun p => decide (p ∉ keep)) node

theorem commitPath_turned {disk : Disk} {keep : List RelPath} {path : RelPath} {s s' : Store}
    (h : commitPath disk keep s path = (s', true)) : Turned keep [path] s s' := by
  unfold commitPath at h
  split_ifs at h with hresolves hkeep hentry
  · cases h
  · cases h
    refine ⟨rfl, rfl, ?_, ?_⟩
    · have hkeys : (s.entries.map fun entry =>
          if entry.1 == path then (entry.1, { entry.2 with pending := false }) else entry).map
            Prod.fst = s.entries.map Prod.fst := by
        rw [List.map_map]
        refine List.map_congr_left fun entry _ => ?_
        simp only [Function.comp_apply]
        split_ifs <;> rfl
      simp only [Store.keys, hkeys]
      refine (List.filter_eq_self.2 fun key _ => ?_).symm
      by_cases heq : key = path
      · simp [heq, hkeep]
      · simp [heq]
    · simp [hkeep, under]
  · cases h
  · unfold Store.removePath at h
    split_ifs at h with hremovable
    · simp only [if_true, Prod.mk.injEq, and_true] at h
      subst h
      refine ⟨rfl, rfl, ?_, ?_⟩
      · simp only [Store.erase, Store.keys, List.filter_map]
        congr 1
        refine List.filter_congr fun entry _ => ?_
        by_cases heq : entry.1 = path
        · simp [heq, hkeep]
        · simp [heq]
      · simp [Store.erase, prune, hkeep]
    · cases h

theorem commitPaths_turned {disk : Disk} {keep paths : List RelPath} {s s' : Store}
    (h : commitPaths disk keep paths s = (s', true)) : Turned keep paths s s' := by
  induction paths generalizing s with
  | nil =>
    cases h
    exact ⟨rfl, rfl, by simp, by simp [under]⟩
  | cons path paths ih =>
    simp only [commitPaths] at h
    split_ifs at h with hdone
    · have hone : Turned keep [path] s (commitPath disk keep s path).1 :=
        commitPath_turned (Prod.ext rfl hdone)
      have hrest := ih h
      refine ⟨hrest.used.trans hone.used, hrest.reserved.trans hone.reserved, ?_, ?_⟩
      · rw [hrest.keys, hone.keys, List.filter_filter]
        refine List.filter_congr fun key _ => ?_
        by_cases hkeep : key ∈ keep
        · simp [hkeep]
        · simp [hkeep, Bool.and_comm]
      · rw [hrest.nodes, hone.nodes, List.filter_filter]
        refine List.filter_congr fun node _ => ?_
        by_cases hkeep : path ∈ keep
        · simp [hkeep, under]
        · simp [hkeep, under, Bool.and_comm]
    · cases h

/-- What a commit has done when it succeeds. -/
structure Committed (r : CacheReservation) (keep : List RelPath) (s s' : Store) : Prop where
  subset : keep ⊆ r.paths
  fits : r.paths.foldl (fun total path => saturatingAdd total (s.size path)) 0 ≤ r.bytes
  turned : ∃ t, Turned keep r.paths s t ∧ s'.entries = t.entries ∧ s'.nodes = t.nodes ∧
    s'.used = saturatingAdd s.used
      (keep.foldl (fun total path => saturatingAdd total (t.size path)) 0) ∧
    s'.reserved = s.reserved - r.bytes

theorem commit_ok {before disk : Disk} {r : CacheReservation} {keep : List RelPath} {s s' : Store}
    (h : r.commit before disk keep s = (s', none)) : Committed r keep s s' := by
  unfold CacheReservation.commit at h
  split at h
  · cases h
  next total htotal =>
    obtain rfl : r.paths.foldl (fun total path => saturatingAdd total (s.size path)) 0 = total := by
      unfold Store.measure at htotal
      split_ifs at htotal
      exact Option.some_injective _ htotal
    dsimp only at h
    split_ifs at h with hover hdone
    · cases h
    · cases h
    rw [not_or, Nat.not_lt] at hover
    simp only [not_exists, not_and, not_not] at hover
    have hturned := commitPaths_turned (Prod.ext rfl (by simpa using hdone) :
      commitPaths disk keep r.paths s = ((commitPaths disk keep r.paths s).1, true))
    split at h
    · cases h
    next kept hkept =>
      unfold Store.measure at hkept
      split_ifs at hkept
      obtain rfl := Option.some_injective _ hkept
      obtain rfl := (Prod.ext_iff.1 h).1
      refine ⟨fun p hp => hover.2 p hp, hover.1, _, hturned, by simp, by simp, ?_, ?_⟩
      · rw [← hturned.used]
        simp
      · rw [← hturned.reserved]
        simp

/-- A saturating sum that stays below the largest value is the sum. -/
theorem foldl_saturatingAdd {α : Type} (f : α → ℕ) (l : List α) (a : ℕ) (ha : a ≤ u64Max) :
    l.foldl (fun total x => saturatingAdd total (f x)) a = min (a + (l.map f).sum) u64Max := by
  induction l generalizing a with
  | nil => simp [ha]
  | cons x l ih =>
    have hnext : saturatingAdd a (f x) ≤ u64Max := min_le_right _ _
    rw [List.foldl_cons, ih _ hnext, List.map_cons, List.sum_cons]
    unfold saturatingAdd
    omega

/-! ### One reservation among the others -/

section Live

variable {sys : CacheSystem} {i : ℕ} {r : CacheReservation}

/-- The reservations without one of them. -/
theorem live_perm (h : sys.live[i]? = some r) : (r :: sys.live.eraseIdx i).Perm sys.live := by
  obtain ⟨hlt, rfl⟩ := List.getElem?_eq_some_iff.1 h
  exact List.getElem_cons_eraseIdx_perm hlt

/-- What the other reservations track. -/
theorem tracked_perm (h : sys.live[i]? = some r) :
    (r.paths ++ (sys.live.eraseIdx i).flatMap CacheReservation.paths).Perm sys.tracked := by
  have := (live_perm h).flatMap_right CacheReservation.paths
  rwa [List.flatMap_cons] at this

theorem reserved_eq (h : sys.live[i]? = some r) (hexact : Exact sys) : sys.store.reserved =
    r.bytes + ((sys.live.eraseIdx i).map CacheReservation.bytes).sum := by
  rw [hexact.reserved, ← ((live_perm h).map CacheReservation.bytes).sum_eq, List.map_cons,
    List.sum_cons]

theorem tracked_of_mem (h : sys.live[i]? = some r) {path : RelPath} (hp : path ∈ r.paths) :
    path ∈ sys.tracked :=
  List.mem_flatMap.2 ⟨r, List.mem_of_getElem? h, hp⟩

/-- What is left of the tracked paths when a reservation ends. -/
theorem mem_tracked_iff (h : sys.live[i]? = some r) (hnodup : sys.tracked.Nodup) {path : RelPath} :
    path ∈ (sys.live.eraseIdx i).flatMap CacheReservation.paths ↔
      path ∈ sys.tracked ∧ path ∉ r.paths := by
  have hperm := tracked_perm h
  have hdisjoint := (List.nodup_append.1 (hperm.nodup_iff.2 hnodup)).2.2
  rw [← hperm.mem_iff, List.mem_append]
  constructor
  · intro hmem
    exact ⟨Or.inr hmem, fun hp => hdisjoint path hp path hmem rfl⟩
  · rintro ⟨hp | hmem, hnot⟩
    · exact absurd hp hnot
    · exact hmem

/-- **A drop keeps the accounting exact**, when its cleanup succeeds. -/
theorem CacheInv.drop (hinv : CacheInv sys) (h : sys.live[i]? = some r) {disk : Disk}
    (hcleanup : ∀ path ∈ r.paths, disk.removable path = true) :
    CacheInv { sys with store := r.drop disk sys.store, live := sys.live.eraseIdx i } := by
  have hperm := tracked_perm h
  have hreserved := reserved_eq h hinv.exact
  have hwithin := hinv.exact.within
  have hlimit := hinv.limit
  have hkeys : (r.drop disk sys.store).keys =
      sys.store.keys.filter fun path => decide (path ∉ r.paths) := by
    rw [drop_eq hcleanup, ← keys_cleaned, Store.keys, save_entries]
    rfl
  have hnodes : (r.drop disk sys.store).nodes =
      sys.store.nodes.filter fun node => !under r.paths node := by
    rw [drop_eq hcleanup, save_nodes]
    rfl
  have hused : (r.drop disk sys.store).used = sys.store.used := by
    rw [drop_eq hcleanup, save_used]
    exact saturatingAdd_eq (by omega)
  have hleft : (r.drop disk sys.store).reserved = sys.store.reserved - r.bytes := by
    rw [drop_eq hcleanup, save_reserved]
  have htracked : CacheSystem.tracked
      { sys with store := r.drop disk sys.store, live := sys.live.eraseIdx i } =
        (sys.live.eraseIdx i).flatMap CacheReservation.paths := rfl
  have hrecorded : ∀ path, path ∈ CacheSystem.recorded
      { sys with store := r.drop disk sys.store, live := sys.live.eraseIdx i } ↔
        path ∈ sys.recorded := by
    intro path
    rw [mem_recorded, mem_recorded, htracked, mem_tracked_iff h hinv.nodup]
    simp only [hkeys, List.mem_filter, decide_eq_true_eq]
    by_cases hp : path ∈ r.paths
    · simp [hp, tracked_of_mem h hp]
    · simp [hp]
  refine ⟨⟨?_, ?_, ?_⟩, hinv.limit, ?_, ?_, ?_⟩
  · simp only [hused, hleft]
    omega
  · simp only [hleft]
    omega
  · simp only [hused, hnodes]
    rw [bytesUnder_mem hrecorded, bytesUnder_filter, hinv.exact.used]
    intro node _ hunder
    obtain ⟨q, hq, hpre⟩ := under_iff.1 hunder
    rw [Bool.not_eq_true', ← Bool.not_eq_true, under_iff]
    rintro ⟨p, hp, hpre'⟩
    exact (hinv.apart_recorded (tracked_of_mem h hp) hq).not_under hpre' hpre
  · rw [hkeys]
    exact hinv.apart.filter _
  · exact (List.nodup_append.1 (hperm.nodup_iff.2 hinv.nodup)).2.1
  · intro path hpath
    rw [htracked, mem_tracked_iff h hinv.nodup] at hpath
    simp only [hkeys, List.mem_filter, decide_eq_true_eq]
    exact ⟨hinv.registered hpath.1, hpath.2⟩

/-- **A commit that succeeds keeps the accounting exact**, when it names no path twice. -/
theorem CacheInv.commit (hinv : CacheInv sys) (h : sys.live[i]? = some r) {keep : List RelPath}
    {s' : Store} (hkeep : keep.Nodup) (hcommit : Committed r keep sys.store s') :
    CacheInv { sys with store := s', live := sys.live.eraseIdx i } := by
  obtain ⟨t, hturned, hentries, hnodes, hused, hleft⟩ := hcommit.turned
  have hperm := tracked_perm h
  have hreserved := reserved_eq h hinv.exact
  have hwithin := hinv.exact.within
  have hlimit := hinv.limit
  have htracked : CacheSystem.tracked { sys with store := s', live := sys.live.eraseIdx i } =
      (sys.live.eraseIdx i).flatMap CacheReservation.paths := rfl
  have hkeys :
      s'.keys = sys.store.keys.filter fun path => decide (path ∈ keep ∨ path ∉ r.paths) := by
    rw [Store.keys, hentries]
    exact hturned.keys
  have hkeptTracked : ∀ path ∈ keep, path ∈ sys.tracked := fun path hpath =>
    tracked_of_mem h (hcommit.subset hpath)
  have hrecorded : ∀ path, path ∈ CacheSystem.recorded
      { sys with store := s', live := sys.live.eraseIdx i } ↔ path ∈ keep ++ sys.recorded := by
    intro path
    rw [List.mem_append, mem_recorded, mem_recorded, htracked, mem_tracked_iff h hinv.nodup]
    simp only [hkeys, List.mem_filter, decide_eq_true_eq]
    by_cases hk : path ∈ keep
    · simp [hk, hcommit.subset hk, hinv.registered (hkeptTracked path hk)]
    · by_cases hp : path ∈ r.paths
      · simp [hk, hp, tracked_of_mem h hp]
      · simp [hk, hp]
  have hapartKeep : keep.Pairwise Apart := hkeep.pairwise_of_forall_ne fun p hp q hq hne =>
    hinv.apart_of_ne (hinv.registered (hkeptTracked p hp)) (hinv.registered (hkeptTracked q hq)) hne
  have hpaths : r.paths.Pairwise Apart :=
    (List.nodup_append.1 (hperm.nodup_iff.2 hinv.nodup)).1.pairwise_of_forall_ne
      fun p hp q hq hne => hinv.apart_of_ne (hinv.registered (tracked_of_mem h hp))
        (hinv.registered (tracked_of_mem h hq)) hne
  -- the nodes that are gone were below none of the recorded or kept paths
  have hstay : ∀ roots : List RelPath, (∀ q ∈ roots, q ∈ keep ∨ q ∈ sys.recorded) →
      bytesUnder roots s'.nodes = bytesUnder roots sys.store.nodes := by
    intro roots hroots
    rw [hnodes, hturned.nodes]
    refine bytesUnder_filter fun node _ hunder => ?_
    obtain ⟨q, hq, hpre⟩ := under_iff.1 hunder
    rw [Bool.not_eq_true', ← Bool.not_eq_true, under_iff]
    rintro ⟨p, hp, hpre'⟩
    obtain ⟨hp, hnot⟩ := List.mem_filter.1 hp
    rw [decide_eq_true_eq] at hnot
    rcases hroots q hq with hq | hq
    · refine (hinv.apart_of_ne (hinv.registered (tracked_of_mem h hp))
        (hinv.registered (hkeptTracked q hq)) ?_).not_under hpre' hpre
      rintro rfl
      exact hnot hq
    · exact (hinv.apart_recorded (tracked_of_mem h hp) hq).not_under hpre' hpre
  have hsize : ∀ path, t.size path = bytesUnder [path] s'.nodes := fun path => by
    rw [hnodes]
    rfl
  have hkept : (keep.map t.size).sum = bytesUnder keep sys.store.nodes := by
    rw [← hstay keep fun q hq => Or.inl hq, bytesUnder_eq_sum hapartKeep]
    exact congrArg List.sum (List.map_congr_left fun path _ => hsize path)
  have htotal : (r.paths.map sys.store.size).sum = bytesUnder r.paths sys.store.nodes :=
    (bytesUnder_eq_sum hpaths _).symm
  have hfits := hcommit.fits
  rw [foldl_saturatingAdd _ _ _ (Nat.zero_le _), htotal] at hfits
  rw [foldl_saturatingAdd _ _ _ (Nat.zero_le _), hkept] at hused
  have hmono := bytesUnder_mono hcommit.subset sys.store.nodes
  have husedEq : s'.used = sys.store.used + bytesUnder keep sys.store.nodes := by
    rw [hused]
    unfold saturatingAdd
    omega
  refine ⟨⟨?_, ?_, ?_⟩, hinv.limit, ?_, ?_, ?_⟩
  · simp only [husedEq, hleft]
    omega
  · simp only [hleft]
    omega
  · have happart : ∀ p ∈ keep, ∀ q ∈ sys.recorded, Apart p q := fun p hp q hq =>
      hinv.apart_recorded (hkeptTracked p hp) hq
    simp only [husedEq]
    rw [bytesUnder_mem hrecorded, bytesUnder_append happart, hstay keep fun q hq => Or.inl hq,
      hstay _ fun q hq => Or.inr hq, hinv.exact.used, Nat.add_comm]
  · simp only [hkeys]
    exact hinv.apart.filter _
  · exact (List.nodup_append.1 (hperm.nodup_iff.2 hinv.nodup)).2.1
  · intro path hpath
    rw [htracked, mem_tracked_iff h hinv.nodup] at hpath
    simp only [hkeys, List.mem_filter, decide_eq_true_eq]
    exact ⟨hinv.registered hpath.1, Or.inr hpath.2⟩

end Live

/-! ### The other operations -/

section Operations

variable {sys : CacheSystem}

/-- **A reservation is granted within the maximum.** -/
theorem CacheInv.reserve (hinv : CacheInv sys) {bytes : ℕ} {store : Store} {r : CacheReservation}
    (h : sys.quota.reserve bytes sys.store = .ok (store, r)) :
    CacheInv { sys with store := store, live := sys.live ++ [r] } := by
  have hlimit := hinv.limit
  unfold CacheQuota.reserve at h
  split_ifs at h with hover
  cases h
  have hwithin : sys.store.used + sys.store.reserved + bytes + sys.quota.controlBytes ≤
      sys.quota.maxBytes := by
    unfold saturatingAdd at hover
    omega
  have htracked : CacheSystem.tracked { sys with
      store := { sys.store with reserved := sys.store.reserved + bytes }
      live := sys.live ++ [⟨bytes, []⟩] } = sys.tracked := by
    simp [CacheSystem.tracked]
  have hrecorded : CacheSystem.recorded { sys with
      store := { sys.store with reserved := sys.store.reserved + bytes }
      live := sys.live ++ [⟨bytes, []⟩] } = sys.recorded := by
    rw [CacheSystem.recorded, htracked]
    rfl
  refine ⟨⟨?_, ?_, ?_⟩, hinv.limit, hinv.apart, htracked ▸ hinv.nodup, htracked ▸ hinv.registered⟩
  · simp only
    omega
  · have hreserved := hinv.exact.reserved
    simp only [List.map_append, List.sum_append, List.map_cons, List.map_nil, List.sum_singleton]
    omega
  · rw [hrecorded]
    exact hinv.exact.used

/-- A path that may be tracked has no bytes. -/
theorem size_of_check {s : Store} {path : RelPath} {tracking : Tracking}
    (hcheck : tracking.check s path = .ok ())
    (hfresh : (tracking == .path && s.pathExists path) = false) : s.size path = 0 := by
  cases tracking with
  | path =>
    refine bytesUnder_eq_zero fun node hnode hunder => ?_
    simp only [beq_self_eq_true, Bool.true_and] at hfresh
    have := List.any_eq_false.1 hfresh node hnode
    exact absurd hunder this
  | existingEmpty =>
    simp only [Tracking.check] at hcheck
    split_ifs at hcheck with hempty
    simpa using (Bool.and_eq_true_iff.1 hempty).2
  | emptyDirectory =>
    simp only [Tracking.check] at hcheck
    split_ifs at hcheck with hempty
    refine bytesUnder_eq_zero fun node hnode hunder => ?_
    have hall := List.all_eq_true.1 (Bool.and_eq_true_iff.1 hempty).2 node hnode
    rw [hunder] at hall
    simp only [Bool.not_true, Bool.false_or, Bool.and_eq_true] at hall
    simp [Node.bytes, hall.2]

/-- The path is new in the register; nothing else that the accounting looks at has changed. -/
structure Registered (s s' : Store) (path : RelPath) : Prop where
  used : s'.used = s.used
  reserved : s'.reserved = s.reserved
  nodes : s'.nodes = s.nodes
  keys : s'.keys = s.keys ++ [path]
  fresh : path ∉ s.keys
  empty : s.size path = 0

/-- **What tracking a path does**: nothing, or it registers the path, and the reservation has it
when the register has been saved. -/
theorem track_cases (q : CacheQuota) (disk : Disk) (r : CacheReservation) (path : RelPath)
    (tracking : Tracking) (s : Store) :
    ((r.track q disk path tracking s).1 = s ∧ (r.track q disk path tracking s).2.1 = r) ∨
    (Registered s (r.track q disk path tracking s).1 path ∧
      ((r.track q disk path tracking s).2.1 = r ∨
        (r.track q disk path tracking s).2.1 = ⟨r.bytes, r.paths ++ [path]⟩)) := by
  unfold CacheReservation.track
  cases hcheck : tracking.check s path with
  | error error => exact Or.inl ⟨rfl, rfl⟩
  | ok _ =>
    simp only
    split_ifs with hresolves hfresh
    · exact Or.inl ⟨rfl, rfl⟩
    · exact Or.inl ⟨rfl, rfl⟩
    · rw [Bool.not_eq_true, Bool.or_eq_false_iff] at hfresh
      have hnew : path ∉ s.keys := by
        rw [← hasEntry_iff, hfresh.1]
        simp
      have hempty := size_of_check hcheck hfresh.2
      refine Or.inr ?_
      unfold Store.save
      by_cases hsaves : disk.saves = true
      · rw [if_pos hsaves]
        exact ⟨⟨rfl, rfl, rfl, by simp [Store.keys], hnew, hempty⟩, Or.inr rfl⟩
      · rw [if_neg hsaves]
        exact ⟨⟨rfl, rfl, rfl, by simp [Store.keys], hnew, hempty⟩, Or.inl rfl⟩

/-- A registered path that is apart from the others keeps the register apart. -/
theorem Registered.apart {s s' : Store} {path : RelPath} (h : Registered s s' path)
    (hkeys : s.keys.Pairwise Apart) (hapart : ∀ key ∈ s.keys, Apart path key) :
    s'.keys.Pairwise Apart := by
  rw [h.keys]
  refine List.pairwise_append.2 ⟨hkeys, by simp, ?_⟩
  intro key hkey q hq
  rw [List.mem_singleton.1 hq]
  exact (hapart key hkey).symm

/-- A path that is registered for no reservation is recorded with no bytes. -/
theorem CacheInv.register (hinv : CacheInv sys) {s' : Store} {path : RelPath}
    (h : Registered sys.store s' path) (hapart : ∀ key ∈ sys.store.keys, Apart path key) :
    CacheInv { sys with store := s' } := by
  have hnot : path ∉ sys.tracked := fun hmem => h.fresh (hinv.registered hmem)
  have hrecorded : CacheSystem.recorded { sys with store := s' } = sys.recorded ++ [path] := by
    simp only [CacheSystem.recorded, h.keys, List.filter_append]
    congr 1
    exact List.filter_eq_self.2 fun q hq => by
      rw [List.mem_singleton.1 hq]
      exact decide_eq_true hnot
  refine ⟨⟨?_, ?_, ?_⟩, hinv.limit, h.apart hinv.apart hapart, hinv.nodup, ?_⟩
  · simp only [h.used, h.reserved]
    exact hinv.exact.within
  · simp only [h.reserved]
    exact hinv.exact.reserved
  · have happart : ∀ p ∈ sys.recorded, ∀ q ∈ [path], Apart p q := by
      intro p hp q hq
      rw [List.mem_singleton.1 hq]
      exact (hapart p (mem_recorded.1 hp).1).symm
    have hempty : bytesUnder [path] sys.store.nodes = 0 := h.empty
    simp only [h.used, h.nodes]
    rw [hrecorded, bytesUnder_append happart, hempty]
    exact hinv.exact.used
  · intro q hq
    simp only [h.keys]
    exact List.mem_append_left _ (hinv.registered hq)

/-- A path that is registered for a reservation is not recorded. -/
theorem CacheInv.registerFor (hinv : CacheInv sys) {i : ℕ} {r : CacheReservation}
    (hi : sys.live[i]? = some r) {s' : Store} {path : RelPath} (h : Registered sys.store s' path)
    (hapart : ∀ key ∈ sys.store.keys, Apart path key) :
    CacheInv { sys with store := s', live := sys.live.set i ⟨r.bytes, r.paths ++ [path]⟩ } := by
  obtain ⟨hlt, -⟩ := List.getElem?_eq_some_iff.1 hi
  have hnot : path ∉ sys.tracked := fun hmem => h.fresh (hinv.registered hmem)
  have hset := List.set_perm_cons_eraseIdx hlt (⟨r.bytes, r.paths ++ [path]⟩ : CacheReservation)
  have htracked : (CacheSystem.tracked { sys with
      store := s', live := sys.live.set i ⟨r.bytes, r.paths ++ [path]⟩ }).Perm
        (path :: sys.tracked) := by
    refine (hset.flatMap_right CacheReservation.paths).trans ?_
    rw [List.flatMap_cons, List.append_assoc]
    exact List.perm_middle.trans ((tracked_perm hi).cons path)
  have hsum : ((sys.live.set i ⟨r.bytes, r.paths ++ [path]⟩).map CacheReservation.bytes).sum =
      (sys.live.map CacheReservation.bytes).sum := by
    rw [(hset.map CacheReservation.bytes).sum_eq, List.map_cons, List.sum_cons,
      ← ((live_perm hi).map CacheReservation.bytes).sum_eq, List.map_cons, List.sum_cons]
  have hrecorded : ∀ q, q ∈ CacheSystem.recorded { sys with
      store := s', live := sys.live.set i ⟨r.bytes, r.paths ++ [path]⟩ } ↔ q ∈ sys.recorded := by
    intro q
    rw [mem_recorded, mem_recorded, htracked.mem_iff, h.keys]
    by_cases hq : q = path
    · simp [hq, h.fresh]
    · simp [hq]
  refine ⟨⟨?_, ?_, ?_⟩, hinv.limit, h.apart hinv.apart hapart, ?_, ?_⟩
  · simp only [h.used, h.reserved]
    exact hinv.exact.within
  · simp only [h.reserved]
    exact hinv.exact.reserved.trans hsum.symm
  · simp only [h.used, h.nodes]
    rw [bytesUnder_mem hrecorded]
    exact hinv.exact.used
  · exact htracked.nodup_iff.2 (List.nodup_cons.2 ⟨hnot, hinv.nodup⟩)
  · intro q hq
    simp only [h.keys]
    rcases List.mem_cons.1 (htracked.mem_iff.1 hq) with rfl | hq
    · simp
    · exact List.mem_append_left _ (hinv.registered hq)

/-- **Tracking a path keeps the accounting exact**, saved or not, when the path is apart from the
registered ones. -/
theorem CacheInv.track (hinv : CacheInv sys) {i : ℕ} {r : CacheReservation}
    (h : sys.live[i]? = some r) {path : RelPath} (hapart : ∀ key ∈ sys.store.keys, Apart path key)
    (tracking : Tracking) (disk : Disk) :
    CacheInv { sys with
      store := (r.track sys.quota disk path tracking sys.store).1
      live := sys.live.set i (r.track sys.quota disk path tracking sys.store).2.1 } := by
  have hself : sys.live.set i r = sys.live := by
    obtain ⟨hlt, hget⟩ := List.getElem?_eq_some_iff.1 h
    rw [← hget, List.set_getElem_self]
  rcases track_cases sys.quota disk r path tracking sys.store with
    ⟨hstore, hr⟩ | ⟨hregistered, hr | hr⟩
  · rw [hstore, hr, hself]
    exact hinv
  · rw [hr, hself]
    exact hinv.register hregistered hapart
  · rw [hr]
    exact hinv.registerFor h hregistered hapart

/-- **What is written below a tracked path** does not concern the recorded ones. -/
theorem CacheInv.write (hinv : CacheInv sys) {node : Node Text}
    (h : ∃ path ∈ sys.tracked, path <+: node.path) :
    CacheInv { sys with store := sys.store.write node } := by
  obtain ⟨path, hpath, hpre⟩ := h
  have hnot : ∀ old : Node Text, old.path = node.path → under sys.recorded old = false := by
    intro old hold
    rw [← Bool.not_eq_true, under_iff]
    rintro ⟨q, hq, hpre'⟩
    exact (hinv.apart_recorded hpath hq).not_under hpre (hold ▸ hpre')
  refine ⟨⟨hinv.exact.within, hinv.exact.reserved, ?_⟩, hinv.limit, hinv.apart, hinv.nodup,
    hinv.registered⟩
  have hrecorded : CacheSystem.recorded { sys with store := sys.store.write node } =
      sys.recorded := rfl
  rw [hrecorded]
  simp only [Store.write]
  rw [bytesUnder_cons_of_not (hnot node rfl), bytesUnder_filter]
  · exact hinv.exact.used
  · intro old _ hunder
    have hne : old.path ≠ node.path := fun heq => by simp [hnot old heq] at hunder
    simpa using hne

/-- **Removing a recorded path** gives its bytes back. -/
theorem CacheInv.remove (hinv : CacheInv sys) {path : RelPath} {disk : Disk}
    (hpath : path ∉ sys.tracked) (hremovable : disk.removable path = true) :
    CacheInv { sys with store := (sys.store.remove disk path).1 } := by
  unfold Store.remove
  split_ifs with hresolves hentry hreadable
  · exact hinv
  · exact hinv
  · exact hinv
  · rw [Bool.not_eq_true', Bool.not_eq_false, hasEntry_iff] at hentry
    simp only [Store.removePath, if_pos hremovable, if_true]
    set s' := (Store.save disk (Store.erase { sys.store with
      nodes := prune path sys.store.nodes
      used := sys.store.used - sys.store.size path } path)).1 with hs'
    have hused : s'.used = sys.store.used - sys.store.size path := by rw [hs', save_used]; rfl
    have hreserved : s'.reserved = sys.store.reserved := by rw [hs', save_reserved]; rfl
    have hnodes : s'.nodes = prune path sys.store.nodes := by rw [hs', save_nodes]; rfl
    have hkeys : s'.keys = sys.store.keys.filter fun key => decide (key ≠ path) := by
      rw [Store.keys, hs', save_entries]
      simp only [Store.erase, Store.keys, List.filter_map]
      congr 1
      refine List.filter_congr fun entry _ => ?_
      by_cases heq : entry.1 = path <;> simp [heq]
    clear_value s'
    have hmem : ∀ q, q ∈ CacheSystem.recorded { sys with store := s' } ↔
        q ∈ sys.recorded ∧ q ≠ path := by
      intro q
      rw [mem_recorded, mem_recorded]
      simp only [hkeys, List.mem_filter, decide_eq_true_eq]
      exact and_right_comm
    have happart : ∀ q ∈ CacheSystem.recorded { sys with store := s' }, Apart path q := by
      intro q hq
      obtain ⟨hq, hne⟩ := (hmem q).1 hq
      exact hinv.apart_of_ne hentry (mem_recorded.1 hq).1 (Ne.symm hne)
    -- the bytes of the recorded paths are those of this one and of the others
    have hsplit : bytesUnder sys.recorded sys.store.nodes = bytesUnder [path] sys.store.nodes +
        bytesUnder (CacheSystem.recorded { sys with store := s' }) sys.store.nodes := by
      have happart' : ∀ p ∈ [path], ∀ q ∈ CacheSystem.recorded { sys with store := s' },
          Apart p q := by
        intro p hp q hq
        rw [List.mem_singleton.1 hp]
        exact happart q hq
      rw [← bytesUnder_append happart']
      refine bytesUnder_mem (fun q => ?_) _
      rw [List.mem_append, List.mem_singleton, hmem]
      by_cases hq : q = path
      · simp [hq, mem_recorded, hentry, hpath]
      · simp [hq]
    have hexact := hinv.exact.used
    have hwithin := hinv.exact.within
    have hsize : sys.store.size path = bytesUnder [path] sys.store.nodes := rfl
    refine ⟨⟨?_, ?_, ?_⟩, hinv.limit, ?_, hinv.nodup, ?_⟩
    · simp only [hused, hreserved]
      omega
    · simp only [hreserved]
      exact hinv.exact.reserved
    · simp only [hused, hnodes]
      rw [bytesUnder_prune happart]
      omega
    · simp only [hkeys]
      exact hinv.apart.filter _
    · intro q hq
      simp only [hkeys, List.mem_filter, decide_eq_true_eq]
      exact ⟨hinv.registered hq, fun heq => hpath (heq ▸ hq)⟩

end Operations

/-! ### Runs -/

/-- The events that the accounting survives: a tracked path is apart from the registered ones,
writers write below their paths, a commit is saved when it comes to that, names no path twice and
is cleaned up when it fails, a drop is cleaned up, and only recorded paths are removed. -/
def Survives (sys : CacheSystem) : CacheEvent → Prop
  | .reserve _ => True
  | .track _ path _ _ => ∀ key ∈ sys.store.keys, Apart path key
  | .write node => ∃ path ∈ sys.tracked, path <+: node.path
  | .commit i keep _ disk after => keep.Nodup ∧ disk.saves = true ∧
      ∀ r ∈ sys.live[i]?, ∀ path ∈ r.paths, after.removable path = true
  | .drop i disk => ∀ r ∈ sys.live[i]?, ∀ path ∈ r.paths, disk.removable path = true
  | .remove path disk => path ∉ sys.tracked ∧ disk.removable path = true

/-- A commit that fails leaves the store as a drop does. -/
def FailsAsDrop (sys : CacheSystem) : CacheEvent → Prop
  | .commit i keep before disk after => ∀ r ∈ sys.live[i]?,
      (r.finish before disk after keep sys.store).2 ≠ none →
        (r.finish before disk after keep sys.store).1 = r.drop after sys.store
  | _ => True

/-- **One event keeps the accounting exact.** -/
theorem CacheInv.step {sys sys' : CacheSystem} {event : CacheEvent} (hinv : CacheInv sys)
    (hsurvives : Survives sys event) (h : cacheStep sys event = .ok sys') : CacheInv sys' := by
  cases event with
  | reserve bytes =>
    simp only [cacheStep] at h
    cases hreserve : sys.quota.reserve bytes sys.store with
    | error error =>
      rw [hreserve] at h
      cases h
    | ok granted =>
      rw [hreserve] at h
      cases h
      exact hinv.reserve hreserve
  | track i path tracking disk =>
    simp only [cacheStep] at h
    split at h
    · cases h
    next r hr =>
      cases h
      exact hinv.track hr hsurvives tracking disk
  | write node =>
    cases h
    exact hinv.write hsurvives
  | commit i keep before disk after =>
    obtain ⟨hkeep, hsaves, hcleanup⟩ := hsurvives
    simp only [cacheStep] at h
    split at h
    · cases h
    next r hr =>
      cases h
      have hcleanup := hcleanup r hr
      by_cases hfailed : (r.finish before disk after keep sys.store).2 = none
      · -- the commit has succeeded
        have hcommit : r.commit before disk keep sys.store =
            ((r.finish before disk after keep sys.store).1, none) := by
          unfold CacheReservation.finish at hfailed ⊢
          cases hcommit : r.commit before disk keep sys.store with
          | mk s' outcome =>
            cases outcome with
            | none => rfl
            | some error => simp [hcommit] at hfailed
        exact hinv.commit hr hkeep (commit_ok hcommit)
      · rw [commit_failed hsaves hcleanup hfailed]
        exact hinv.drop hr hcleanup
  | drop i disk =>
    simp only [cacheStep] at h
    split at h
    · cases h
    next r hr =>
      cases h
      exact hinv.drop hr (hsurvives r hr)
  | remove path disk =>
    cases h
    exact hinv.remove hsurvives.1 hsurvives.2

theorem failsAsDrop_of_survives {sys : CacheSystem} {event : CacheEvent}
    (hsurvives : Survives sys event) : FailsAsDrop sys event := by
  cases event with
  | commit i keep before disk after =>
    obtain ⟨-, hsaves, hcleanup⟩ := hsurvives
    intro r hr hfailed
    exact commit_failed hsaves (hcleanup r hr) hfailed
  | _ => exact True.intro

/-- The quota starts within its maximum, with registered paths that are apart. -/
structure StartsWithin (sys : CacheSystem) : Prop where
  limit : sys.quota.maxBytes < u64Max
  apart : sys.store.keys.Pairwise Apart
  within : sys.store.used + sys.quota.controlBytes ≤ sys.quota.maxBytes

/-- An opened quota has measured what is recorded. -/
theorem cacheInv_openCache {q : CacheQuota} {disk : Disk} {controls : ℕ} {ledger : Entries}
    {nodes : List (Node Text)} {sys : CacheSystem}
    (hopen : q.openCache disk controls ledger nodes = .ok sys) (hstarts : StartsWithin sys) :
    CacheInv sys := by
  unfold CacheQuota.openCache at hopen
  dsimp only at hopen
  split_ifs at hopen
  cases hopen
  refine ⟨⟨hstarts.within, rfl, ?_⟩, hstarts.limit, hstarts.apart, List.nodup_nil,
    by simp [CacheSystem.tracked]⟩
  simp [CacheSystem.recorded, CacheSystem.tracked, Store.keys]

/-- **Over runs that the accounting survives the quota is exact at every point, and a commit that
fails leaves what a drop leaves.** -/
theorem quota_exact {q : CacheQuota} {disk : Disk} {controls : ℕ} {ledger : Entries}
    {nodes : List (Node Text)} {sys : CacheSystem} {events : List CacheEvent}
    (hopen : q.openCache disk controls ledger nodes = .ok sys) (hstarts : StartsWithin sys)
    (hrun : AllSteps cacheStep Survives sys events) :
    ∀ done rest, events = done ++ rest → Exact (runCache sys done) ∧
      ∀ event ∈ rest.head?, FailsAsDrop (runCache sys done) event := by
  have hinv := cacheInv_openCache hopen hstarts
  clear hopen hstarts
  induction events generalizing sys with
  | nil =>
    intro done rest heq
    obtain ⟨rfl, rfl⟩ := List.append_eq_nil_iff.1 heq.symm
    exact ⟨hinv.exact, by simp⟩
  | cons event events ih =>
    obtain ⟨hevent, hrest⟩ := hrun
    have hnext : CacheInv (applyEvent cacheStep sys event) :=
      applyEvent_keeps hinv fun s' hs => hinv.step hevent hs
    intro done rest heq
    cases done with
    | nil =>
      rw [List.nil_append] at heq
      subst heq
      refine ⟨hinv.exact, ?_⟩
      simp only [List.head?_cons, Option.mem_some_iff, forall_eq']
      exact failsAsDrop_of_survives hevent
    | cons first done =>
      obtain ⟨hfirst, htail⟩ := List.cons.inj heq
      subst hfirst
      exact ih hrest hnext done rest htail

/-! ### A commit that is not saved -/

/-- A file system where everything succeeds but, perhaps, saving the control file. -/
def goodDisk (saves : Bool) : Disk where
  resolves _ := true
  readable _ := true
  removable _ := true
  leaves _ _ := false
  saves := saves
  error := reportError "PROCESSING_IO" "处理区写入失败"

/-- The events in which nothing fails but the saves. -/
def OnlySavesFail : CacheEvent → Prop
  | .reserve _ => True
  | .track _ _ _ disk => disk = goodDisk disk.saves
  | .write _ => True
  | .commit _ _ before disk after =>
    before = goodDisk before.saves ∧ disk = goodDisk disk.saves ∧ after = goodDisk after.saves
  | .drop _ disk => disk = goodDisk disk.saves
  | .remove _ disk => disk = goodDisk disk.saves

/-- A small empty quota. -/
def smallQuota : CacheSystem := ⟨⟨100, 10, 0⟩, ⟨0, 0, [], [], []⟩, []⟩

/-- A file of the processing area. -/
def notePath : RelPath := [['a']]

/-- Two reservations, of which the first one is committed, with or without the last save. -/
def commitRun (saves : Bool) : List CacheEvent :=
  [.reserve 20, .reserve 30, .track 0 notePath .path (goodDisk true), .write ⟨notePath, false, 15⟩,
   .commit 0 [notePath] (goodDisk true) (goodDisk saves) (goodDisk true)]

/-- **A commit that is not saved makes the quota wrong**: the other reservation loses its bytes. -/
theorem commit_unsaved : ¬ ∀ (q : CacheQuota) (disk : Disk) (sys : CacheSystem)
    (events : List CacheEvent), q.openCache disk 0 [] [] = .ok sys → StartsWithin sys →
      (∀ event ∈ events, OnlySavesFail event) →
      Exact (runCache sys events) ∧
        ∀ done event rest, events = done ++ event :: rest →
          FailsAsDrop (runCache sys done) event := by
  intro h
  have hstarts : StartsWithin smallQuota := ⟨by decide, by decide, by decide⟩
  have honly : ∀ event ∈ commitRun false, OnlySavesFail event := by
    simp [commitRun, OnlySavesFail, goodDisk]
  have hopen : CacheQuota.openCache ⟨100, 10, 0⟩ (goodDisk true) 0 [] [] = .ok smallQuota := rfl
  obtain ⟨hexact, -⟩ := h _ _ _ _ hopen hstarts honly
  revert hexact
  decide

/-- The same run with the save. -/
theorem survives_commitRun : AllSteps cacheStep Survives smallQuota (commitRun true) := by
  refine ⟨trivial, trivial, ?_, ?_, ?_, trivial⟩
  · -- nothing is registered yet
    intro key hkey
    cases hkey
  · exact ⟨notePath, by decide, List.prefix_refl _⟩
  · exact ⟨by decide, rfl, fun _ _ _ _ => rfl⟩

/-- The same run with the save is exact before its commit and fails there as a drop would. -/
theorem quota_exact_commitRun : Exact (runCache smallQuota ((commitRun true).take 4)) ∧
    ∀ event ∈ ((commitRun true).drop 4).head?,
      FailsAsDrop (runCache smallQuota ((commitRun true).take 4)) event :=
  have hopen : CacheQuota.openCache ⟨100, 10, 0⟩ (goodDisk true) 0 [] [] = .ok smallQuota := rfl
  quota_exact hopen ⟨by decide, by decide, by decide⟩ survives_commitRun _ _
    (List.take_append_drop 4 _).symm

end DailyReport.Cache
