import Mathlib.Data.List.AList
import Mathlib.Data.List.Perm.Lattice

/-!
# Lists with keys

Items that carry a key: the index of a list (`indexBy`), and the replacement of the items of a list
by new ones with the same keys (`replaceOnce`).  Under distinct keys the index holds every item
(`lookup_indexBy`) and replacing is a map (`replaceOnce_fst`).
-/

namespace Lib

variable {K α : Type} [DecidableEq K] (key : α → K)

/-- The last item with each key. -/
def indexBy (items : List α) : AList fun _ : K => α :=
  items.foldl (fun index item => index.insert (key item) item) ∅

/-- Replace every item by the new one with its key; a new item is used once, and those left over are
returned. -/
def replaceOnce : (AList fun _ : K => α) → List α → List α × AList fun _ : K => α
  | new, [] => ([], new)
  | new, old :: rest =>
    match new.lookup (key old) with
    | some item =>
      let replaced := replaceOnce (new.erase (key old)) rest
      (item :: replaced.1, replaced.2)
    | none =>
      let replaced := replaceOnce new rest
      (old :: replaced.1, replaced.2)

/-- The items after replacing, then the new ones that are left over. -/
def mergeOnce (new : AList fun _ : K => α) (items : List α) : List α :=
  (replaceOnce key new items).1 ++ (replaceOnce key new items).2.entries.map fun entry => entry.2

variable {key}

/-! ### The union of maps -/

theorem lookup_union {k : K} (s t : AList fun _ : K => α) :
    (s ∪ t).lookup k = (s.lookup k).or (t.lookup k) := by
  by_cases h : k ∈ s
  · rw [AList.lookup_union_left h]
    obtain ⟨a, ha⟩ := Option.isSome_iff_exists.1 (AList.lookup_isSome.2 h)
    rw [ha]
    rfl
  · rw [AList.lookup_union_right h, AList.lookup_eq_none.2 h]
    rfl

/-! ### The index of a list -/

theorem lookup_foldl_insert {items : List α} {index : AList fun _ : K => α} {k : K} {item : α}
    (h : (items.foldl (fun index item => index.insert (key item) item) index).lookup k =
      some item) : item ∈ items ∧ key item = k ∨ index.lookup k = some item := by
  induction items generalizing index with
  | nil => exact .inr h
  | cons first rest ih =>
    rcases ih h with ⟨hmem, hkey⟩ | hlook
    · exact .inl ⟨List.mem_cons_of_mem _ hmem, hkey⟩
    · by_cases hk : k = key first
      · subst hk
        rw [AList.lookup_insert, Option.some.injEq] at hlook
        exact .inl ⟨by simp [hlook], by rw [hlook]⟩
      · rw [AList.lookup_insert_ne hk] at hlook
        exact .inr hlook

/-- What the index holds is an item with that key. -/
theorem mem_of_lookup_indexBy {items : List α} {k : K} {item : α}
    (h : (indexBy key items).lookup k = some item) : item ∈ items ∧ key item = k := by
  rcases lookup_foldl_insert h with h | h
  · exact h
  · cases h

theorem mem_indexBy {items : List α} {k : K} : k ∈ indexBy key items ↔ k ∈ items.map key := by
  have h : ∀ index : AList fun _ : K => α,
      k ∈ items.foldl (fun index item => index.insert (key item) item) index ↔
        k ∈ items.map key ∨ k ∈ index := by
    induction items with
    | nil => simp
    | cons first rest ih =>
      intro index
      rw [List.foldl_cons, ih, AList.mem_insert, List.map_cons, List.mem_cons]
      tauto
  rw [indexBy, h ∅]
  simp

/-- Under distinct keys the index holds every item. -/
theorem lookup_indexBy {items : List α} (hnodup : (items.map key).Nodup) {item : α}
    (hitem : item ∈ items) : (indexBy key items).lookup (key item) = some item := by
  have hmem : key item ∈ indexBy key items := mem_indexBy.2 (List.mem_map_of_mem hitem)
  obtain ⟨other, hother⟩ := Option.isSome_iff_exists.1 (AList.lookup_isSome.2 hmem)
  obtain ⟨hin, hkey⟩ := mem_of_lookup_indexBy hother
  rw [hother, List.inj_on_of_nodup_map hnodup hin hitem hkey]

theorem lookup_indexBy_iff {items : List α} (hnodup : (items.map key).Nodup) {k : K} {item : α} :
    (indexBy key items).lookup k = some item ↔ item ∈ items ∧ key item = k := by
  constructor
  · exact mem_of_lookup_indexBy
  · rintro ⟨hitem, rfl⟩
    exact lookup_indexBy hnodup hitem

theorem lookup_indexBy_eq_none {items : List α} {k : K} :
    (indexBy key items).lookup k = none ↔ k ∉ items.map key := by
  rw [AList.lookup_eq_none, mem_indexBy]

/-! ### Replacing items -/

theorem lookup_erase_of_ne {k j : K} (h : j ≠ k) (s : AList fun _ : K => α) :
    (s.erase k).lookup j = s.lookup j := AList.lookup_erase_ne h

/-- Under distinct keys replacing is a map. -/
theorem replaceOnce_fst (new : AList fun _ : K => α) {items : List α}
    (hnodup : (items.map key).Nodup) :
    (replaceOnce key new items).1 = items.map fun old => (new.lookup (key old)).getD old := by
  induction items generalizing new with
  | nil => rfl
  | cons old rest ih =>
    rw [List.map_cons, List.nodup_cons] at hnodup
    cases hlook : new.lookup (key old) with
    | none =>
      simp only [replaceOnce, hlook, List.map_cons, Option.getD_none]
      rw [ih new hnodup.2]
    | some item =>
      simp only [replaceOnce, hlook, List.map_cons, Option.getD_some]
      rw [ih _ hnodup.2]
      congr 1
      refine List.map_congr_left fun other hother => ?_
      rw [lookup_erase_of_ne]
      rintro heq
      exact hnodup.1 (heq ▸ List.mem_map_of_mem hother)

/-- The new items that no old one had the key of are left over. -/
theorem lookup_replaceOnce_snd (new : AList fun _ : K => α) (items : List α) {k : K} :
    (replaceOnce key new items).2.lookup k =
      if k ∈ items.map key then none else new.lookup k := by
  induction items generalizing new with
  | nil => simp [replaceOnce]
  | cons old rest ih =>
    cases hlook : new.lookup (key old) with
    | none =>
      simp only [replaceOnce, hlook, ih, List.map_cons, List.mem_cons]
      by_cases hk : k = key old
      · subst hk
        simp [hlook]
      · simp [hk]
    | some item =>
      simp only [replaceOnce, hlook, ih, List.map_cons, List.mem_cons]
      by_cases hk : k = key old
      · subst hk
        simp
      · simp [hk, lookup_erase_of_ne hk]

/-- An entry of a map is what the map holds under its key. -/
theorem mem_values_iff {s : AList fun _ : K => α} {item : α} :
    item ∈ s.entries.map (fun entry => entry.2) ↔ ∃ k, s.lookup k = some item := by
  rw [List.mem_map]
  constructor
  · rintro ⟨⟨k, a⟩, hentry, rfl⟩
    exact ⟨k, AList.mem_lookup_iff.2 hentry⟩
  · rintro ⟨k, hk⟩
    exact ⟨⟨k, item⟩, AList.mem_lookup_iff.1 hk, rfl⟩

/-! ### Merging items -/

/-- A merged list has the new items, and the old ones whose key no new item has. -/
theorem mem_mergeOnce {news items : List α} (hnews : (news.map key).Nodup)
    (hitems : (items.map key).Nodup) {item : α} :
    item ∈ mergeOnce key (indexBy key news) items ↔
      item ∈ news ∨ item ∈ items ∧ key item ∉ news.map key := by
  rw [mergeOnce, List.mem_append, mem_values_iff, replaceOnce_fst _ hitems, List.mem_map]
  constructor
  · rintro (⟨old, hold, rfl⟩ | ⟨k, hk⟩)
    · cases hlook : (indexBy key news).lookup (key old) with
      | none => exact .inr ⟨hold, lookup_indexBy_eq_none.1 hlook⟩
      | some item => exact .inl (mem_of_lookup_indexBy hlook).1
    · rw [lookup_replaceOnce_snd] at hk
      split_ifs at hk
      exact .inl (mem_of_lookup_indexBy hk).1
  · rintro (hitem | ⟨hitem, hkey⟩)
    · by_cases hold : key item ∈ items.map key
      · obtain ⟨old, hold, hkey⟩ := List.mem_map.1 hold
        refine .inl ⟨old, hold, ?_⟩
        rw [hkey, lookup_indexBy hnews hitem]
        rfl
      · refine .inr ⟨key item, ?_⟩
        rw [lookup_replaceOnce_snd, if_neg hold, lookup_indexBy hnews hitem]
    · refine .inl ⟨item, hitem, ?_⟩
      rw [lookup_indexBy_eq_none.2 hkey]
      rfl

/-- Replacing keeps the keys. -/
theorem map_key_replaceOnce {news items : List α} (hitems : (items.map key).Nodup) :
    (replaceOnce key (indexBy key news) items).1.map key = items.map key := by
  rw [replaceOnce_fst _ hitems, List.map_map]
  refine List.map_congr_left fun old _ => ?_
  cases hlook : (indexBy key news).lookup (key old) with
  | none => simp [hlook]
  | some item => simpa [hlook] using (mem_of_lookup_indexBy hlook).2

/-- The keys of a merged list are distinct. -/
theorem nodup_mergeOnce {news items : List α} (hitems : (items.map key).Nodup) :
    ((mergeOnce key (indexBy key news) items).map key).Nodup := by
  rw [mergeOnce, List.map_append, map_key_replaceOnce hitems, List.nodup_append]
  set left := (replaceOnce key (indexBy key news) items).2 with hleft
  -- an entry that is left over sits under its own key
  have hentry : ∀ entry ∈ left.entries, key entry.2 = entry.1 ∧ entry.1 ∉ items.map key := by
    rintro ⟨k, item⟩ hentry
    have hlook : left.lookup k = some item := AList.mem_lookup_iff.2 hentry
    rw [hleft, lookup_replaceOnce_snd] at hlook
    split_ifs at hlook with hk
    exact ⟨(mem_of_lookup_indexBy hlook).2, hk⟩
  refine ⟨hitems, ?_, ?_⟩
  · have hkeys : (left.entries.map fun entry => entry.2).map key = left.keys := by
      rw [List.map_map]
      exact List.map_congr_left fun entry h => (hentry entry h).1
    rw [hkeys]
    exact left.keys_nodup
  · rintro k hk j hj rfl
    obtain ⟨item, hitem, rfl⟩ := List.mem_map.1 hj
    obtain ⟨entry, h, rfl⟩ := List.mem_map.1 hitem
    rw [(hentry entry h).1] at hk
    exact (hentry entry h).2 hk

/-- Replacing every item of a list whose keys the new items have. -/
theorem mem_replaceOnce {news items : List α} (hnews : (news.map key).Nodup)
    (hitems : (items.map key).Nodup) (hsubset : news.map key ⊆ items.map key) {item : α} :
    item ∈ (replaceOnce key (indexBy key news) items).1 ↔
      item ∈ news ∨ item ∈ items ∧ key item ∉ news.map key := by
  rw [← mem_mergeOnce hnews hitems, mergeOnce, List.mem_append, mem_values_iff]
  refine ⟨.inl, fun h => h.resolve_right ?_⟩
  rintro ⟨k, hk⟩
  rw [lookup_replaceOnce_snd] at hk
  split_ifs at hk with hkeys
  obtain ⟨hmem, rfl⟩ := mem_of_lookup_indexBy hk
  exact hkeys (hsubset (List.mem_map_of_mem hmem))

/-- An item is found under its key, where keys are distinct. -/
theorem find?_key {items : List α} (hnodup : (items.map key).Nodup) {item : α}
    (hitem : item ∈ items) :
    (items.find? fun other => decide (key other = key item)) = some item := by
  cases h : items.find? fun other => decide (key other = key item) with
  | none =>
    rw [List.find?_eq_none] at h
    simpa using h item hitem
  | some other =>
    have hkey := List.find?_some h
    rw [decide_eq_true_iff] at hkey
    rw [List.inj_on_of_nodup_map hnodup (List.mem_of_find?_eq_some h) hitem hkey]

theorem find?_key_eq_none {items : List α} {k : K} (h : k ∉ items.map key) :
    (items.find? fun other => decide (key other = k)) = none := by
  rw [List.find?_eq_none]
  intro item hitem heq
  rw [decide_eq_true_iff] at heq
  exact h (heq ▸ List.mem_map_of_mem hitem)

end Lib
