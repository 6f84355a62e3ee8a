import Mathlib.Data.List.Nodup
import Mathlib.Tactic.Common

/-!
# Inserting rows, or replacing those with the same key

`replace old row` is what becomes of an old row when `row` is inserted with its key.  Of the rows
that are inserted one after the other the last with each key stay (`lastWrites`).

* `of_mem_upsertAll` : where the rows come from after the inserts;
* `mem_upsertAll` : **what the rows are**, where a replacement is the new row itself.
-/

namespace Lib

variable {α κ : Type} [DecidableEq κ]

/-- Insert a row, or replace the one with its key. -/
def upsert (key : α → κ) (replace : α → α → α) (rows : List α) (row : α) : List α :=
  if key row ∈ rows.map key then
    rows.map fun old => if key old = key row then replace old row else old
  else rows ++ [row]

/-- The rows that no later one of the list replaces. -/
def lastWrites (key : α → κ) : List α → List α
  | [] => []
  | row :: later =>
    if key row ∈ later.map key then lastWrites key later else row :: lastWrites key later

variable {key : α → κ} {replace : α → α → α} {rows news : List α} {a row : α}

theorem mem_of_mem_lastWrites (h : a ∈ lastWrites key news) : a ∈ news := by
  induction news with
  | nil => cases h
  | cons row later ih =>
    unfold lastWrites at h
    split_ifs at h
    · exact List.mem_cons_of_mem _ (ih h)
    · rcases List.mem_cons.1 h with rfl | h
      · exact List.mem_cons_self
      · exact List.mem_cons_of_mem _ (ih h)

/-- The keys stay apart. -/
theorem nodup_upsert (hkey : ∀ old new, key old = key new → key (replace old new) = key new)
    (h : (rows.map key).Nodup) : ((upsert key replace rows row).map key).Nodup := by
  unfold upsert
  split_ifs with hmem
  · have hsame : (rows.map fun old => if key old = key row then replace old row else old).map key =
        rows.map key := by
      rw [List.map_map]
      refine List.map_congr_left fun old _ => ?_
      dsimp only [Function.comp]
      split_ifs with heq
      · rw [hkey old row heq, heq]
      · rfl
    rwa [hsame]
  · rw [List.map_append, List.nodup_append]
    refine ⟨h, List.nodup_singleton _, ?_⟩
    rintro k hk k' hk' rfl
    exact hmem (List.mem_singleton.1 hk' ▸ hk)

theorem nodup_upsertAll (hkey : ∀ old new, key old = key new → key (replace old new) = key new)
    (h : (rows.map key).Nodup) : ((news.foldl (upsert key replace) rows).map key).Nodup := by
  induction news generalizing rows with
  | nil => exact h
  | cons row news ih => exact ih (nodup_upsert hkey h)

/-- Where a row comes from after an insert. -/
theorem of_mem_upsert (h : a ∈ upsert key replace rows row) :
    a ∈ rows ∧ key a ≠ key row ∨ a = row ∨ ∃ old, key old = key row ∧ a = replace old row := by
  unfold upsert at h
  split_ifs at h with hmem
  · obtain ⟨old, hold, rfl⟩ := List.mem_map.1 h
    split_ifs with heq
    · exact .inr (.inr ⟨old, heq, rfl⟩)
    · exact .inl ⟨hold, heq⟩
  · rcases List.mem_append.1 h with h | h
    · exact .inl ⟨h, fun heq => hmem (List.mem_map.2 ⟨a, h, heq⟩)⟩
    · exact .inr (.inl (List.mem_singleton.1 h))

/-- **Where a row comes from after the inserts**: it was there, or it is the last with its key. -/
theorem of_mem_upsertAll (hkey : ∀ old new, key old = key new → key (replace old new) = key new)
    (h : a ∈ news.foldl (upsert key replace) rows) :
    (a ∈ rows ∧ ∀ b ∈ news, key b ≠ key a) ∨
      ∃ b ∈ lastWrites key news, a = b ∨ ∃ old, key old = key b ∧ a = replace old b := by
  induction news generalizing rows with
  | nil => exact .inl ⟨h, nofun⟩
  | cons row news ih =>
    rcases ih h with ⟨hmem, hnew⟩ | ⟨b, hb, hab⟩
    · rcases of_mem_upsert hmem with ⟨hmem, hne⟩ | hrow
      · exact .inl ⟨hmem, List.forall_mem_cons.2 ⟨Ne.symm hne, hnew⟩⟩
      · have hkeys : key a = key row := by
          rcases hrow with rfl | ⟨old, hold, rfl⟩
          · rfl
          · exact hkey old row hold
        have hlast : key row ∉ news.map key := by
          intro hlater
          obtain ⟨b, hb, hbrow⟩ := List.mem_map.1 hlater
          exact hnew b hb (hbrow.trans hkeys.symm)
        refine .inr ⟨row, ?_, hrow⟩
        rw [lastWrites, if_neg hlast]
        exact List.mem_cons_self
    · refine .inr ⟨b, ?_, hab⟩
      unfold lastWrites
      split_ifs
      · exact hb
      · exact List.mem_cons_of_mem _ hb

/-- What the rows are after an insert, where a replacement is the new row itself. -/
theorem mem_upsert (hreplace : ∀ old ∈ rows, key old = key row → replace old row = row) :
    a ∈ upsert key replace rows row ↔ a ∈ rows ∧ key a ≠ key row ∨ a = row := by
  unfold upsert
  split_ifs with hmem
  · rw [List.mem_map]
    constructor
    · rintro ⟨old, hold, rfl⟩
      split_ifs with heq
      · exact .inr (hreplace old hold heq)
      · exact .inl ⟨hold, heq⟩
    · rintro (⟨ha, hne⟩ | rfl)
      · exact ⟨a, ha, if_neg hne⟩
      · obtain ⟨old, hold, heq⟩ := List.mem_map.1 hmem
        exact ⟨old, hold, (if_pos heq).trans (hreplace old hold heq)⟩
  · rw [List.mem_append, List.mem_singleton]
    constructor
    · rintro (ha | rfl)
      · exact .inl ⟨ha, fun heq => hmem (List.mem_map.2 ⟨a, ha, heq⟩)⟩
      · exact .inr rfl
    · rintro (⟨ha, -⟩ | rfl)
      · exact .inl ha
      · exact .inr rfl

/-- **What the rows are after the inserts**: those whose key was not written, and the last ones of
the written keys. -/
theorem mem_upsertAll {P : α → Prop} (hP : ∀ old new, P old → P new → replace old new = new)
    (hrows : ∀ a ∈ rows, P a) (hnews : ∀ a ∈ news, P a) :
    a ∈ news.foldl (upsert key replace) rows ↔
      (a ∈ rows ∧ ∀ b ∈ news, key b ≠ key a) ∨ a ∈ lastWrites key news := by
  induction news generalizing rows with
  | nil => simp [lastWrites]
  | cons row news ih =>
    obtain ⟨hrow, hnews⟩ := List.forall_mem_cons.1 hnews
    have hmem : ∀ {a}, a ∈ upsert key replace rows row ↔ a ∈ rows ∧ key a ≠ key row ∨ a = row :=
      mem_upsert fun old hold _ => hP old row (hrows old hold) hrow
    have hrows' : ∀ a ∈ upsert key replace rows row, P a := by
      intro a ha
      rcases hmem.1 ha with ⟨ha, -⟩ | rfl
      · exact hrows a ha
      · exact hrow
    rw [List.foldl_cons, ih hrows' hnews, hmem, List.forall_mem_cons, lastWrites]
    have hlater : key row ∈ news.map key ↔ ∃ b ∈ news, key b = key row := List.mem_map
    split_ifs with hlast
    · obtain ⟨b, hb, hbrow⟩ := hlater.1 hlast
      constructor
      · rintro (⟨⟨ha, hne⟩ | rfl, hnew⟩ | ha)
        · exact .inl ⟨ha, Ne.symm hne, hnew⟩
        · exact absurd hbrow (hnew b hb)
        · exact .inr ha
      · rintro (⟨ha, hne, hnew⟩ | ha)
        · exact .inl ⟨.inl ⟨ha, Ne.symm hne⟩, hnew⟩
        · exact .inr ha
    · rw [List.mem_cons]
      constructor
      · rintro (⟨⟨ha, hne⟩ | rfl, hnew⟩ | ha)
        · exact .inl ⟨ha, Ne.symm hne, hnew⟩
        · exact .inr (.inl rfl)
        · exact .inr (.inr ha)
      · rintro (⟨ha, hne, hnew⟩ | rfl | ha)
        · exact .inl ⟨.inl ⟨ha, Ne.symm hne⟩, hnew⟩
        · exact .inl ⟨.inr rfl, fun b hb hba => hlast (hlater.2 ⟨b, hb, hba⟩)⟩
        · exact .inr ha

end Lib
