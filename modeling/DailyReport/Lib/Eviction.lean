import Mathlib.Algebra.BigOperators.Group.List.Basic
import Mathlib.Algebra.Order.Ring.Nat
import Mathlib.Data.List.MinMax
import Mathlib.Data.List.Nodup
import Mathlib.Data.List.Perm.Basic
import Mathlib.Order.Basic

/-!
# Evicting rows until the rest fits

`Evicts rows victims survivors`: as long as the rows take more than `cap`, one that comes first is
evicted.  Several may come first, and then any of them is.

* `Evicts.minimal` : the victims are a shortest prefix of the rows in order;
* `Evicts.unique` : **the survivors are determined when no two rows tie**.
-/

namespace Lib

variable {α κ : Type} [DecidableEq α] [LinearOrder κ]

/-- What the rows take together. -/
def totalSize (size : α → ℕ) (rows : List α) : ℕ := (rows.map size).sum

/-- A choice of a row that comes first.  Where several do it may be any of them. -/
structure FirstChoice (tuple : α → κ) where
  first : List α → Option α
  exists_first : ∀ rows, rows ≠ [] → ∃ row, first rows = some row
  mem : ∀ rows row, first rows = some row → row ∈ rows
  le : ∀ rows row, first rows = some row → ∀ row' ∈ rows, tuple row ≤ tuple row'

/-- The choice of the row that is found when the rows are scanned in some arrangement. -/
def FirstChoice.scan (tuple : α → κ) (arrange : List α → List α)
    (h : ∀ rows, (arrange rows).Perm rows) : FirstChoice tuple where
  first rows := (arrange rows).argmin tuple
  exists_first rows hne := by
    refine Option.ne_none_iff_exists'.1 fun hnone => hne ?_
    rw [List.argmin_eq_none] at hnone
    exact List.nil_perm.1 (hnone ▸ h rows)
  mem rows row hrow := (h rows).mem_iff.1 (List.argmin_mem hrow)
  le rows row hrow row' hrow' := List.le_of_mem_argmin ((h rows).mem_iff.2 hrow') hrow

/-- A run of evictions. -/
inductive Evicts (tuple : α → κ) (size : α → ℕ) (cap : ℕ) : List α → List α → List α → Prop
  | fits {rows : List α} (h : totalSize size rows ≤ cap) : Evicts tuple size cap rows [] rows
  | evict {rows victims survivors : List α} {victim : α} (hcap : cap < totalSize size rows)
    (hmem : victim ∈ rows) (hfirst : ∀ row ∈ rows, tuple victim ≤ tuple row)
    (hrest : Evicts tuple size cap (rows.erase victim) victims survivors) :
    Evicts tuple size cap rows (victim :: victims) survivors

/-- The victims are a shortest prefix of the rows in the order of the tuples. -/
structure ShortestPrefix (tuple : α → κ) (size : α → ℕ) (cap : ℕ)
    (rows victims survivors : List α) : Prop where
  /-- In some order of the rows the victims come first. -/
  order : ∃ rest : List α, rest.Perm survivors ∧ (victims ++ rest).Perm rows ∧
    (victims ++ rest).Pairwise fun a b => tuple a ≤ tuple b
  fits : totalSize size survivors ≤ cap
  /-- Without the last of them the rest would not fit. -/
  least : ∀ k < victims.length, cap < totalSize size (victims.drop k ++ survivors)
  /-- The survivors are left as they are. -/
  sublist : survivors.Sublist rows

variable {tuple : α → κ} {size : α → ℕ} {cap : ℕ} {rows victims survivors : List α}

omit [DecidableEq α] in
theorem totalSize_perm {rows' : List α} (h : rows.Perm rows') :
    totalSize size rows = totalSize size rows' := (h.map size).sum_eq

theorem totalSize_erase (size : α → ℕ) {row : α} (h : row ∈ rows) :
    size row + totalSize size (rows.erase row) = totalSize size rows :=
  (totalSize_perm (List.perm_cons_erase h)).symm

/-- The victims and the survivors are the rows. -/
theorem Evicts.perm (h : Evicts tuple size cap rows victims survivors) :
    (victims ++ survivors).Perm rows := by
  induction h with
  | fits _ => exact List.Perm.refl _
  | evict _ hmem _ _ ih => exact (ih.cons _).trans (List.perm_cons_erase hmem).symm

/-- **The victims are a shortest prefix of the rows.** -/
theorem Evicts.minimal (h : Evicts tuple size cap rows victims survivors) :
    ShortestPrefix tuple size cap rows victims survivors := by
  induction h with
  | @fits rows h =>
    refine ⟨⟨rows.mergeSort fun a b => tuple a ≤ tuple b, ?_, ?_, ?_⟩, h, nofun, List.Sublist.refl _⟩
    · exact List.mergeSort_perm ..
    · exact List.mergeSort_perm ..
    · have hsorted := @List.pairwise_mergeSort α (fun a b => decide (tuple a ≤ tuple b))
        (fun a b c hab hbc => by simp only [decide_eq_true_eq] at *; exact hab.trans hbc)
        (fun a b => by simpa using le_total (tuple a) (tuple b)) rows
      simpa using hsorted
  | @evict rows victims survivors victim hcap hmem hfirst hrest ih =>
    obtain ⟨⟨rest, hrest', hperm, hsorted⟩, hfits, hleast, hsub⟩ := ih
    have hrows := (hperm.cons victim).trans (List.perm_cons_erase hmem).symm
    refine ⟨⟨rest, hrest', hrows, ?_⟩, hfits, ?_, hsub.trans List.erase_sublist⟩
    · refine List.pairwise_cons.2 ⟨fun row hrow => ?_, hsorted⟩
      exact hfirst row (List.mem_of_mem_erase (hperm.mem_iff.1 hrow))
    · rintro (_ | k) hk
      · rw [List.drop_zero, totalSize_perm (Evicts.perm (.evict hcap hmem hfirst hrest))]
        exact hcap
      · exact hleast k (Nat.lt_of_succ_lt_succ hk)

/-- **When no two rows tie the victims and the survivors are determined.** -/
theorem Evicts.unique {victims' survivors' : List α}
    (htuple : ∀ a ∈ rows, ∀ b ∈ rows, tuple a = tuple b → a = b)
    (h : Evicts tuple size cap rows victims survivors)
    (h' : Evicts tuple size cap rows victims' survivors') :
    victims = victims' ∧ survivors = survivors' := by
  induction h generalizing victims' with
  | fits hle =>
    cases h' with
    | fits _ => exact ⟨rfl, rfl⟩
    | evict hcap => exact absurd hle (Nat.not_le.2 hcap)
  | @evict rows victims survivors victim hcap hmem hfirst hrest ih =>
    cases h' with
    | fits hle => exact absurd hle (Nat.not_le.2 hcap)
    | @evict _ victims' _ victim' _ hmem' hfirst' hrest' =>
      -- both come first, so they are the same row
      obtain rfl : victim = victim' := htuple victim hmem victim' hmem'
        (le_antisymm (hfirst victim' hmem') (hfirst' victim hmem))
      have hsub : ∀ a ∈ rows.erase victim, ∀ b ∈ rows.erase victim, tuple a = tuple b → a = b :=
        fun a ha b hb => htuple a (List.mem_of_mem_erase ha) b (List.mem_of_mem_erase hb)
      obtain ⟨rfl, rfl⟩ := ih hsub hrest'
      exact ⟨rfl, rfl⟩

end Lib
