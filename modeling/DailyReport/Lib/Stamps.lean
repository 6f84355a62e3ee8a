import Mathlib.Data.List.MinMax
import Mathlib.Data.List.Basic
import Mathlib.Tactic.Common

/-!
# Tables with stamps

The rows of a table have stamps of a linear order.  A table `Outdates` another one when it has more
rows, or as many and a row with a stamp that is later than all stamps of the other.  Writes whose
stamps only grow make every table outdate the ones before it (`Outdates.trans`), and then the number
of rows and the latest stamp tell the two apart (`Outdates.signature_ne`).
-/

namespace Lib

variable {α κ : Type*} [LinearOrder κ] (stamp : α → κ)

/-- There are more rows than before, or a row is later than everything before. -/
def Outdates (old rows : List α) : Prop :=
  old.length < rows.length ∨
    old.length = rows.length ∧ ∃ row ∈ rows, ∀ before ∈ old, stamp before < stamp row

variable {stamp} {old rows rows' : List α}

/-- The latest stamp. -/
def latestStamp (stamp : α → κ) (rows : List α) : Option κ := (rows.map stamp).max?

theorem latestStamp_eq_some {m : κ} :
    latestStamp stamp rows = some m ↔ m ∈ rows.map stamp ∧ ∀ row ∈ rows, stamp row ≤ m := by
  rw [latestStamp, List.max?_eq_some_iff]
  simp only [List.mem_map, forall_exists_index, and_imp, forall_apply_eq_imp_iff₂]

theorem Outdates.trans (h : Outdates stamp old rows) (h' : Outdates stamp rows rows') :
    Outdates stamp old rows' := by
  rcases h with hlength | ⟨hlength, row, hrow, hlater⟩
  · rcases h' with hlength' | ⟨hlength', -⟩
    · exact .inl (hlength.trans hlength')
    · exact .inl (hlength' ▸ hlength)
  · rcases h' with hlength' | ⟨hlength', row', hrow', hlater'⟩
    · exact .inl (hlength ▸ hlength')
    · refine .inr ⟨hlength.trans hlength', row', hrow', fun before hbefore => ?_⟩
      exact (hlater before hbefore).trans (hlater' row hrow)

/-- **The number of rows and the latest stamp tell a table from the ones that it outdates.** -/
theorem Outdates.signature_ne (h : Outdates stamp old rows) :
    (rows.length, latestStamp stamp rows) ≠ (old.length, latestStamp stamp old) := by
  intro heq
  obtain ⟨hlength, hlatest⟩ := Prod.mk.inj heq
  rcases h with hmore | ⟨-, row, hrow, hlater⟩
  · exact absurd hlength (Nat.ne_of_gt hmore)
  · cases hmax : latestStamp stamp rows with
    | none =>
      rw [latestStamp, List.max?_eq_none_iff, List.map_eq_nil_iff] at hmax
      rw [hmax] at hrow
      cases hrow
    | some m =>
      have hle := (latestStamp_eq_some.1 hmax).2 row hrow
      obtain ⟨before, hbefore, hm⟩ := List.mem_map.1 (latestStamp_eq_some.1 (hlatest ▸ hmax)).1
      have hlt := hlater before hbefore
      rw [hm] at hlt
      exact absurd hle (not_le.2 hlt)

/-- Writing a row of each row. -/
theorem Outdates.map {β : Type*} {stamp : β → κ} {f : α → β} (h : Outdates (stamp ∘ f) old rows) :
    Outdates stamp (old.map f) (rows.map f) := by
  rcases h with hlength | ⟨hlength, row, hrow, hlater⟩
  · exact .inl (by simpa using hlength)
  · refine .inr ⟨by simpa using hlength, f row, List.mem_map_of_mem hrow, fun before hbefore => ?_⟩
    obtain ⟨original, horiginal, rfl⟩ := List.mem_map.1 hbefore
    exact hlater original horiginal

end Lib
