import Mathlib.Data.List.Basic
import Mathlib.Data.List.Nodup
import Mathlib.Tactic.Common

/-!
# Rows of a table

`updateWhere p f` updates the rows of a table that satisfy `p`, `deleteWhere p` deletes them.  The
lemmas say which rows a filter finds after an update (`filter_updateWhere_of_not`,
`filter_updateWhere_of_none`) and that an update that keeps the key keeps the keys.
-/

namespace Lib

variable {α κ : Type*} {p q : α → Bool} {f : α → α} {rows : List α}

/-- Update the rows that satisfy `p`. -/
def updateWhere (p : α → Bool) (f : α → α) (rows : List α) : List α :=
  rows.map fun row => if p row then f row else row

/-- Delete the rows that satisfy `p`. -/
def deleteWhere (p : α → Bool) (rows : List α) : List α := rows.filter fun row => !p row

theorem mem_updateWhere {row : α} :
    row ∈ updateWhere p f rows ↔
      (row ∈ rows ∧ p row = false) ∨ ∃ old ∈ rows, p old = true ∧ f old = row := by
  simp only [updateWhere, List.mem_map]
  constructor
  · rintro ⟨old, hold, rfl⟩
    split_ifs with hp
    · exact .inr ⟨old, hold, hp, rfl⟩
    · exact .inl ⟨hold, by simpa using hp⟩
  · rintro (⟨hrow, hp⟩ | ⟨old, hold, hp, rfl⟩)
    · exact ⟨row, hrow, by simp [hp]⟩
    · exact ⟨old, hold, if_pos hp⟩

@[simp] theorem mem_deleteWhere {row : α} :
    row ∈ deleteWhere p rows ↔ row ∈ rows ∧ p row = false := by
  simp [deleteWhere]

/-- An update that changes nothing. -/
@[simp] theorem updateWhere_id : updateWhere p id rows = rows := by
  simp [updateWhere]

/-- A row that the update does not concern stays. -/
theorem mem_updateWhere_of_not {row : α} (h : row ∈ rows) (hp : p row = false) :
    row ∈ updateWhere p f rows := mem_updateWhere.2 (.inl ⟨h, hp⟩)

theorem map_updateWhere (key : α → κ) (h : ∀ row, key (f row) = key row) :
    (updateWhere p f rows).map key = rows.map key := by
  simp only [updateWhere, List.map_map]
  refine List.map_congr_left fun row _ => ?_
  simp only [Function.comp_apply]
  split_ifs
  · exact h row
  · rfl

/-- An update after which no updated row is found leaves the other rows to be found. -/
theorem filter_updateWhere_of_not (h : ∀ row, p row = true → q (f row) = false) :
    (updateWhere p f rows).filter q = rows.filter fun row => !p row && q row := by
  induction rows with
  | nil => rfl
  | cons row rows ih =>
    have hcons : updateWhere p f (row :: rows) =
        (if p row then f row else row) :: updateWhere p f rows := rfl
    rw [hcons, List.filter_cons, List.filter_cons, ih]
    cases hp : p row with
    | true => simp [h row hp]
    | false => simp

/-- Where no row is found before, an update makes exactly its own rows found. -/
theorem filter_updateWhere_of_none (hnone : rows.filter q = [])
    (h : ∀ row, p row = true → q (f row) = true) :
    (updateWhere p f rows).filter q = (rows.filter p).map f := by
  induction rows with
  | nil => rfl
  | cons row rows ih =>
    have hcons : updateWhere p f (row :: rows) =
        (if p row then f row else row) :: updateWhere p f rows := rfl
    have hrow : q row = false := by
      by_contra hq
      simp [Bool.not_eq_false _ ▸ hq] at hnone
    have hrest : rows.filter q = [] := by simpa [List.filter_cons, hrow] using hnone
    rw [hcons, List.filter_cons, List.filter_cons, ih hrest]
    cases hp : p row with
    | true => simp [h row hp]
    | false => simp [hrow]

/-- An update that changes nothing a filter looks at. -/
theorem filter_updateWhere_of_eq (h : ∀ row, p row = true → q (f row) = q row) :
    (updateWhere p f rows).filter q = updateWhere p f (rows.filter q) := by
  induction rows with
  | nil => rfl
  | cons row rows ih =>
    have hcons : updateWhere p f (row :: rows) =
        (if p row then f row else row) :: updateWhere p f rows := rfl
    rw [hcons, List.filter_cons, List.filter_cons, ih]
    cases hp : p row with
    | true =>
      simp only [if_true, h row hp]
      cases hq : q row <;> simp [updateWhere, hp]
    | false =>
      simp only [Bool.false_eq_true, if_false]
      cases hq : q row <;> simp [updateWhere, hp]

/-- What a search finds after an update. -/
theorem find?_updateWhere (h : ∀ row, q (f row) = q row) :
    (updateWhere p f rows).find? q = (rows.find? q).map fun row => if p row then f row else row := by
  have hq : (q ∘ fun row => if p row then f row else row) = q := by
    funext row
    simp only [Function.comp_apply]
    split_ifs
    · exact h row
    · rfl
  rw [updateWhere, List.find?_map, hq]

/-- A search that finds no row of the update, neither before nor after it. -/
theorem find?_updateWhere_of_not (h : ∀ row, p row = true → q row = false ∧ q (f row) = false) :
    (updateWhere p f rows).find? q = rows.find? q := by
  rw [← List.head?_filter, filter_updateWhere_of_not fun row hp => (h row hp).2, List.head?_filter]
  refine congrArg rows.find? (funext fun row => ?_)
  cases hp : p row with
  | true => simp [(h row hp).1]
  | false => simp

theorem deleteWhere_sublist (p : α → Bool) (rows : List α) : (deleteWhere p rows).Sublist rows :=
  List.filter_sublist

/-- Deleting rows that a filter does not find. -/
theorem filter_deleteWhere_of_not (h : ∀ row ∈ rows, p row = true → q row = false) :
    (deleteWhere p rows).filter q = rows.filter q := by
  rw [deleteWhere, List.filter_filter]
  refine List.filter_congr fun row hrow => ?_
  cases hp : p row with
  | true => simp [h row hrow hp]
  | false => simp

/-- Deleting rows that a search does not look for. -/
theorem find?_deleteWhere_of_not (h : ∀ row, q row = true → p row = false) :
    (deleteWhere p rows).find? q = rows.find? q := by
  have hq : (fun row => !p row && q row) = q := by
    funext row
    cases hrow : q row with
    | true => simp [h row hrow]
    | false => simp
  rw [deleteWhere, List.find?_filter]
  simpa using congrArg rows.find? hq

/-- One row was counted. -/
theorem exists_filter_eq_singleton (h : rows.countP p = 1) : ∃ row, rows.filter p = [row] := by
  rw [List.countP_eq_length_filter] at h
  exact List.length_eq_one_iff.1 h

/-- Rows with distinct keys, one of which has the key. -/
theorem filter_key_eq_singleton [DecidableEq κ] {key : α → κ} (hnodup : (rows.map key).Nodup)
    {row : α} (hrow : row ∈ rows) :
    rows.filter (fun other => decide (key other = key row)) = [row] := by
  induction rows with
  | nil => cases hrow
  | cons first rows ih =>
    rw [List.map_cons, List.nodup_cons] at hnodup
    rcases List.mem_cons.1 hrow with rfl | hrow
    · rw [List.filter_cons, if_pos (by simp), List.filter_eq_nil_iff.2]
      intro other hother hkey
      exact hnodup.1 (of_decide_eq_true hkey ▸ List.mem_map_of_mem hother)
    · have hne : key first ≠ key row := fun heq =>
        hnodup.1 (heq ▸ List.mem_map_of_mem hrow)
      rw [List.filter_cons, if_neg (by simpa using hne), ih hnodup.2 hrow]

/-- Deleting the row of a key that is there. -/
theorem length_deleteWhere_key [DecidableEq κ] {key : α → κ} (hnodup : (rows.map key).Nodup)
    {row : α} (hrow : row ∈ rows) :
    (deleteWhere (fun other => decide (key other = key row)) rows).length + 1 = rows.length := by
  have hsplit := List.length_eq_length_filter_add (l := rows) fun other =>
    decide (key other = key row)
  rw [filter_key_eq_singleton hnodup hrow, List.length_singleton] at hsplit
  rw [deleteWhere, hsplit, Nat.add_comm]

/-- Deleting the row of a key that is not there. -/
theorem deleteWhere_key_of_not_mem [DecidableEq κ] {key : α → κ} {k : κ} (h : k ∉ rows.map key) :
    deleteWhere (fun other => decide (key other = k)) rows = rows := by
  refine List.filter_eq_self.2 fun row hrow => ?_
  have hne : key row ≠ k := fun heq => h (heq ▸ List.mem_map_of_mem hrow)
  simp [hne]

end Lib
