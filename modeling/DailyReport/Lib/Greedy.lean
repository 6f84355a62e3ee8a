import Mathlib.Algebra.Order.BigOperators.Group.List
import Mathlib.Algebra.Order.Ring.Nat

/-!
# Greedy use of a budget

A budget is used up by a list of items with a cost each.  `takeWithin` stops at the first item
that does not fit, `fillWithin` skips such an item and goes on.  Both stay within the limit
(`used_takeWithin_le`, `used_fillWithin_le`).
-/

namespace Lib

variable {α β : Type*} (cost : α → ℕ) (limit : ℕ)

/-- Sum of the costs. -/
def totalCost (l : List α) : ℕ := (l.map cost).sum

/-- Take items while the running total stays within the limit. -/
def takeWithin : ℕ → List α → List α
  | _, [] => []
  | used, a :: l => if used + cost a ≤ limit then a :: takeWithin (used + cost a) l else []

/-- The items that a budget took, the items it skipped, and the total in use. -/
structure Fill (α : Type*) where
  taken : List α
  skipped : List α
  used : ℕ

/-- Take every item that still fits, in order. -/
def fillWithin : ℕ → List α → Fill α
  | used, [] => ⟨[], [], used⟩
  | used, a :: l =>
    if used + cost a ≤ limit then
      let rest := fillWithin (used + cost a) l
      ⟨a :: rest.taken, rest.skipped, rest.used⟩
    else
      let rest := fillWithin used l
      ⟨rest.taken, a :: rest.skipped, rest.used⟩

variable {cost limit}

@[simp] theorem totalCost_nil : totalCost cost ([] : List α) = 0 := rfl

@[simp] theorem totalCost_cons (a : α) (l : List α) :
    totalCost cost (a :: l) = cost a + totalCost cost l := by
  simp [totalCost]

@[simp] theorem totalCost_append (l l' : List α) :
    totalCost cost (l ++ l') = totalCost cost l + totalCost cost l' := by
  simp [totalCost]

theorem totalCost_perm {l l' : List α} (h : l.Perm l') : totalCost cost l = totalCost cost l' :=
  (h.map cost).sum_eq

theorem totalCost_sublist {l l' : List α} (h : l.Sublist l') :
    totalCost cost l ≤ totalCost cost l' :=
  (h.map cost).sum_le_sum fun _ _ => Nat.zero_le _

theorem cost_le_totalCost {a : α} {l : List α} (h : a ∈ l) : cost a ≤ totalCost cost l := by
  have hle : totalCost cost [a] ≤ totalCost cost l :=
    totalCost_sublist (List.singleton_sublist.2 h)
  simpa using hle

theorem totalCost_map {γ : Type*} (f : γ → α) (l : List γ) :
    totalCost cost (l.map f) = totalCost (fun a => cost (f a)) l := by
  simp [totalCost, Function.comp_def]

theorem used_takeWithin_le {used : ℕ} (h : used ≤ limit) (l : List α) :
    used + totalCost cost (takeWithin cost limit used l) ≤ limit := by
  induction l generalizing used with
  | nil => simpa [takeWithin] using h
  | cons a l ih =>
    unfold takeWithin
    split_ifs with hfit
    · have := ih hfit
      simp only [totalCost_cons]
      omega
    · simpa using h

theorem takeWithin_sublist (used : ℕ) (l : List α) :
    (takeWithin cost limit used l).Sublist l := by
  induction l generalizing used with
  | nil => simp [takeWithin]
  | cons a l ih =>
    unfold takeWithin
    split_ifs
    · exact (ih _).cons_cons a
    · exact List.nil_sublist _

theorem used_fillWithin (used : ℕ) (l : List α) :
    (fillWithin cost limit used l).used =
      used + totalCost cost (fillWithin cost limit used l).taken := by
  induction l generalizing used with
  | nil => simp [fillWithin]
  | cons a l ih =>
    unfold fillWithin
    split_ifs
    · simp only [ih, totalCost_cons]
      omega
    · simp only [ih]

theorem used_fillWithin_le {used : ℕ} (h : used ≤ limit) (l : List α) :
    (fillWithin cost limit used l).used ≤ limit := by
  induction l generalizing used with
  | nil => simpa [fillWithin] using h
  | cons a l ih =>
    unfold fillWithin
    split_ifs with hfit
    · exact ih hfit
    · exact ih h

/-- Every item is taken or skipped. -/
theorem fillWithin_perm (used : ℕ) (l : List α) :
    ((fillWithin cost limit used l).taken ++ (fillWithin cost limit used l).skipped).Perm l := by
  induction l generalizing used with
  | nil => simp [fillWithin]
  | cons a l ih =>
    unfold fillWithin
    split_ifs
    · exact (ih _).cons a
    · exact List.perm_middle.trans ((ih _).cons a)

/-- Once something was taken, the limit has been checked. -/
theorem used_fillWithin_le_of_taken {used : ℕ} {l : List α}
    (h : (fillWithin cost limit used l).taken ≠ []) :
    (fillWithin cost limit used l).used ≤ limit := by
  induction l generalizing used with
  | nil => simp [fillWithin] at h
  | cons a l ih =>
    unfold fillWithin at h ⊢
    split_ifs at h ⊢ with hfit
    · exact used_fillWithin_le hfit l
    · exact ih h

end Lib
