import Mathlib.Data.List.Basic
import Mathlib.Tactic.Common

/-!
# Left joins

Every row of the left table with its matches on the right, or alone when it has none.

* `leftJoin_eq_map` : **with one match at most the left join keeps the left rows as they are**.
-/

namespace Lib

variable {α β : Type} {on : α → β → Bool}

/-- The rows of the left table with their matches. -/
def leftJoin (on : α → β → Bool) (l : List α) (r : List β) : List (α × Option β) :=
  l.flatMap fun a =>
    match r.filter (on a) with
    | [] => [(a, none)]
    | b :: bs => (b :: bs).map fun b => (a, some b)

/-- A filter that keeps one row at most keeps the first one. -/
theorem filter_of_length_le_one {p : β → Bool} {r : List β} (h : (r.filter p).length ≤ 1) :
    r.filter p = (r.find? p).toList := by
  induction r with
  | nil => rfl
  | cons b r ih =>
    by_cases hb : p b = true
    · rw [List.filter_cons_of_pos hb, List.length_cons] at h
      have hnil : (r.filter p).length = 0 := by omega
      rw [List.filter_cons_of_pos hb, List.find?_cons_of_pos hb, List.length_eq_zero_iff.1 hnil]
      rfl
    · rw [List.filter_cons_of_neg hb] at h ⊢
      rw [List.find?_cons_of_neg hb, ih h]

/-- **With one match at most the left join keeps the left rows as they are.** -/
theorem leftJoin_eq_map {l : List α} {r : List β} (h : ∀ a ∈ l, (r.filter (on a)).length ≤ 1) :
    leftJoin on l r = l.map fun a => (a, r.find? (on a)) := by
  induction l with
  | nil => rfl
  | cons a l ih =>
    obtain ⟨ha, hl⟩ := List.forall_mem_cons.1 h
    rw [leftJoin, List.flatMap_cons, filter_of_length_le_one ha, List.map_cons, ← ih hl]
    cases r.find? (on a) <;> rfl

end Lib
