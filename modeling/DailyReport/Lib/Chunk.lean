import Mathlib.Tactic.Common

/-!
# Splitting a list into chunks

`chunks n l` cuts a list into pieces of `n` items, the last of which may be shorter.  Glued
together the pieces are the list again (`flatten_chunks`).
-/

namespace Lib

variable {α : Type}

/-- Cut off pieces of `n` items, `fuel` times at most. -/
def chunksWithin (n : ℕ) : ℕ → List α → List (List α)
  | 0, _ => []
  | _ + 1, [] => []
  | fuel + 1, a :: l => (a :: l).take n :: chunksWithin n fuel ((a :: l).drop n)

/-- The pieces of `n` items of a list. -/
def chunks (n : ℕ) (l : List α) : List (List α) := chunksWithin n l.length l

theorem flatten_chunksWithin {n : ℕ} (hn : 0 < n) (fuel : ℕ) (l : List α)
    (hfuel : l.length ≤ fuel) : (chunksWithin n fuel l).flatten = l := by
  induction fuel generalizing l with
  | zero =>
    rw [Nat.le_zero, List.length_eq_zero_iff] at hfuel
    rw [hfuel]
    rfl
  | succ fuel ih =>
    cases l with
    | nil => rfl
    | cons a l =>
      have hdrop : ((a :: l).drop n).length ≤ fuel := by
        rw [List.length_drop]
        rw [List.length_cons] at hfuel ⊢
        omega
      rw [chunksWithin, List.flatten_cons, ih _ hdrop, List.take_append_drop]

/-- The pieces of a list are the list. -/
theorem flatten_chunks {n : ℕ} (hn : 0 < n) (l : List α) : (chunks n l).flatten = l :=
  flatten_chunksWithin hn l.length l (Nat.le_refl _)

end Lib
