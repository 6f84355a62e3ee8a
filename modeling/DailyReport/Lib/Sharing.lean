import Mathlib.Algebra.BigOperators.Group.List.Basic
import Mathlib.Algebra.Order.Ring.Nat
import Mathlib.Data.List.Forall2
import Mathlib.Tactic.Common

/-!
# Sharing what remains

Members take their parts of what remains, one after the other, in one pass or in passes that go on
as long as some member wants more.

* `pass_getElem?` : a member finds what the members before it have left;
* `pass_spent` : **what is taken is what is missing**;
* `pass_forall₂`, `passes_forall₂` : what every member keeps, a pass and the passes keep;
* `passes_induction` : **what a pass preserves, the passes preserve**.
-/

namespace Lib

variable {S : Type}

/-- Every member takes its part, in turn. -/
def pass (take : ℕ → S → ℕ × S) : ℕ → List S → ℕ × List S
  | remaining, [] => (remaining, [])
  | remaining, s :: rest =>
    ((pass take (take remaining s).1 rest).1,
      (take remaining s).2 :: (pass take (take remaining s).1 rest).2)

variable {take : ℕ → S → ℕ × S} {remaining : ℕ} {members : List S}

theorem pass_cons (s : S) (rest : List S) : pass take remaining (s :: rest) =
    ((pass take (take remaining s).1 rest).1,
      (take remaining s).2 :: (pass take (take remaining s).1 rest).2) := rfl

@[simp] theorem length_pass : (pass take remaining members).2.length = members.length := by
  induction members generalizing remaining with
  | nil => rfl
  | cons s rest ih => exact congrArg (· + 1) ih

/-- A member finds what the members before it have left. -/
theorem pass_getElem? (k : ℕ) : (pass take remaining members).2[k]? =
    members[k]?.map fun s => (take (pass take remaining (members.take k)).1 s).2 := by
  induction members generalizing remaining k with
  | nil => rfl
  | cons s rest ih =>
    cases k with
    | zero => rfl
    | succ k => exact ih k

/-- **What is taken is what is missing.** -/
theorem pass_spent {spent : S → ℕ}
    (h : ∀ r, ∀ s ∈ members, (take r s).1 + spent (take r s).2 = r + spent s) :
    (pass take remaining members).1 + ((pass take remaining members).2.map spent).sum =
      remaining + (members.map spent).sum := by
  induction members generalizing remaining with
  | nil => rfl
  | cons s rest ih =>
    have hrest : (pass take (take remaining s).1 rest).1 +
        ((pass take (take remaining s).1 rest).2.map spent).sum =
        (take remaining s).1 + (rest.map spent).sum :=
      ih fun r t ht => h r t (List.mem_cons_of_mem _ ht)
    have hone := h remaining s (List.mem_cons_self ..)
    rw [pass_cons]
    simp only [List.map_cons, List.sum_cons]
    omega

/-- What every member keeps, a pass keeps. -/
theorem pass_forall₂ {R : S → S → Prop} (h : ∀ r, ∀ s ∈ members, R s (take r s).2) :
    List.Forall₂ R members (pass take remaining members).2 := by
  induction members generalizing remaining with
  | nil => exact .nil
  | cons s rest ih =>
    exact .cons (h remaining s (List.mem_cons_self ..))
      (ih fun r t ht => h r t (List.mem_cons_of_mem _ ht))

/-- What holds of every member, if each keeps it. -/
theorem pass_all {good : S → Prop} (h : ∀ r s, good s → good (take r s).2)
    (hstart : ∀ s ∈ members, good s) : ∀ s ∈ (pass take remaining members).2, good s := by
  induction members generalizing remaining with
  | nil => exact hstart
  | cons s rest ih =>
    obtain ⟨hfirst, hrest⟩ := List.forall_mem_cons.1 hstart
    exact List.forall_mem_cons.2 ⟨h remaining s hfirst, ih hrest⟩

theorem forall₂_trans {R : S → S → Prop} (htrans : ∀ a b c, R a b → R b c → R a c)
    {l l' l'' : List S} (h : List.Forall₂ R l l') (h' : List.Forall₂ R l' l'') :
    List.Forall₂ R l l'' := by
  induction h generalizing l'' with
  | nil => exact h'
  | cons hab _ ih =>
    cases h' with
    | cons hbc hrest => exact .cons (htrans _ _ _ hab hbc) (ih hrest)

/-! ### Passes -/

/-- The members together get smaller, if one of those that want more does. -/
theorem pass_lt {size : S → ℕ} {wants : S → Bool} (hle : ∀ r s, size (take r s).2 ≤ size s)
    (hlt : ∀ r s, wants s = true → size (take r s).2 < size s) (h : members.any wants = true) :
    ((pass take remaining members).2.map size).sum < (members.map size).sum := by
  have hall : ∀ (remaining : ℕ) (members : List S),
      ((pass take remaining members).2.map size).sum ≤ (members.map size).sum := by
    intro remaining members
    induction members generalizing remaining with
    | nil => exact Nat.le_refl _
    | cons s rest ih => exact Nat.add_le_add (hle remaining s) (ih _)
  induction members generalizing remaining with
  | nil => cases h
  | cons s rest ih =>
    rw [List.any_cons, Bool.or_eq_true] at h
    rcases h with h | h
    · exact Nat.add_lt_add_of_lt_of_le (hlt remaining s h) (hall _ rest)
    · exact Nat.add_lt_add_of_le_of_lt (hle remaining s) (ih h)

/-- How the members take their parts in passes: what a member that wants more takes next makes it
smaller. -/
structure Taking (S : Type) where
  take : ℕ → S → ℕ × S
  wants : S → Bool
  size : S → ℕ
  size_le : ∀ r s, size (take r s).2 ≤ size s
  size_lt : ∀ r s, wants s = true → size (take r s).2 < size s

/-- Passes, as long as some member wants more.  **They come to an end.** -/
def passes (t : Taking S) (remaining : ℕ) (members : List S) : ℕ × List S :=
  if members.any t.wants then
    passes t (pass t.take remaining members).1 (pass t.take remaining members).2
  else (remaining, members)
termination_by (members.map t.size).sum
decreasing_by exact pass_lt t.size_le t.size_lt ‹_›

variable {t : Taking S}

/-- **What a pass preserves, the passes preserve.** -/
theorem passes_induction {P : ℕ → List S → Prop}
    (h : ∀ r l, P r l → P (pass t.take r l).1 (pass t.take r l).2)
    (hstart : P remaining members) : P (passes t remaining members).1 (passes t remaining members).2 := by
  induction remaining, members using passes.induct t with
  | case1 remaining members hwants ih =>
    rw [passes, if_pos hwants]
    exact ih (h _ _ hstart)
  | case2 remaining members hwants =>
    rw [passes, if_neg hwants]
    exact hstart

/-- What every member keeps, the passes keep. -/
theorem passes_forall₂ {R : S → S → Prop} (hrefl : ∀ s, R s s)
    (htrans : ∀ a b c, R a b → R b c → R a c) (h : ∀ r s, R s (t.take r s).2) :
    List.Forall₂ R members (passes t remaining members).2 := by
  refine passes_induction (P := fun _ l => List.Forall₂ R members l) (fun r l hl => ?_)
    (List.forall₂_same.2 fun s _ => hrefl s)
  have hnext : List.Forall₂ R l (pass t.take r l).2 := pass_forall₂ fun r s _ => h r s
  exact forall₂_trans htrans hl hnext

end Lib
