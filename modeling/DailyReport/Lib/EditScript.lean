import Mathlib.Data.List.Basic

/-!
# Edit scripts by hunks

A hunk names a span of an old sequence and the span of a new one that takes its place.  A `Script`
leads from the old sequence to the new one by keeping items and changing spans in turns.

* `Script.ordered` : the hunks are in order, and apart in both sequences;
* `Script.patch` : **changing the spans of the old sequence gives the new one**;
* `Script.outside` : **the items outside of the hunks are the same**.
-/

namespace Lib

/-- The items from one position up to another one. -/
structure Span where
  start : ℕ
  stop : ℕ
  deriving DecidableEq, Repr

/-- A span of the old sequence and the one that takes its place. -/
structure Hunk where
  before : Span
  after : Span
  deriving DecidableEq, Repr

/-- Spans in order, and apart. -/
def OrderedFrom : ℕ → List Span → Prop
  | _, [] => True
  | x, s :: spans => x ≤ s.start ∧ s.start ≤ s.stop ∧ OrderedFrom s.stop spans

section

variable {α : Type*}

/-- The old sequence with its spans changed; both sequences are given from a position on. -/
def patch : ℕ → ℕ → List α → List α → List Hunk → List α
  | _, _, old, _, [] => old
  | x, y, old, new, h :: hunks =>
    old.take (h.before.start - x) ++
      (new.drop (h.after.start - y)).take (h.after.stop - h.after.start) ++
      patch h.before.stop h.after.stop (old.drop (h.before.stop - x)) (new.drop (h.after.stop - y))
        hunks

/-- The items outside of some spans. -/
def outside : ℕ → List α → List Span → List α
  | _, items, [] => items
  | x, items, s :: spans =>
    items.take (s.start - x) ++ outside s.stop (items.drop (s.stop - x)) spans

/-- The hunks lead from the old sequence to the new one. -/
inductive Script : ℕ → ℕ → List α → List α → List Hunk → Prop
  | nil {x y : ℕ} : Script x y [] [] []
  | keep {x y : ℕ} {old new : List α} {hunks : List Hunk} (item : α)
    (h : Script (x + 1) (y + 1) old new hunks) : Script x y (item :: old) (item :: new) hunks
  | change {x y : ℕ} {old new : List α} {hunks : List Hunk} (removed added : List α)
    (h : Script (x + removed.length) (y + added.length) old new hunks) :
    Script x y (removed ++ old) (added ++ new)
      (⟨⟨x, x + removed.length⟩, ⟨y, y + added.length⟩⟩ :: hunks)

/-! ### What a script does -/

theorem OrderedFrom.mono {x x' : ℕ} (hle : x ≤ x') {spans : List Span} (h : OrderedFrom x' spans) :
    OrderedFrom x spans := by
  cases spans with
  | nil => trivial
  | cons s spans => exact ⟨Nat.le_trans hle h.1, h.2⟩

/-- Keeping an item in front of the hunks. -/
theorem patch_cons {x y : ℕ} {item item' : α} {old new : List α} {hunks : List Hunk}
    (hx : OrderedFrom (x + 1) (hunks.map Hunk.before))
    (hy : OrderedFrom (y + 1) (hunks.map Hunk.after)) :
    patch x y (item :: old) (item' :: new) hunks = item :: patch (x + 1) (y + 1) old new hunks := by
  cases hunks with
  | nil => rfl
  | cons h hunks =>
    obtain ⟨hx, hx', -⟩ := hx
    obtain ⟨hy, hy', -⟩ := hy
    have hstart : h.before.start - x = (h.before.start - (x + 1)) + 1 := by omega
    have hstop : h.before.stop - x = (h.before.stop - (x + 1)) + 1 := by omega
    have hstart' : h.after.start - y = (h.after.start - (y + 1)) + 1 := by omega
    have hstop' : h.after.stop - y = (h.after.stop - (y + 1)) + 1 := by omega
    rw [patch, patch, hstart, hstop, hstart', hstop', List.take_succ_cons, List.drop_succ_cons,
      List.drop_succ_cons, List.drop_succ_cons, List.cons_append, List.cons_append]

theorem outside_cons {x : ℕ} {item : α} {items : List α} {spans : List Span}
    (hx : OrderedFrom (x + 1) spans) :
    outside x (item :: items) spans = item :: outside (x + 1) items spans := by
  cases spans with
  | nil => rfl
  | cons s spans =>
    obtain ⟨hx, hx', -⟩ := hx
    have hstart : s.start - x = (s.start - (x + 1)) + 1 := by omega
    have hstop : s.stop - x = (s.stop - (x + 1)) + 1 := by omega
    rw [outside, outside, hstart, hstop, List.take_succ_cons, List.drop_succ_cons, List.cons_append]

variable {x y : ℕ} {old new : List α} {hunks : List Hunk}

/-- **The hunks are in order, and apart in both sequences.** -/
theorem Script.ordered (h : Script x y old new hunks) :
    OrderedFrom x (hunks.map Hunk.before) ∧ OrderedFrom y (hunks.map Hunk.after) := by
  induction h with
  | nil => exact ⟨trivial, trivial⟩
  | keep item h ih => exact ⟨ih.1.mono (Nat.le_succ _), ih.2.mono (Nat.le_succ _)⟩
  | change removed added h ih =>
    exact ⟨⟨Nat.le_refl _, Nat.le_add_right _ _, ih.1⟩, ⟨Nat.le_refl _, Nat.le_add_right _ _, ih.2⟩⟩

/-- **Changing the spans of the old sequence gives the new one.** -/
theorem Script.patch (h : Script x y old new hunks) : patch x y old new hunks = new := by
  induction h with
  | nil => rfl
  | keep item h ih => rw [patch_cons h.ordered.1 h.ordered.2, ih]
  | change removed added h ih =>
    rw [Lib.patch]
    simp only [Nat.sub_self, Nat.add_sub_cancel_left, List.take_zero, List.drop_zero,
      List.take_left, List.drop_left, List.nil_append, ih]

/-- **The items outside of the hunks are the same.** -/
theorem Script.outside (h : Script x y old new hunks) :
    outside x old (hunks.map Hunk.before) = outside y new (hunks.map Hunk.after) := by
  induction h with
  | nil => rfl
  | keep item h ih =>
    rw [outside_cons h.ordered.1, outside_cons h.ordered.2, ih]
  | change removed added h ih =>
    rw [List.map_cons, List.map_cons, Lib.outside, Lib.outside]
    simp only [Nat.sub_self, Nat.add_sub_cancel_left, List.take_zero, List.drop_left,
      List.nil_append, ih]

/-- Keeping items in front of a script. -/
theorem Script.keepAll (items : List α)
    (h : Script (x + items.length) (y + items.length) old new hunks) :
    Script x y (items ++ old) (items ++ new) hunks := by
  induction items generalizing x y with
  | nil => exact h
  | cons item items ih =>
    refine .keep item (ih ?_)
    rw [List.length_cons] at h
    rwa [Nat.add_assoc, Nat.add_assoc, Nat.add_comm 1]

end

end Lib
