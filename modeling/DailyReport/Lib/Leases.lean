import Mathlib.Data.List.Basic
import Mathlib.Logic.Relation
import Mathlib.Tactic.Common

/-!
# Leasing slots

Callers share a number of slots.  A caller that looks for a slot takes the free one that came back
last, or goes to sleep until it is woken; a caller that gives its slot back wakes one of the sleepers.

* `Leases.Accounted` : every slot is free or held by exactly one caller;
* `Leases.Attended` : there are as many callers looking for a slot as there are free slots, as long as
  anybody sleeps, so no sleeper misses the slot it waits for;
* `Leases.reachable_sound` : **both hold after any number of steps of any callers**.
-/

namespace Lib

/-- What is counted before and after one entry of a list changes. -/
theorem countP_set_add {α : Type*} {l : List α} {p : α → Bool} {i : ℕ} {now : α} (h : l[i]? = some now)
    (next : α) :
    (l.set i next).countP p + (if p now then 1 else 0) = l.countP p + if p next then 1 else 0 := by
  obtain ⟨hi, rfl⟩ := List.getElem?_eq_some_iff.1 h
  have hpos : (if p l[i] then 1 else 0) ≤ l.countP p := by
    split
    · next hp => exact List.countP_pos_iff.2 ⟨_, List.getElem_mem hi, hp⟩
    · exact Nat.zero_le _
  rw [List.countP_set hi]
  omega

/-- What a caller does. -/
inductive Caller
  | outside
  | awake
  | asleep
  | holds (slot : ℕ)
  deriving DecidableEq

structure Leases where
  /-- The free slots, the one that came back last at the end. -/
  free : List ℕ
  callers : List Caller

namespace Leases

inductive Step : Leases → Leases → Prop
  | enter {free : List ℕ} {callers : List Caller} (c : ℕ) (h : callers[c]? = some .outside) :
    Step ⟨free, callers⟩ ⟨free, callers.set c .awake⟩
  | take {free : List ℕ} {callers : List Caller} (c slot : ℕ) (h : callers[c]? = some .awake) :
    Step ⟨free ++ [slot], callers⟩ ⟨free, callers.set c (.holds slot)⟩
  | sleep {callers : List Caller} (c : ℕ) (h : callers[c]? = some .awake) :
    Step ⟨[], callers⟩ ⟨[], callers.set c .asleep⟩
  | wake {free : List ℕ} {callers : List Caller} (c : ℕ) (h : callers[c]? = some .asleep) :
    Step ⟨free, callers⟩ ⟨free, callers.set c .awake⟩
  | giveBack {free : List ℕ} {callers : List Caller} (c slot : ℕ)
      (h : callers[c]? = some (.holds slot)) (hnone : .asleep ∉ callers.set c .outside) :
    Step ⟨free, callers⟩ ⟨free ++ [slot], callers.set c .outside⟩
  | notify {free : List ℕ} {callers : List Caller} (c slot woken : ℕ)
      (h : callers[c]? = some (.holds slot))
      (hwoken : (callers.set c .outside)[woken]? = some .asleep) :
    Step ⟨free, callers⟩ ⟨free ++ [slot], (callers.set c .outside).set woken .awake⟩

variable {s s' : Leases} {free : List ℕ} {callers : List Caller} {c n : ℕ} {now next : Caller}

/-- Every slot below `n` is free or held by exactly one caller. -/
def Accounted (n : ℕ) (s : Leases) : Prop :=
  ∀ slot, s.free.count slot + s.callers.count (.holds slot) = if slot < n then 1 else 0

/-- Nobody sleeps, or every free slot has a caller that looks for it. -/
def Attended (s : Leases) : Prop :=
  .asleep ∉ s.callers ∨ s.free.length ≤ s.callers.count .awake

/-- Callers are counted before and after one of them changes. -/
theorem count_set_add (h : callers[c]? = some now) (next caller : Caller) :
    (callers.set c next).count caller + (if now = caller then 1 else 0) =
      callers.count caller + if next = caller then 1 else 0 := by
  simpa only [List.count, beq_iff_eq] using countP_set_add (p := (· == caller)) h next

/-- One caller changes, and no caller falls asleep. -/
theorem not_mem_asleep_set (h : .asleep ∉ callers) (hnext : next ≠ .asleep) :
    .asleep ∉ callers.set c next := fun hmem =>
  (List.mem_or_eq_of_mem_set hmem).elim h fun heq => hnext heq.symm

/-- One caller stops holding its slot and another one is woken. -/
theorem count_notify_add {slot woken : ℕ} (h : callers[c]? = some (.holds slot))
    (hwoken : (callers.set c .outside)[woken]? = some .asleep) (caller : Caller) :
    ((callers.set c .outside).set woken .awake).count caller +
        (if .holds slot = caller then 1 else 0) + (if .asleep = caller then 1 else 0) =
      callers.count caller + (if .outside = caller then 1 else 0) +
        if .awake = caller then 1 else 0 := by
  have hcount := count_set_add h .outside caller
  have hcount' := count_set_add hwoken .awake caller
  omega

theorem Accounted.step (h : s.Accounted n) (hstep : Step s s') : s'.Accounted n := by
  intro slot'
  have hslot := h slot'
  cases hstep with
  | @enter free callers c hc | @wake free callers c hc =>
    have hcount := count_set_add hc .awake (.holds slot')
    simp only [reduceCtorEq, if_false] at hcount hslot ⊢
    omega
  | @sleep callers c hc =>
    have hcount := count_set_add hc .asleep (.holds slot')
    simp only [reduceCtorEq, if_false] at hcount hslot ⊢
    omega
  | @take free callers c slot hc =>
    have hcount := count_set_add hc (.holds slot) (.holds slot')
    simp only [reduceCtorEq, if_false, Caller.holds.injEq] at hcount
    simp only [List.count_append, List.count_singleton, beq_iff_eq] at hslot ⊢
    omega
  | @giveBack free callers c slot hc hnone =>
    have hcount := count_set_add hc .outside (.holds slot')
    simp only [reduceCtorEq, if_false, Caller.holds.injEq] at hcount
    simp only [List.count_append, List.count_singleton, beq_iff_eq] at hslot ⊢
    omega
  | @notify free callers c slot woken hc hwoken =>
    have hcount := count_notify_add hc hwoken (.holds slot')
    simp only [reduceCtorEq, if_false, Caller.holds.injEq] at hcount
    simp only [List.count_append, List.count_singleton, beq_iff_eq] at hslot ⊢
    omega

theorem Attended.step (h : s.Attended) (hstep : Step s s') : s'.Attended := by
  cases hstep with
  | @enter free callers c hc | @wake free callers c hc =>
    have hcount := count_set_add hc .awake .awake
    simp only [reduceCtorEq, if_false, if_true] at hcount
    refine h.imp (fun hnone => not_mem_asleep_set hnone (by simp)) fun hle => ?_
    simp only at hle ⊢
    omega
  | @take free callers c slot hc =>
    have hcount := count_set_add hc (.holds slot) .awake
    simp only [reduceCtorEq, if_false, if_true] at hcount
    refine h.imp (fun hnone => not_mem_asleep_set hnone (by simp)) fun hle => ?_
    simp only [List.length_append, List.length_singleton] at hle ⊢
    omega
  | sleep c hc => exact .inr (Nat.zero_le _)
  | giveBack c slot hc hnone => exact .inl hnone
  | @notify free callers c slot woken hc hwoken =>
    -- One more slot is free, and one more caller looks for it.
    have hcount := count_notify_add hc hwoken .awake
    simp only [reduceCtorEq, if_false, if_true] at hcount
    refine .inr ?_
    rcases h with hnone | hle
    · exact absurd (List.mem_of_getElem? hwoken) (not_mem_asleep_set hnone (by simp))
    · simp only [List.length_append, List.length_singleton] at hle ⊢
      omega

theorem reachable_sound (h : s.Accounted n) (h' : s.Attended)
    (hsteps : Relation.ReflTransGen Step s s') : s'.Accounted n ∧ s'.Attended := by
  induction hsteps with
  | refl => exact ⟨h, h'⟩
  | tail _ hstep ih => exact ⟨ih.1.step hstep, ih.2.step hstep⟩

/-- At the start all slots are free. -/
theorem accounted_start (n callers : ℕ) :
    Accounted n ⟨(List.range n).reverse, List.replicate callers .outside⟩ := by
  intro slot
  have hfree : (List.range n).reverse.count slot = if slot < n then 1 else 0 := by
    rw [List.count_reverse, List.nodup_range.count]
    simp only [List.mem_range]
  have hheld : (List.replicate callers Caller.outside).count (.holds slot) = 0 := by
    rw [List.count_replicate]
    rfl
  simp only [hfree, hheld, Nat.add_zero]

theorem attended_start (free : List ℕ) (callers : ℕ) :
    Attended ⟨free, List.replicate callers .outside⟩ :=
  .inl fun hmem => by cases List.eq_of_mem_replicate hmem

end Leases

end Lib
