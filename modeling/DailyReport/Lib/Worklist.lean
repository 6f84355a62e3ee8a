import Mathlib.Data.List.Nodup
import Mathlib.Tactic.Common

/-!
# Work that is settled item by item

A program walks over a list of plans.  Each plan is settled at once or queued as a task that is
settled later, and what is known about a plan is a *view* of the program's output at the plan's key.
`Worklist plans pending out` says that every plan of `plans` is either settled or queued in
`pending`, and that the output says nothing about any other key.  Steps that touch one key keep it
(`settlePlan`, `queuePlan`, `settleTask`), and once nothing is pending every plan is settled
(`fate`).
-/

namespace Lib

variable {Plan Task Out View K : Type}

/-- How plans and tasks are seen in the output. -/
structure WorkKeys (Plan Task Out View K : Type) where
  plan : Plan → K
  task : Task → K
  view : Out → K → View
  untouched : View
  Queued : Plan → Task → View → Prop
  Fate : Plan → View → Prop

namespace WorkKeys

variable (w : WorkKeys Plan Task Out View K)

/-- What is known about a key: a task for it is pending, its plan is settled, or it has no plan. -/
inductive Standing (plans : List Plan) (pending : List Task) (out : Out) (k : K) : Prop
  | queued (plan : Plan) (task : Task) (hplan : plan ∈ plans) (htask : task ∈ pending)
      (hkey : w.plan plan = k) (htaskKey : w.task task = k) (h : w.Queued plan task (w.view out k))
  | settled (plan : Plan) (hplan : plan ∈ plans) (hkey : w.plan plan = k)
      (hpending : k ∉ pending.map w.task) (h : w.Fate plan (w.view out k))
  | foreign (hplans : k ∉ plans.map w.plan) (hpending : k ∉ pending.map w.task)
      (h : w.view out k = w.untouched)

/-- Every plan is settled or queued, and nothing is known about other keys. -/
structure Worklist (plans : List Plan) (pending : List Task) (out : Out) : Prop where
  plans_nodup : (plans.map w.plan).Nodup
  pending_nodup : (pending.map w.task).Nodup
  standing : ∀ k, w.Standing plans pending out k

/-- The outputs agree at every other key. -/
def Frame (out out' : Out) (k : K) : Prop := ∀ j, j ≠ k → w.view out' j = w.view out j

theorem Frame.refl (out : Out) (k : K) : w.Frame out out k := fun _ _ => rfl

variable {w} {plans : List Plan} {pending pending' : List Task} {out out' out'' : Out}

theorem Frame.trans {k : K} (h : w.Frame out out' k) (h' : w.Frame out' out'' k) :
    w.Frame out out'' k := fun j hj => (h' j hj).trans (h j hj)

namespace Worklist

theorem init (h : ∀ k, w.view out k = w.untouched) : w.Worklist [] [] out where
  plans_nodup := by simp
  pending_nodup := by simp
  standing k := .foreign (by simp) (by simp) (h k)

/-- A pending task belongs to a plan. -/
theorem mem_plans (h : w.Worklist plans pending out) {k : K} (hk : k ∈ pending.map w.task) :
    k ∈ plans.map w.plan := by
  rcases h.standing k with ⟨plan, task, hplan, -, rfl, -, -⟩ | ⟨_, _, _, hpending, _⟩ |
    ⟨_, hpending, _⟩
  · exact List.mem_map_of_mem hplan
  · exact absurd hk hpending
  · exact absurd hk hpending

/-- A pending task is queued for its plan. -/
theorem exists_plan (h : w.Worklist plans pending out) {task : Task} (htask : task ∈ pending) :
    ∃ plan ∈ plans, w.plan plan = w.task task ∧ w.Queued plan task (w.view out (w.task task)) := by
  have hmem : w.task task ∈ pending.map w.task := List.mem_map_of_mem htask
  rcases h.standing (w.task task) with ⟨plan, other, hplan, hother, hkey, hotherKey, hq⟩ |
    ⟨_, _, _, hpending, _⟩ | ⟨_, hpending, _⟩
  · have := List.inj_on_of_nodup_map h.pending_nodup hother htask hotherKey
    subst this
    exact ⟨plan, hplan, hkey, hq⟩
  · exact absurd hmem hpending
  · exact absurd hmem hpending

theorem perm (h : w.Worklist plans pending out) (hperm : pending.Perm pending') :
    w.Worklist plans pending' out where
  plans_nodup := h.plans_nodup
  pending_nodup := (hperm.map w.task).nodup_iff.1 h.pending_nodup
  standing k := by
    have hmem : k ∈ pending'.map w.task ↔ k ∈ pending.map w.task := (hperm.map w.task).mem_iff.symm
    rcases h.standing k with ⟨plan, task, hplan, htask, hkey, htaskKey, hq⟩ |
      ⟨plan, hplan, hkey, hpending, hf⟩ | ⟨hplans, hpending, hu⟩
    · exact .queued plan task hplan (hperm.mem_iff.1 htask) hkey htaskKey hq
    · exact .settled plan hplan hkey (hmem.not.2 hpending) hf
    · exact .foreign hplans (hmem.not.2 hpending) hu

/-- The output changes where nobody looks. -/
theorem congr (h : w.Worklist plans pending out) (hview : ∀ k, w.view out' k = w.view out k) :
    w.Worklist plans pending out' where
  plans_nodup := h.plans_nodup
  pending_nodup := h.pending_nodup
  standing k := by
    rcases h.standing k with ⟨plan, task, hplan, htask, hkey, htaskKey, hq⟩ |
      ⟨plan, hplan, hkey, hpending, hf⟩ | ⟨hplans, hpending, hu⟩
    · exact .queued plan task hplan htask hkey htaskKey (by rwa [hview])
    · exact .settled plan hplan hkey hpending (by rwa [hview])
    · exact .foreign hplans hpending (by rwa [hview])

/-- The next plan is settled at once. -/
theorem settlePlan (h : w.Worklist plans pending out) {plan : Plan}
    (hnew : w.plan plan ∉ plans.map w.plan) (hframe : w.Frame out out' (w.plan plan))
    (hfate : w.Fate plan (w.view out' (w.plan plan))) :
    w.Worklist (plans ++ [plan]) pending out' where
  plans_nodup := by
    rw [List.map_append, List.map_singleton, ← List.concat_eq_append]
    exact h.plans_nodup.concat hnew
  pending_nodup := h.pending_nodup
  standing k := by
    by_cases hk : k = w.plan plan
    · subst hk
      exact .settled plan (by simp) rfl (fun hp => hnew (h.mem_plans hp)) hfate
    · have hview := hframe k hk
      rcases h.standing k with ⟨p, task, hplan, htask, hkey, htaskKey, hq⟩ |
        ⟨p, hplan, hkey, hpending, hf⟩ | ⟨hplans, hpending, hu⟩
      · exact .queued p task (by simp [hplan]) htask hkey htaskKey (by rwa [hview])
      · exact .settled p (by simp [hplan]) hkey hpending (by rwa [hview])
      · exact .foreign (by simpa [hk] using hplans) hpending (by rw [hview, hu])

/-- The next plan is queued. -/
theorem queuePlan (h : w.Worklist plans pending out) {plan : Plan} {task : Task}
    (hnew : w.plan plan ∉ plans.map w.plan) (hframe : w.Frame out out' (w.plan plan))
    (hkey : w.task task = w.plan plan)
    (hqueued : w.Queued plan task (w.view out' (w.plan plan))) :
    w.Worklist (plans ++ [plan]) (pending ++ [task]) out' where
  plans_nodup := by
    rw [List.map_append, List.map_singleton, ← List.concat_eq_append]
    exact h.plans_nodup.concat hnew
  pending_nodup := by
    rw [List.map_append, List.map_singleton, ← List.concat_eq_append]
    exact h.pending_nodup.concat fun hk => hnew (hkey ▸ h.mem_plans hk)
  standing k := by
    by_cases hk : k = w.plan plan
    · subst hk
      exact .queued plan task (by simp) (by simp) rfl hkey hqueued
    · have hview := hframe k hk
      have hne : k ≠ w.task task := fun heq => hk (heq.trans hkey)
      rcases h.standing k with ⟨p, task, hplan, htask, hkey, htaskKey, hq⟩ |
        ⟨p, hplan, hkey, hpending, hf⟩ | ⟨hplans, hpending, hu⟩
      · exact .queued p task (by simp [hplan]) (by simp [htask]) hkey htaskKey (by rwa [hview])
      · exact .settled p (by simp [hplan]) hkey (by simpa [hne] using hpending) (by rwa [hview])
      · exact .foreign (by simpa [hk] using hplans) (by simpa [hne] using hpending)
          (by rw [hview, hu])

/-- A pending task is settled. -/
theorem settleTask {task : Task} (h : w.Worklist plans (task :: pending) out)
    (hframe : w.Frame out out' (w.task task))
    (hfate : ∀ plan ∈ plans, w.Queued plan task (w.view out (w.task task)) →
      w.Fate plan (w.view out' (w.task task))) :
    w.Worklist plans pending out' where
  plans_nodup := h.plans_nodup
  pending_nodup := (List.nodup_cons.1 h.pending_nodup).2
  standing k := by
    have hnodup := List.nodup_cons.1 h.pending_nodup
    by_cases hk : k = w.task task
    · subst hk
      rcases h.standing (w.task task) with ⟨p, t, hplan, htask, hkey, htaskKey, hq⟩ |
        ⟨_, _, _, hpending, _⟩ | ⟨_, hpending, _⟩
      · rcases List.mem_cons.1 htask with rfl | htask
        · exact .settled p hplan hkey hnodup.1 (hfate p hplan hq)
        · exact absurd (htaskKey ▸ List.mem_map_of_mem htask) hnodup.1
      · exact absurd (by simp) hpending
      · exact absurd (by simp) hpending
    · have hview := hframe k hk
      rcases h.standing k with ⟨p, t, hplan, htask, hkey, htaskKey, hq⟩ |
        ⟨p, hplan, hkey, hpending, hf⟩ | ⟨hplans, hpending, hu⟩
      · rcases List.mem_cons.1 htask with rfl | htask
        · exact absurd htaskKey.symm hk
        · exact .queued p t hplan htask hkey htaskKey (by rwa [hview])
      · rw [List.map_cons, List.mem_cons, not_or] at hpending
        exact .settled p hplan hkey hpending.2 (by rwa [hview])
      · rw [List.map_cons, List.mem_cons, not_or] at hpending
        exact .foreign hplans hpending.2 (by rw [hview, hu])

/-- Every pending task is settled in one step. -/
theorem settleAll (h : w.Worklist plans pending out)
    (hframe : ∀ k, k ∉ pending.map w.task → w.view out' k = w.view out k)
    (hfate : ∀ plan ∈ plans, ∀ task ∈ pending, w.Queued plan task (w.view out (w.task task)) →
      w.Fate plan (w.view out' (w.task task))) :
    w.Worklist plans [] out' where
  plans_nodup := h.plans_nodup
  pending_nodup := by simp
  standing k := by
    rcases h.standing k with ⟨p, t, hplan, htask, hkey, rfl, hq⟩ |
      ⟨p, hplan, hkey, hpending, hf⟩ | ⟨hplans, hpending, hu⟩
    · exact .settled p hplan hkey (by simp) (hfate p hplan t htask hq)
    · exact .settled p hplan hkey (by simp) (by rwa [hframe k hpending])
    · exact .foreign hplans (by simp) (by rw [hframe k hpending, hu])

/-- **Once nothing is pending, every plan is settled.** -/
theorem fate (h : w.Worklist plans [] out) {plan : Plan} (hplan : plan ∈ plans) :
    w.Fate plan (w.view out (w.plan plan)) := by
  rcases h.standing (w.plan plan) with ⟨_, _, _, htask, _, _, _⟩ | ⟨p, hp, hkey, _, hf⟩ |
    ⟨hplans, _, _⟩
  · cases htask
  · rwa [List.inj_on_of_nodup_map h.plans_nodup hp hplan hkey] at hf
  · exact absurd (List.mem_map_of_mem hplan) hplans

/-- Nothing is known about a key without a plan. -/
theorem untouched (h : w.Worklist plans pending out) {k : K} (hk : k ∉ plans.map w.plan) :
    w.view out k = w.untouched := by
  rcases h.standing k with ⟨_, _, hplan, _, rfl, _, _⟩ | ⟨_, hplan, rfl, _, _⟩ | ⟨_, _, hu⟩
  · exact absurd (List.mem_map_of_mem hplan) hk
  · exact absurd (List.mem_map_of_mem hplan) hk
  · exact hu

end Worklist

end WorkKeys

end Lib
