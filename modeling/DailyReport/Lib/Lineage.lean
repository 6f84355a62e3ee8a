import Mathlib.Data.List.Nodup
import Mathlib.Tactic.Common

/-!
# Lineages of revisions

A register that is replaced only by a revision made from its present content has a lineage: a log
of pairs, the revision that was replaced and the one that replaced it, in which every pair starts
where the one before it ended.

* `lineage_append` : a log is continued by a revision of its last one, and by no other;
* `Lineage.eq_of_previous` : **no revision is replaced twice**.
-/

namespace Lib

variable {α : Type*}

/-- Every revision replaces the one before it; the first one replaces `current`. -/
def Lineage : Option α → List (Option α × α) → Prop
  | _, [] => True
  | current, (previous, next) :: log => previous = current ∧ Lineage (some next) log

/-- The content of the register after the log. -/
def lastRevision : Option α → List (Option α × α) → Option α
  | current, [] => current
  | _, (_, next) :: log => lastRevision (some next) log

@[simp] theorem lineage_nil (current : Option α) : Lineage current [] := trivial

@[simp] theorem lastRevision_nil (current : Option α) : lastRevision current [] = current := rfl

@[simp] theorem lastRevision_append (current previous : Option α) (next : α)
    (log : List (Option α × α)) : lastRevision current (log ++ [(previous, next)]) = some next := by
  induction log generalizing current with
  | nil => rfl
  | cons pair log ih => exact ih (some pair.2)

/-- A log is continued by a revision of its last one. -/
theorem lineage_append {current previous : Option α} {next : α} {log : List (Option α × α)} :
    Lineage current (log ++ [(previous, next)]) ↔
      Lineage current log ∧ previous = lastRevision current log := by
  induction log generalizing current with
  | nil => simp [Lineage]
  | cons pair log ih =>
    show pair.1 = current ∧ Lineage (some pair.2) (log ++ [(previous, next)]) ↔ _
    rw [ih, ← and_assoc]
    rfl

/-- What is replaced is the first content or an earlier revision. -/
theorem Lineage.previous_mem {current : Option α} {log : List (Option α × α)}
    (h : Lineage current log) {pair : Option α × α} (hpair : pair ∈ log) :
    pair.1 = current ∨ ∃ earlier ∈ log, pair.1 = some earlier.2 := by
  induction log generalizing current with
  | nil => cases hpair
  | cons first log ih =>
    obtain ⟨hfirst, hrest⟩ := h
    rcases List.mem_cons.1 hpair with rfl | hpair
    · exact .inl hfirst
    · rcases ih hrest hpair with hprevious | ⟨earlier, hmem, hprevious⟩
      · exact .inr ⟨first, by simp, hprevious⟩
      · exact .inr ⟨earlier, by simp [hmem], hprevious⟩

/-- **No revision is replaced twice**, when no revision is made twice. -/
theorem Lineage.eq_of_previous {current : Option α} {log : List (Option α × α)}
    (h : Lineage current log) (hnodup : (log.map Prod.snd).Nodup)
    (hcurrent : ∀ pair ∈ log, some pair.2 ≠ current) {a b : Option α × α} (ha : a ∈ log)
    (hb : b ∈ log) (hprevious : a.1 = b.1) : a = b := by
  induction log generalizing current with
  | nil => cases ha
  | cons first log ih =>
    obtain ⟨hfirst, hrest⟩ := h
    rw [List.map_cons, List.nodup_cons] at hnodup
    have hlater : ∀ pair ∈ log, some pair.2 ≠ some first.2 := fun pair hpair heq =>
      hnodup.1 (Option.some.inj heq ▸ List.mem_map_of_mem hpair)
    -- what comes later replaces a revision of the log, never the first content
    have hnot : ∀ pair ∈ log, pair.1 ≠ current := by
      intro pair hpair heq
      rcases hrest.previous_mem hpair with hprev | ⟨earlier, hmem, hprev⟩
      · exact hcurrent first (by simp) (hprev.symm.trans heq)
      · exact hcurrent earlier (by simp [hmem]) (hprev.symm.trans heq)
    rcases List.mem_cons.1 ha with rfl | ha' <;> rcases List.mem_cons.1 hb with rfl | hb'
    · rfl
    · exact absurd (hprevious.symm.trans hfirst) (hnot b hb')
    · exact absurd (hprevious.trans hfirst) (hnot a ha')
    · exact ih hrest hnodup.2 hlater ha' hb'

end Lib
