import Mathlib.Data.List.Induction
import Mathlib.Tactic.Common

/-!
# Histories

A history lists what happened, the newest entry last.  `EachAfter P` says that every entry was
allowed to happen after the entries before it.

* `eachAfter_append` : a history grows by one allowed entry;
* `EachAfter.length_filterMap_le` : **what happens only while it happened fewer than `n` times
  happens at most `n` times**.
-/

namespace Lib

variable {α β : Type*} {P Q : List α → α → Prop} {history : List α}

/-- Every entry satisfies `P` after the entries before it. -/
def EachAfter (P : List α → α → Prop) (history : List α) : Prop :=
  ∀ before entry later, history = before ++ entry :: later → P before entry

@[simp] theorem eachAfter_nil : EachAfter P [] := by
  intro before entry later h
  simp at h

theorem eachAfter_append {last : α} :
    EachAfter P (history ++ [last]) ↔ EachAfter P history ∧ P history last := by
  constructor
  · intro h
    refine ⟨fun before entry later hsplit => h before entry (later ++ [last]) ?_, h history last [] rfl⟩
    rw [hsplit, List.append_assoc, List.cons_append]
  · rintro ⟨h, hlast⟩ before entry later hsplit
    rcases List.eq_nil_or_concat later with rfl | ⟨rest, final, rfl⟩
    · obtain ⟨rfl, hentry⟩ := List.append_inj' hsplit rfl
      cases hentry
      exact hlast
    · have hshift : history ++ [last] = (before ++ entry :: rest) ++ [final] := by
        rw [hsplit, List.append_assoc, List.cons_append, List.concat_eq_append]
      obtain ⟨hhistory, -⟩ := List.append_inj' hshift rfl
      exact h before entry rest hhistory

theorem EachAfter.mono (h : EachAfter P history) (hPQ : ∀ before entry, P before entry → Q before entry) :
    EachAfter Q history :=
  fun before entry later hsplit => hPQ before entry (h before entry later hsplit)

/-- What happens only while it happened fewer than `n` times happens at most `n` times. -/
theorem EachAfter.length_filterMap_le {f : α → Option β} {n : ℕ}
    (h : EachAfter (fun before entry => (f entry).isSome → (before.filterMap f).length < n) history) :
    (history.filterMap f).length ≤ n := by
  induction history using List.reverseRecOn with
  | nil => simp
  | append_singleton history last ih =>
    obtain ⟨hhistory, hlast⟩ := eachAfter_append.1 h
    rw [List.filterMap_append, List.length_append]
    cases hf : f last with
    | none =>
      have hbefore := ih hhistory
      simpa [hf] using hbefore
    | some b =>
      have hbefore := hlast (by simp [hf])
      simp only [List.filterMap_cons, hf, List.filterMap_nil, List.length_singleton]
      omega

end Lib
