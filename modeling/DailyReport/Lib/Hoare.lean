import DailyReport.Lib.Exec
import Mathlib.Logic.Relation

/-!
# What a program leaves behind

`Ensures` (of `Lib.Exec`) speaks about results only.  `Hoare P m Q` also speaks about the world: from
a world in `P`, every run of `m` that succeeds ends with a result and a world in `Q`.  It has one rule
for each way a program is put together, and a loop rule (`Hoare.foldlM_prefix`); what is known about
results alone joins in by `Hoare.and_ensures`.

`Moves step m` says that `m` changes the world by certain steps only, so it keeps what they keep
(`Moves.hoare`).
-/

namespace Lib

variable {σ ε α β : Type}

/-- From a world in `P`, every run that succeeds ends in `Q`. -/
def Hoare (P : σ → Prop) (m : Exec σ ε α) (Q : α → σ → Prop) : Prop :=
  ∀ ⦃s a s'⦄, P s → m s = .ok (a, s') → Q a s'

namespace Hoare

variable {P P' : σ → Prop} {m : Exec σ ε α} {Q Q' : α → σ → Prop}

theorem weaken (h : Hoare P m Q) (hP : ∀ s, P' s → P s) (hQ : ∀ a s, Q a s → Q' a s) :
    Hoare P' m Q' :=
  fun _ _ _ hs hrun => hQ _ _ (h (hP _ hs) hrun)

theorem mono (h : Hoare P m Q) (hQ : ∀ a s, Q a s → Q' a s) : Hoare P m Q' :=
  h.weaken (fun _ hs => hs) hQ

theorem and (h : Hoare P m Q) (h' : Hoare P m Q') : Hoare P m fun a s => Q a s ∧ Q' a s :=
  fun _ _ _ hs hrun => ⟨h hs hrun, h' hs hrun⟩

/-- What is known about the results of a program holds of its runs from any world. -/
theorem and_ensures {R : α → Prop} (h : Hoare P m Q) (hm : Ensures m R) :
    Hoare P m fun a s => Q a s ∧ R a :=
  fun _ _ _ hs hrun => ⟨h hs hrun, hm hrun⟩

/-- A fact that no world has a part in. -/
theorem of_fact {p : Prop} (h : p → Hoare P m Q) : Hoare (fun s => P s ∧ p) m Q :=
  fun _ _ _ ⟨hs, hp⟩ hrun => h hp hs hrun

theorem pure {a : α} (h : ∀ s, P s → Q a s) : Hoare P (Pure.pure a : Exec σ ε α) Q := by
  intro s b s' hs hrun
  obtain ⟨rfl, rfl⟩ := Exec.pure_eq_ok.1 hrun
  exact h s hs

theorem ask {f : StateM σ α} (h : ∀ s, P s → Q (f s).1 (f s).2) :
    Hoare P (Exec.ask f : Exec σ ε α) Q := by
  intro s a s' hs hrun
  obtain ⟨rfl, rfl⟩ : (f s).1 = a ∧ (f s).2 = s' := by
    simpa [Exec.ask, Prod.ext_iff] using hrun
  exact h s hs

theorem throw {e : ε} : Hoare P (throw e : Exec σ ε α) Q := by
  intro s a s' _ hrun
  cases hrun

theorem ofExcept {x : Except ε α} (h : ∀ a s, x = .ok a → P s → Q a s) :
    Hoare P (Exec.ofExcept x : Exec σ ε α) Q := by
  intro s a s' hs hrun
  cases x with
  | error e => cases hrun
  | ok b =>
    obtain ⟨rfl, rfl⟩ : b = a ∧ s = s' := by simpa [Exec.ofExcept, Except.map] using hrun
    exact h b s rfl hs

theorem bind {R : β → σ → Prop} {f : α → Exec σ ε β} (hm : Hoare P m Q)
    (hf : ∀ a, Hoare (Q a) (f a) R) : Hoare P (m >>= f) R := by
  intro s b s' hs hrun
  obtain ⟨a, t, hfirst, hrest⟩ := Exec.bind_eq_ok.1 hrun
  exact hf a (hm hs hfirst) hrest

theorem ite {p : Prop} [Decidable p] {m' : Exec σ ε α} (ht : p → Hoare P m Q)
    (hf : ¬ p → Hoare P m' Q) : Hoare P (if p then m else m') Q := by
  split_ifs with h
  · exact ht h
  · exact hf h

/-- **The loop rule**: the invariant names the part of the list that is done. -/
theorem foldlM_prefix {f : β → α → Exec σ ε β} {l : List α} {b : β} {P : σ → Prop}
    (I : List α → β → σ → Prop) (hinit : ∀ s, P s → I [] b s)
    (hstep : ∀ done a b, done ++ [a] <+: l → Hoare (I done b) (f b a) (I (done ++ [a]))) :
    Hoare P (l.foldlM f b) (I l) := by
  suffices h : ∀ rest done b, done ++ rest = l → Hoare (I done b) (rest.foldlM f b) (I l) from
    (h l [] b rfl).weaken hinit fun _ _ h => h
  intro rest
  induction rest with
  | nil =>
    intro done b hl
    rw [List.append_nil] at hl
    subst hl
    exact pure fun _ h => h
  | cons a rest ih =>
    intro done b hl
    rw [List.foldlM_cons]
    have hl' : done ++ [a] ++ rest = l := by rw [← hl, List.append_assoc]; rfl
    exact (hstep done a b ⟨rest, hl'⟩).bind fun b' => ih (done ++ [a]) b' hl'

/-- The loop rule for an invariant that does not depend on the part that is done. -/
theorem foldlM {f : β → α → Exec σ ε β} {l : List α} {b : β} (I : β → σ → Prop)
    (hstep : ∀ a ∈ l, ∀ b, Hoare (I b) (f b a) I) : Hoare (I b) (l.foldlM f b) I :=
  foldlM_prefix (fun _ => I) (fun _ h => h) fun _ a b hpre => hstep a (hpre.subset (by simp)) b

/-- A traversal keeps what each item's program keeps. -/
theorem mapM {f : α → Exec σ ε β} {l : List α} (h : ∀ a ∈ l, Hoare P (f a) fun _ => P) :
    Hoare P (l.mapM f) fun _ => P := by
  induction l with
  | nil => exact pure fun _ hs => hs
  | cons a l ih =>
    rw [List.mapM_cons]
    refine (h a (by simp)).bind fun b => ?_
    exact (ih fun a' ha' => h a' (by simp [ha'])).bind fun bs => pure fun _ hs => hs

end Hoare

/-! ### Programs that go by steps -/

/-- Every run that succeeds goes from its first world to its last by these steps. -/
def Moves (step : σ → σ → Prop) (m : Exec σ ε α) : Prop :=
  ∀ ⦃s a s'⦄, m s = .ok (a, s') → Relation.ReflTransGen step s s'

namespace Moves

variable {step : σ → σ → Prop} {m : Exec σ ε α}

/-- A program keeps what its steps keep. -/
theorem hoare {P : σ → Prop} (h : Moves step m) (hstep : ∀ s s', P s → step s s' → P s') :
    Hoare P m fun _ => P := by
  intro s a s' hs hrun
  have hsteps := h hrun
  clear hrun
  induction hsteps with
  | refl => exact hs
  | tail _ hlast ih => exact hstep _ _ ih hlast

theorem pure (a : α) : Moves step (Pure.pure a : Exec σ ε α) := by
  intro s b s' hrun
  obtain ⟨-, rfl⟩ := Exec.pure_eq_ok.1 hrun
  exact .refl

theorem ask {f : StateM σ α} (h : ∀ s, step s (f s).2) :
    Moves step (Exec.ask f : Exec σ ε α) := by
  intro s a s' hrun
  obtain ⟨-, rfl⟩ : (f s).1 = a ∧ (f s).2 = s' := by
    simpa [Exec.ask, Prod.ext_iff] using hrun
  exact .single (h s)

theorem throw {e : ε} : Moves step (throw e : Exec σ ε α) := by
  intro s a s' hrun
  cases hrun

theorem ofExcept (x : Except ε α) : Moves step (Exec.ofExcept x : Exec σ ε α) := by
  intro s a s' hrun
  cases x with
  | error e => cases hrun
  | ok b =>
    obtain ⟨-, rfl⟩ : b = a ∧ s = s' := by simpa [Exec.ofExcept, Except.map] using hrun
    exact .refl

/-- The second part may rely on what the results of the first are known for. -/
theorem bind_ensures {f : α → Exec σ ε β} {R : α → Prop} (hm : Moves step m) (hR : Ensures m R)
    (hf : ∀ a, R a → Moves step (f a)) : Moves step (m >>= f) := by
  intro s b s' hrun
  obtain ⟨a, t, hfirst, hrest⟩ := Exec.bind_eq_ok.1 hrun
  exact (hm hfirst).trans (hf a (hR hfirst) hrest)

theorem bind {f : α → Exec σ ε β} (hm : Moves step m) (hf : ∀ a, Moves step (f a)) :
    Moves step (m >>= f) :=
  hm.bind_ensures (.trivial m) fun a _ => hf a

theorem ite {p : Prop} [Decidable p] {m' : Exec σ ε α} (ht : p → Moves step m)
    (hf : ¬ p → Moves step m') : Moves step (if p then m else m') := by
  split_ifs with h
  · exact ht h
  · exact hf h

theorem foldlM {f : β → α → Exec σ ε β} {l : List α} {b : β}
    (h : ∀ a ∈ l, ∀ b, Moves step (f b a)) : Moves step (l.foldlM f b) := by
  induction l generalizing b with
  | nil => exact pure b
  | cons a l ih =>
    rw [List.foldlM_cons]
    exact (h a (by simp) b).bind fun b' => ih fun a' ha' => h a' (by simp [ha'])

theorem mapM {f : α → Exec σ ε β} {l : List α} (h : ∀ a ∈ l, Moves step (f a)) :
    Moves step (l.mapM f) := by
  induction l with
  | nil => exact pure []
  | cons a l ih =>
    rw [List.mapM_cons]
    refine (h a (by simp)).bind fun b => ?_
    exact (ih fun a' ha' => h a' (by simp [ha'])).bind fun bs => pure _

end Moves

end Lib
