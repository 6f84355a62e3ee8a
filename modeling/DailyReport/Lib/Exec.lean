import Mathlib.Data.List.Basic
import Mathlib.Tactic.Common

/-!
# Programs over a hidden state

`Exec σ ε` is a program that talks to a world `σ` it cannot see and may fail.  Two judgements say
what such a program does whatever the world answers:

* `Ensures m Q` : every run that succeeds ends with a result in `Q`, from any world;
* `Returns P m r Q` : from a world in `P` the program returns exactly `r`, and leaves a world in `Q`.

Both have one rule for each way a program is put together, and a loop rule
(`Ensures.foldlM`, `Returns.foldlM`).
-/

namespace Lib

/-- A program over the world `σ` that may fail with `ε`. -/
abbrev Exec (σ ε α : Type) := StateT σ (Except ε) α

variable {σ ε α β : Type}

namespace Exec

/-- Ask the world, which always answers. -/
def ask (f : StateM σ α) : Exec σ ε α := fun s => .ok (f s)

/-- Go on with a pure result, or stop at its failure. -/
def ofExcept (x : Except ε α) : Exec σ ε α := fun s => x.map fun a => (a, s)

theorem pure_eq_ok {a b : α} {s s' : σ} :
    (Pure.pure a : Exec σ ε α) s = .ok (b, s') ↔ a = b ∧ s = s' := by
  change (Except.ok (a, s) : Except ε (α × σ)) = .ok (b, s') ↔ _
  rw [Except.ok.injEq, Prod.mk.injEq]

end Exec

/-! ### Every successful run -/

/-- Every run that succeeds ends with a result in `Q`. -/
def Ensures (m : Exec σ ε α) (Q : α → Prop) : Prop :=
  ∀ ⦃s a s'⦄, m s = .ok (a, s') → Q a

namespace Ensures

variable {m : Exec σ ε α} {P Q : α → Prop}

theorem mono (h : Ensures m P) (hPQ : ∀ a, P a → Q a) : Ensures m Q :=
  fun _ _ _ hrun => hPQ _ (h hrun)

theorem and (hP : Ensures m P) (hQ : Ensures m Q) : Ensures m fun a => P a ∧ Q a :=
  fun _ _ _ hrun => ⟨hP hrun, hQ hrun⟩

theorem trivial (m : Exec σ ε α) : Ensures m fun _ => True := fun _ _ _ _ => True.intro

theorem pure {a : α} (h : Q a) : Ensures (Pure.pure a : Exec σ ε α) Q := by
  intro s b s' hrun
  obtain ⟨rfl, -⟩ := Exec.pure_eq_ok.1 hrun
  exact h

/-- What the world answers is an answer of its. -/
theorem ask {f : StateM σ α} : Ensures (Exec.ask f : Exec σ ε α) fun a => ∃ s, (f s).1 = a := by
  intro s a s' hrun
  obtain ⟨rfl, -⟩ : (f s).1 = a ∧ (f s).2 = s' := by simpa [Exec.ask, Prod.ext_iff] using hrun
  exact ⟨s, rfl⟩

theorem throw {e : ε} : Ensures (throw e : Exec σ ε α) Q := by
  intro s a s' hrun
  cases hrun

theorem ofExcept {x : Except ε α} (h : ∀ a, x = .ok a → Q a) :
    Ensures (Exec.ofExcept x : Exec σ ε α) Q := by
  intro s a s' hrun
  cases x with
  | error e => cases hrun
  | ok b =>
    obtain ⟨rfl, -⟩ : b = a ∧ s = s' := by simpa [Exec.ofExcept, Except.map] using hrun
    exact h b rfl

end Ensures

/-- A run of a sequence is a run of its parts. -/
theorem Exec.bind_eq_ok {m : Exec σ ε α} {f : α → Exec σ ε β} {s s' : σ} {b : β} :
    (m >>= f) s = .ok (b, s') ↔ ∃ a t, m s = .ok (a, t) ∧ f a t = .ok (b, s') := by
  change (m s >>= fun p => f p.1 p.2) = _ ↔ _
  cases m s with
  | error e => simp [Bind.bind, Except.bind]
  | ok p =>
    obtain ⟨a, t⟩ := p
    constructor
    · exact fun h => ⟨a, t, rfl, h⟩
    · rintro ⟨a', t', heq, h⟩
      obtain ⟨rfl, rfl⟩ : a = a' ∧ t = t' := by simpa using heq
      exact h

namespace Ensures

theorem bind {m : Exec σ ε α} {f : α → Exec σ ε β} {P : α → Prop} {Q : β → Prop}
    (hm : Ensures m P) (hf : ∀ a, P a → Ensures (f a) Q) : Ensures (m >>= f) Q := by
  intro s b s' hrun
  obtain ⟨a, t, hfirst, hrest⟩ := Exec.bind_eq_ok.1 hrun
  exact hf a (hm hfirst) hrest

/-- What the first part returns is not needed. -/
theorem bind_trivial {m : Exec σ ε α} {f : α → Exec σ ε β} {Q : β → Prop}
    (hf : ∀ a, Ensures (f a) Q) : Ensures (m >>= f) Q :=
  (trivial m).bind fun a _ => hf a

theorem ite {p : Prop} [Decidable p] {m m' : Exec σ ε α} {Q : α → Prop}
    (ht : p → Ensures m Q) (hf : ¬ p → Ensures m' Q) : Ensures (if p then m else m') Q := by
  split_ifs with h
  · exact ht h
  · exact hf h

/-- **The loop rule**: the invariant names the part of the list that is done. -/
theorem foldlM_prefix {f : β → α → Exec σ ε β} {l : List α} {b : β} (I : List α → β → Prop)
    (hinit : I [] b)
    (hstep : ∀ done a b, done ++ [a] <+: l → I done b → Ensures (f b a) (I (done ++ [a]))) :
    Ensures (l.foldlM f b) (I l) := by
  suffices h : ∀ rest done b, done ++ rest = l → I done b →
      Ensures (rest.foldlM f b) (I l) from h l [] b rfl hinit
  intro rest
  induction rest with
  | nil =>
    intro done b hl hI
    rw [List.append_nil] at hl
    subst hl
    exact Ensures.pure hI
  | cons a rest ih =>
    intro done b hl hI
    rw [List.foldlM_cons]
    have hl' : done ++ [a] ++ rest = l := by rw [← hl, List.append_assoc]; rfl
    exact (hstep done a b ⟨rest, hl'⟩ hI).bind fun b' hI' => ih (done ++ [a]) b' hl' hI'

/-- The loop rule for an invariant that does not depend on the part that is done. -/
theorem foldlM {f : β → α → Exec σ ε β} {l : List α} {b : β} (I : β → Prop) (hinit : I b)
    (hstep : ∀ a ∈ l, ∀ b, I b → Ensures (f b a) I) : Ensures (l.foldlM f b) I :=
  foldlM_prefix (fun _ => I) hinit fun _ a b hpre =>
    hstep a (hpre.subset (by simp)) b

end Ensures

/-- A traversal gives one result for each item. -/
theorem Ensures.mapM {f : α → Exec σ ε β} {Q : α → β → Prop} {l : List α}
    (h : ∀ a ∈ l, Ensures (f a) (Q a)) : Ensures (l.mapM f) (List.Forall₂ Q l) := by
  induction l with
  | nil => exact Ensures.pure .nil
  | cons a l ih =>
    rw [List.mapM_cons]
    refine (h a (by simp)).bind fun b hb => ?_
    refine (ih fun a' ha' => h a' (by simp [ha'])).bind fun bs hbs => ?_
    exact Ensures.pure (.cons hb hbs)

/-! ### Runs with one possible result -/

/-- From a world in `P` the program does what `r` says and leaves a world in `Q`. -/
def Returns (P : σ → Prop) (m : Exec σ ε α) (r : Except ε α) (Q : σ → Prop) : Prop :=
  ∀ s, P s → match r with
    | .ok a => ∃ s', m s = .ok (a, s') ∧ Q s'
    | .error e => m s = .error e

namespace Returns

variable {P Q R : σ → Prop} {m : Exec σ ε α} {a : α}

theorem weaken {P' Q' : σ → Prop} {r : Except ε α} (h : Returns P m r Q) (hP : ∀ s, P' s → P s)
    (hQ : ∀ s, Q s → Q' s) : Returns P' m r Q' := by
  intro s hs
  have := h s (hP s hs)
  cases r with
  | error e => exact this
  | ok a =>
    obtain ⟨s', hrun, hs'⟩ := this
    exact ⟨s', hrun, hQ s' hs'⟩

theorem pure (a : α) : Returns P (Pure.pure a : Exec σ ε α) (.ok a) P := fun s hs => ⟨s, rfl, hs⟩

theorem ofExcept (x : Except ε α) : Returns P (Exec.ofExcept x : Exec σ ε α) x P := by
  intro s hs
  cases x with
  | error e => rfl
  | ok a => exact ⟨s, rfl, hs⟩

theorem ask {f : StateM σ α} (h : ∀ s, P s → (f s).1 = a ∧ Q (f s).2) :
    Returns P (Exec.ask f : Exec σ ε α) (.ok a) Q := by
  intro s hs
  obtain ⟨ha, hQ⟩ := h s hs
  exact ⟨(f s).2, congrArg Except.ok (Prod.ext ha rfl), hQ⟩

theorem bind {f : α → Exec σ ε β} {r : Except ε β} (hm : Returns P m (.ok a) Q)
    (hf : Returns Q (f a) r R) : Returns P (m >>= f) r R := by
  intro s hs
  obtain ⟨s', hrun, hs'⟩ := hm s hs
  have heq : (m >>= f) s = f a s' := by
    change (m s >>= fun p => f p.1 p.2) = _
    rw [hrun]
    rfl
  rw [heq]
  exact hf s' hs'

/-- A part whose result is not used may return anything. -/
theorem bind_any {f : α → Exec σ ε β} {r : Except ε β}
    (hm : ∀ s, P s → ∃ a s', m s = .ok (a, s') ∧ Q s')
    (hf : ∀ a, Returns Q (f a) r R) : Returns P (m >>= f) r R := by
  intro s hs
  obtain ⟨a, s', hrun, hs'⟩ := hm s hs
  have heq : (m >>= f) s = f a s' := by
    change (m s >>= fun p => f p.1 p.2) = _
    rw [hrun]
    rfl
  rw [heq]
  exact hf a s' hs'

/-- A pure part that fails ends the program. -/
theorem bind_ofExcept {f : α → Exec σ ε β} {x : Except ε α} {r : α → Except ε β}
    (hf : ∀ a, x = .ok a → Returns P (f a) (r a) R) :
    Returns P (Exec.ofExcept x >>= f) (x >>= r) R := by
  cases x with
  | error e => exact fun s _ => rfl
  | ok a => exact (ofExcept (.ok a)).bind (hf a rfl)

/-- **The loop rule**: the program's loop returns what the pure loop computes. -/
theorem foldlM {f : β → α → Exec σ ε β} {g : β → α → β} {l : List α} (b : β)
    (hstep : ∀ a ∈ l, ∀ b, Returns P (f b a) (.ok (g b a)) P) :
    Returns P (l.foldlM f b) (.ok (l.foldl g b)) P := by
  induction l generalizing b with
  | nil => exact pure b
  | cons a l ih =>
    rw [List.foldlM_cons, List.foldl_cons]
    exact (hstep a (by simp) b).bind (ih (g b a) fun a' ha' => hstep a' (by simp [ha']))

/-- A traversal returns what each item's program returns. -/
theorem mapM {f : α → Exec σ ε β} {g : α → β} {l : List α}
    (h : ∀ a ∈ l, Returns P (f a) (.ok (g a)) P) :
    Returns P (l.mapM f) (.ok (l.map g)) P := by
  induction l with
  | nil => exact pure []
  | cons a l ih =>
    rw [List.mapM_cons]
    refine (h a (by simp)).bind ?_
    exact (ih fun a' ha' => h a' (by simp [ha'])).bind (pure _)

end Returns

end Lib
