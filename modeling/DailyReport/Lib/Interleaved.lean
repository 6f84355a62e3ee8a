import Mathlib.Logic.Relation
import Mathlib.Tactic.Common

/-!
# Programs among others

A program takes its steps in a world that others change between them, as far as a relation allows it
(`Rely`), and it may be stopped before any of its steps.  `Safe R G Q p w` says what the program does
from a world on, whatever the others do: each of its own steps is in the relation `G`, and when it
comes to a result, the result and the world are in `Q`.  What is safe stays so along every run
(`Safe.run`).

For programs that may fail, `Holds R G E P m Q` is the judgement with a condition before and one
behind, which has to be kept by the others (`Stable`); failures are in `E`.  It has one rule for
each way a program is put together.
-/

namespace Lib

/-- A program: a step reads and writes the world at once, and tells how to go on. -/
inductive Program (W α : Type) where
  | done (a : α)
  | step (write : W → W) (next : W → Program W α)

variable {W ε α β : Type}

namespace Program

def bind : Program W α → (α → Program W β) → Program W β
  | .done a, f => f a
  | .step write next, f => .step write fun w => (next w).bind f

instance : Monad (Program W) where
  pure := .done
  bind := bind

/-- One step, with what it finds. -/
def atomic (f : W → α × W) : Program W α := .step (fun w => (f w).2) fun w => .done (f w).1

/-- The program alone, with nobody else in the world. -/
def alone : Program W α → W → α × W
  | .done a, w => (a, w)
  | .step write next, w => (next w).alone (write w)

/-- What is left of the program after some steps, with nobody else in the world. -/
def after : ℕ → Program W α → W → W × Program W α
  | 0, p, w => (w, p)
  | _ + 1, .done a, w => (w, .done a)
  | n + 1, .step write next, w => (next w).after n (write w)

end Program

/-! ### Runs -/

/-- What others may do to the world, in any number of steps. -/
structure Rely (W : Type) where
  rel : W → W → Prop
  refl : ∀ w, rel w w
  trans : ∀ {u v w}, rel u v → rel v w → rel u w

/-- What can happen next: others change the world, or the program takes its step. -/
inductive Proceeds (R : Rely W) : W × Program W α → W × Program W α → Prop
  | others {w w' : W} {p : Program W α} (h : R.rel w w') : Proceeds R (w, p) (w', p)
  | own {w : W} {write : W → W} {next : W → Program W α} :
    Proceeds R (w, .step write next) (write w, next w)

/-- A run, which may be stopped anywhere. -/
abbrev Interleaving (R : Rely W) : W × Program W α → W × Program W α → Prop :=
  Relation.ReflTransGen (Proceeds R)

/-- A program may be left alone. -/
theorem interleaving_alone (R : Rely W) (p : Program W α) (w : W) :
    Interleaving R (w, p) ((p.alone w).2, .done (p.alone w).1) := by
  induction p generalizing w with
  | done a => exact .refl
  | step write next ih => exact .head .own (ih w (write w))

/-- A program may be stopped after any number of steps. -/
theorem interleaving_after (R : Rely W) (n : ℕ) (p : Program W α) (w : W) :
    Interleaving R (w, p) (p.after n w) := by
  induction n generalizing p w with
  | zero => exact .refl
  | succ n ih =>
    cases p with
    | done a => exact .refl
    | step write next => exact .head .own (ih (next w) (write w))

/-- Every step is in `G` and every result in `Q`, whatever the others do. -/
def Safe (R : Rely W) (G : W → W → Prop) (Q : α → W → Prop) : Program W α → W → Prop
  | .done a, w => ∀ w', R.rel w w' → Q a w'
  | .step write next, w => ∀ w', R.rel w w' → G w' (write w') ∧ Safe R G Q (next w') (write w')

namespace Safe

variable {R : Rely W} {G : W → W → Prop} {Q Q' : α → W → Prop} {p : Program W α} {w w' : W}

/-- What the others do keeps a program safe. -/
theorem others (h : Safe R G Q p w) (hw : R.rel w w') : Safe R G Q p w' := by
  cases p with
  | done a => exact fun u hu => h u (R.trans hw hu)
  | step write next => exact fun u hu => h u (R.trans hw hu)

/-- **What is safe stays safe along every run.** -/
theorem run {q : Program W α} (h : Safe R G Q p w) (hrun : Interleaving R (w, p) (w', q)) :
    Safe R G Q q w' := by
  have hall : ∀ c : W × Program W α, Interleaving R (w, p) c → Safe R G Q c.2 c.1 := by
    intro c hc
    induction hc with
    | refl => exact h
    | tail _ hnext ih =>
      cases hnext with
      | others hw => exact ih.others hw
      | own => exact (ih _ (R.refl _)).2
  exact hall (w', q) hrun

/-- What every step is in, of the program and of the others, holds of a whole run. -/
theorem related {S : W → W → Prop} {q : Program W α} (hrefl : ∀ w, S w w)
    (htrans : ∀ u v w, S u v → S v w → S u w) (hothers : ∀ u v, R.rel u v → S u v)
    (hown : ∀ u v, G u v → S u v) (h : Safe R G Q p w)
    (hrun : Interleaving R (w, p) (w', q)) : S w w' := by
  have hall : ∀ c : W × Program W α, Interleaving R (w, p) c → S w c.1 := by
    intro c hc
    induction hc with
    | refl => exact hrefl w
    | tail hc hnext ih =>
      cases hnext with
      | others hw => exact htrans _ _ _ ih (hothers _ _ hw)
      | own => exact htrans _ _ _ ih (hown _ _ ((h.run hc) _ (R.refl _)).1)
  exact hall (w', q) hrun

theorem mono (hQ : ∀ a w, Q a w → Q' a w) (h : Safe R G Q p w) : Safe R G Q' p w := by
  induction p generalizing w with
  | done a => exact fun w' hw => hQ a w' (h w' hw)
  | step write next ih => exact fun w' hw => ⟨(h w' hw).1, ih w' (h w' hw).2⟩

/-- A sequence is safe when its first part leads to a world from which the second is. -/
theorem bind {Q : β → W → Prop} {f : α → Program W β}
    (h : Safe R G (fun a w => Safe R G Q (f a) w) p w) : Safe R G Q (p.bind f) w := by
  induction p generalizing w with
  | done a => exact h w (R.refl w)
  | step write next ih => exact fun w' hw => ⟨(h w' hw).1, ih w' (h w' hw).2⟩

end Safe

/-! ### Programs that may fail -/

/-- A program whose result may be a failure. -/
abbrev Fallible (W ε α : Type) := ExceptT ε (Program W) α

namespace Fallible

/-- A step that cannot fail. -/
def atomic (f : W → α × W) : Fallible W ε α := ExceptT.lift (Program.atomic f)

/-- A step that tells whether to go on. -/
def atomicExcept (f : W → Except ε α × W) : Fallible W ε α := ExceptT.mk (Program.atomic f)

def ofExcept (x : Except ε α) : Fallible W ε α := ExceptT.mk (.done x)

end Fallible

/-- The others keep a condition. -/
def Stable (R : Rely W) (P : W → Prop) : Prop := ∀ w w', P w → R.rel w w' → P w'

/-- What a result says: the condition behind the program, or the one of failures. -/
def EndsIn (E : ε → W → Prop) (Q : α → W → Prop) : Except ε α → W → Prop
  | .ok a, w => Q a w
  | .error e, w => E e w

/-- From a world in `P` every step is in `G`, every result in `Q` and every failure in `E`. -/
def Holds (R : Rely W) (G : W → W → Prop) (E : ε → W → Prop) (P : W → Prop) (m : Fallible W ε α)
    (Q : α → W → Prop) : Prop :=
  ∀ w, P w → Safe R G (EndsIn E Q) m.run w

namespace Holds

variable {R : Rely W} {G : W → W → Prop} {E : ε → W → Prop} {P P' : W → Prop} {Q Q' : α → W → Prop}
  {m m' : Fallible W ε α}

theorem weaken (h : Holds R G E P m Q) (hP : ∀ w, P' w → P w) (hQ : ∀ a w, Q a w → Q' a w) :
    Holds R G E P' m Q' := by
  refine fun w hw => (h w (hP w hw)).mono fun r w hr => ?_
  cases r with
  | ok a => exact hQ a w hr
  | error e => exact hr

theorem mono (h : Holds R G E P m Q) (hQ : ∀ a w, Q a w → Q' a w) : Holds R G E P m Q' :=
  h.weaken (fun _ hw => hw) hQ

theorem before (h : Holds R G E P m Q) (hP : ∀ w, P' w → P w) : Holds R G E P' m Q :=
  h.weaken hP fun _ _ hw => hw

/-- What is known of values and not of the world can be used anywhere. -/
theorem assume {a : Prop} (h : a → Holds R G E P m Q) : Holds R G E (fun w => P w ∧ a) m Q :=
  fun w hw => h hw.2 w hw.1

theorem pure {a : α} (hstable : Stable R P) (h : ∀ w, P w → Q a w) :
    Holds R G E P (Pure.pure a) Q :=
  fun w hw w' hw' => h w' (hstable w w' hw hw')

theorem throw {e : ε} (hstable : Stable R P) (h : ∀ w, P w → E e w) :
    Holds R G E P (throw e : Fallible W ε α) Q :=
  fun w hw w' hw' => h w' (hstable w w' hw hw')

theorem ofExcept {x : Except ε α} (hstable : Stable R P) (h : ∀ w, P w → EndsIn E Q x w) :
    Holds R G E P (Fallible.ofExcept x) Q :=
  fun w hw w' hw' => h w' (hstable w w' hw hw')

theorem atomicExcept {f : W → Except ε α × W} (hP : Stable R P)
    (hends : ∀ r, Stable R (EndsIn E Q r))
    (h : ∀ w, P w → G w (f w).2 ∧ EndsIn E Q (f w).1 (f w).2) :
    Holds R G E P (Fallible.atomicExcept f) Q := by
  intro w hw w' hw'
  obtain ⟨hG, hends'⟩ := h w' (hP w w' hw hw')
  exact ⟨hG, fun w'' hw'' => hends _ _ _ hends' hw''⟩

theorem atomic {f : W → α × W} (hP : Stable R P) (hQ : ∀ a, Stable R (Q a))
    (h : ∀ w, P w → G w (f w).2 ∧ Q (f w).1 (f w).2) : Holds R G E P (Fallible.atomic f) Q := by
  intro w hw w' hw'
  obtain ⟨hG, hends⟩ := h w' (hP w w' hw hw')
  exact ⟨hG, fun w'' hw'' => hQ _ _ _ hends hw''⟩

/-- A sequence stops at the first failure. -/
theorem bind (hE : ∀ e, Stable R (E e)) {S : β → W → Prop} {f : α → Fallible W ε β}
    (hm : Holds R G E P m Q) (hf : ∀ a, Holds R G E (Q a) (f a) S) :
    Holds R G E P (m >>= f) S := by
  refine fun w hw => Safe.bind ((hm w hw).mono fun r w hr => ?_)
  cases r with
  | ok a => exact hf a w hr
  | error e => exact fun w' hw' => hE e w w' hr hw'

theorem ite {c : Prop} [Decidable c] (ht : c → Holds R G E P m Q) (hf : ¬ c → Holds R G E P m' Q) :
    Holds R G E P (if c then m else m') Q := by
  split_ifs with hc
  · exact ht hc
  · exact hf hc

end Holds

/-! ### A program alone -/

/-- Nobody else changes the world. -/
def Rely.nobody : Rely W := ⟨Eq, fun _ => rfl, Eq.trans⟩

/-- The program alone comes to a result in `Q`, and each of its steps to a world in `I`. -/
def Completes (I : W → Prop) (Q : α → W → Prop) (m : Fallible W ε α) (w : W) : Prop :=
  Safe .nobody (fun _ w' => I w') (EndsIn (fun _ _ => False) Q) m.run w

namespace Completes

variable {I : W → Prop} {Q : α → W → Prop} {m : Fallible W ε α} {w w' : W} {a : α}

theorem pure (h : Q a w) : Completes I Q (Pure.pure a : Fallible W ε α) w := by
  rintro _ rfl
  exact h

theorem ofExcept {x : Except ε α} (hx : x = .ok a) (h : Q a w) :
    Completes I Q (Fallible.ofExcept x) w := by
  subst hx
  exact pure h

theorem atomicExcept {f : W → Except ε α × W} (hf : f w = (.ok a, w')) (hI : I w') (h : Q a w') :
    Completes I Q (Fallible.atomicExcept f) w := by
  rintro _ rfl
  show I (f w).2 ∧ ∀ w', (f w).2 = w' → EndsIn _ Q (f w).1 w'
  rw [hf]
  refine ⟨hI, ?_⟩
  rintro _ rfl
  exact h

theorem atomic {f : W → α × W} (hI : I (f w).2) (h : Q (f w).1 (f w).2) :
    Completes I Q (Fallible.atomic f : Fallible W ε α) w := by
  rintro _ rfl
  refine ⟨hI, ?_⟩
  rintro _ rfl
  exact h

/-- A sequence completes when its first part comes to a world from which the second does. -/
theorem bind {Q : β → W → Prop} {f : α → Fallible W ε β}
    (h : Completes I (fun a w => Completes I Q (f a) w) m w) : Completes I Q (m >>= f) w := by
  refine Safe.bind (Safe.mono (fun r w hr => ?_) h)
  cases r with
  | ok a => exact hr
  | error e => exact hr.elim

theorem ite_pos {c : Prop} [Decidable c] {m' : Fallible W ε α} (hc : c) (h : Completes I Q m w) :
    Completes I Q (if c then m else m') w := by
  rwa [if_pos hc]

theorem ite_neg {c : Prop} [Decidable c] {m' : Fallible W ε α} (hc : ¬ c) (h : Completes I Q m w) :
    Completes I Q (if c then m' else m) w := by
  rwa [if_neg hc]

/-- **Every world of a run is in `I`**, if the first one is. -/
theorem run (h : Completes I Q m w) (hw : I w) {p : Program W (Except ε α)}
    (hrun : Interleaving .nobody (w, m.run) (w', p)) : I w' := by
  have hall : ∀ c : W × Program W (Except ε α), Interleaving .nobody (w, m.run) c → I c.1 := by
    intro c hc
    induction hc with
    | refl => exact hw
    | tail hc hnext ih =>
      cases hnext with
      | others hw => exact hw ▸ ih
      | own => exact ((Safe.run h hc) _ rfl).1
  exact hall (w', p) hrun

/-- The program alone has its result. -/
theorem alone (h : Completes I Q m w) : ∃ a, (m.run.alone w).1 = .ok a ∧ Q a (m.run.alone w).2 := by
  have hends := (Safe.run h (interleaving_alone .nobody m.run w)) _ rfl
  cases hresult : (m.run.alone w).1 with
  | ok a => exact ⟨a, rfl, by rwa [hresult] at hends⟩
  | error e =>
    rw [hresult] at hends
    exact hends.elim

end Completes

end Lib
