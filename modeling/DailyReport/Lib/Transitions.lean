import Mathlib.Data.List.Basic
import Mathlib.Tactic.Common

/-!
# Guarded transitions

A `step` takes an event in a state, or refuses it.  A refused event changes nothing (`applyEvent`),
so a run is a fold over its events (`applyAll`).

* `applyAll_map` : a state with ghost parts runs as the state without them;
* `applyAll_invariant` : what every accepted event keeps, every run keeps;
* `applyAll_invariant_history` : the same for an invariant that knows the events so far;
* `AllSteps` : a condition on every event of a run, in the state before it.
-/

namespace Lib

variable {S E ε : Type*} (step : S → E → Except ε S)

/-- The state after an event. -/
def applyEvent (s : S) (e : E) : S :=
  match step s e with
  | .ok s' => s'
  | .error _ => s

/-- The state after a run. -/
def applyAll (s : S) (es : List E) : S := es.foldl (applyEvent step) s

/-- A condition on every event of a run and the state before it. -/
def AllSteps (C : S → E → Prop) : S → List E → Prop
  | _, [] => True
  | s, e :: es => C s e ∧ AllSteps C (applyEvent step s e) es

instance AllSteps.decidable (C : S → E → Prop) [∀ s e, Decidable (C s e)] :
    ∀ (s : S) (es : List E), Decidable (AllSteps step C s es)
  | _, [] => isTrue trivial
  | s, e :: es =>
    have := AllSteps.decidable C (applyEvent step s e) es
    inferInstanceAs (Decidable (C s e ∧ AllSteps step C (applyEvent step s e) es))

variable {step}

/-- A condition on the events alone. -/
theorem allSteps_of_forall {C : S → E → Prop} {es : List E} (h : ∀ e ∈ es, ∀ s, C s e) :
    ∀ s, AllSteps step C s es := by
  induction es with
  | nil => exact fun _ => trivial
  | cons e es ih =>
    intro s
    exact ⟨h e (by simp) s, ih (fun e' he' => h e' (List.mem_cons_of_mem _ he')) _⟩

theorem applyEvent_of_ok {s s' : S} {e : E} (h : step s e = .ok s') : applyEvent step s e = s' := by
  simp [applyEvent, h]

theorem applyEvent_of_error {s : S} {e : E} {x : ε} (h : step s e = .error x) :
    applyEvent step s e = s := by
  simp [applyEvent, h]

@[simp] theorem applyAll_nil (s : S) : applyAll step s [] = s := rfl

@[simp] theorem applyAll_cons (s : S) (e : E) (es : List E) :
    applyAll step s (e :: es) = applyAll step (applyEvent step s e) es := rfl

theorem applyAll_append (s : S) (es es' : List E) :
    applyAll step s (es ++ es') = applyAll step (applyAll step s es) es' := List.foldl_append

/-- An event keeps what its acceptance keeps. -/
theorem applyEvent_keeps {I : S → Prop} {s : S} {e : E} (h : I s)
    (hstep : ∀ s', step s e = .ok s' → I s') : I (applyEvent step s e) := by
  cases hs : step s e with
  | ok s' => rw [applyEvent_of_ok hs]; exact hstep s' hs
  | error x => rw [applyEvent_of_error hs]; exact h

/-- **Ghost state**: a part of the state that the rest does not depend on can be left out. -/
theorem applyAll_map {G : Type*} {ghost : G → E → Except ε G} (part : G → S)
    (hpart : ∀ g e, (ghost g e).map part = step (part g) e) (g : G) (es : List E) :
    part (applyAll ghost g es) = applyAll step (part g) es := by
  induction es generalizing g with
  | nil => rfl
  | cons e es ih =>
    have hone : part (applyEvent ghost g e) = applyEvent step (part g) e := by
      unfold applyEvent
      rw [← hpart g e]
      cases ghost g e <;> rfl
    rw [applyAll_cons, applyAll_cons, ih, hone]

/-- **The invariant rule under a condition** on the events of the run. -/
theorem applyAll_invariant_of {C : S → E → Prop} {I : S → Prop}
    (hstep : ∀ s e s', I s → C s e → step s e = .ok s' → I s') :
    ∀ (es : List E) (s : S), I s → AllSteps step C s es → I (applyAll step s es)
  | [], _, h, _ => h
  | e :: es, s, h, hC =>
    applyAll_invariant_of hstep es _
      (applyEvent_keeps h fun s' hs => hstep s e s' h hC.1 hs) hC.2

/-- **The invariant rule**: what every accepted event keeps, every run keeps. -/
theorem applyAll_invariant {I : S → Prop} (hstep : ∀ s e s', I s → step s e = .ok s' → I s')
    (es : List E) {s : S} (h : I s) : I (applyAll step s es) := by
  induction es generalizing s with
  | nil => exact h
  | cons e es ih => exact ih (applyEvent_keeps h fun s' hs => hstep s e s' h hs)

/-- **The invariant rule with history**: the invariant knows the events so far. -/
theorem applyAll_invariant_history {I : List E → S → Prop} {es : List E} {s : S} (h : I [] s)
    (hstep : ∀ done e s, done ++ [e] <+: es → I done s → I (done ++ [e]) (applyEvent step s e)) :
    I es (applyAll step s es) := by
  suffices hall : ∀ rest done s, done ++ rest = es → I done s → I es (applyAll step s rest) from
    hall es [] s rfl h
  intro rest
  induction rest with
  | nil =>
    intro done s hes hI
    rw [List.append_nil] at hes
    exact hes ▸ hI
  | cons e rest ih =>
    intro done s hes hI
    have hes' : done ++ [e] ++ rest = es := by rw [← hes, List.append_assoc]; rfl
    exact ih (done ++ [e]) _ hes' (hstep done e s ⟨rest, hes'⟩ hI)

end Lib
