import Mathlib.Data.List.Forall2
import Mathlib.Data.List.Nodup
import Mathlib.Tactic.Common

/-!
# Successful runs of fallible code

Inversion rules for `Except`: a sequence succeeds when its parts do (`bind_eq_ok`), a traversal when
each of its items does (`mapM_eq_ok`), and one that checks every item and then maps it when every
check does (`mapM_check_eq_ok`).
-/

namespace Lib

variable {ε α β γ : Type}

/-- A sequence succeeds exactly when both parts do. -/
theorem bind_eq_ok {x : Except ε α} {f : α → Except ε β} {b : β} :
    (x >>= f) = .ok b ↔ ∃ a, x = .ok a ∧ f a = .ok b := by
  cases x with
  | error e => simp [bind, Except.bind]
  | ok a => simp [bind, Except.bind]

/-- A traversal succeeds exactly when each of its items does. -/
theorem map_eq_ok {x : Except ε α} {f : α → β} {b : β} :
    x.map f = .ok b ↔ ∃ a, x = .ok a ∧ f a = b := by
  cases x <;> simp [Except.map]

theorem mapM_eq_ok {f : α → Except ε β} {l : List α} {r : List β} :
    l.mapM f = .ok r ↔ List.Forall₂ (fun a b => f a = .ok b) l r := by
  induction l generalizing r with
  | nil =>
    rw [List.mapM_nil, List.forall₂_nil_left_iff]
    exact ⟨fun h => by cases h; rfl, fun h => by rw [h]; rfl⟩
  | cons a l ih =>
    rw [List.mapM_cons, bind_eq_ok]
    constructor
    · rintro ⟨b, hb, hrest⟩
      obtain ⟨bs, hbs, hr⟩ := bind_eq_ok.1 hrest
      cases hr
      exact .cons hb (ih.1 hbs)
    · rintro (_ | ⟨hb, hbs⟩)
      exact ⟨_, hb, bind_eq_ok.2 ⟨_, ih.2 hbs, rfl⟩⟩

/-- Every item of a traversal has its result, and every result its item. -/
theorem mem_of_mapM {f : α → Except ε β} {l : List α} {r : List β} (h : l.mapM f = .ok r) :
    (∀ a ∈ l, ∃ b ∈ r, f a = .ok b) ∧ ∀ b ∈ r, ∃ a ∈ l, f a = .ok b := by
  have hall := mapM_eq_ok.1 h
  clear h
  induction hall with
  | nil => simp
  | @cons a b l r hab _ ih =>
    constructor
    · intro a' ha'
      rcases List.mem_cons.1 ha' with rfl | ha'
      · exact ⟨b, List.mem_cons_self, hab⟩
      · obtain ⟨b', hb', hok⟩ := ih.1 a' ha'
        exact ⟨b', List.mem_cons_of_mem _ hb', hok⟩
    · intro b' hb'
      rcases List.mem_cons.1 hb' with rfl | hb'
      · exact ⟨a, List.mem_cons_self, hab⟩
      · obtain ⟨a', ha', hok⟩ := ih.2 b' hb'
        exact ⟨a', List.mem_cons_of_mem _ ha', hok⟩

/-- One result of a traversal has the key of an item. -/
theorem exists_key_mapM {κ : Type} {f : α → Except ε β} {l : List α} {r : List β} (key : α → κ)
    (key' : β → κ) (h : l.mapM f = .ok r) (hkey : ∀ a b, f a = .ok b → key' b = key a)
    (hnodup : (l.map key).Nodup) {a : α} (ha : a ∈ l) :
    ∃ b, f a = .ok b ∧ ∀ P : β → Prop, (∃ b' ∈ r, key' b' = key a ∧ P b') ↔ P b := by
  obtain ⟨hforth, hback⟩ := mem_of_mapM h
  obtain ⟨b, hb, hok⟩ := hforth a ha
  refine ⟨b, hok, fun P => ⟨?_, fun hP => ⟨b, hb, hkey a b hok, hP⟩⟩⟩
  rintro ⟨b', hb', hsame, hP⟩
  obtain ⟨a', ha', hok'⟩ := hback b' hb'
  obtain rfl : a' = a :=
    List.inj_on_of_nodup_map hnodup ha' ha ((hkey a' b' hok').symm.trans hsame)
  rw [hok] at hok'
  cases hok'
  exact hP

/-- A traversal succeeds if each of its items does. -/
theorem exists_mapM {f : α → Except ε β} {l : List α} (h : ∀ a ∈ l, ∃ b, f a = .ok b) :
    ∃ r, l.mapM f = .ok r := by
  induction l with
  | nil => exact ⟨[], rfl⟩
  | cons a l ih =>
    obtain ⟨b, hb⟩ := h a List.mem_cons_self
    obtain ⟨r, hr⟩ := ih fun a' ha' => h a' (List.mem_cons_of_mem _ ha')
    exact ⟨b :: r, mapM_eq_ok.2 (.cons hb (mapM_eq_ok.1 hr))⟩

/-- Mapping the results of a traversal is a traversal with mapped results. -/
theorem map_mapM {f : α → Except ε β} {p : β → γ} {l : List α} :
    (l.mapM f).map (List.map p) = l.mapM fun a => (f a).map p := by
  induction l with
  | nil => rfl
  | cons a l ih =>
    rw [List.mapM_cons, List.mapM_cons, ← ih]
    cases f a with
    | error e => rfl
    | ok b => cases l.mapM f <;> rfl

/-- Traversals that agree on the items agree. -/
theorem mapM_congr {f g : α → Except ε β} {l : List α} (h : ∀ a ∈ l, f a = g a) :
    l.mapM f = l.mapM g := by
  induction l with
  | nil => rfl
  | cons a l ih =>
    rw [List.mapM_cons, List.mapM_cons, h a (by simp), ih fun b hb => h b (by simp [hb])]

/-- A traversal that checks every item and then maps it. -/
theorem mapM_check_eq_ok {check : α → Except ε Unit} {f : α → β} {l : List α} {r : List β} :
    (l.mapM fun a => (check a >>= fun _ => pure (f a) : Except ε β)) = .ok r ↔
      r = l.map f ∧ ∀ a ∈ l, check a = .ok () := by
  induction l generalizing r with
  | nil =>
    simp only [List.mapM_nil, pure, Except.pure, Except.ok.injEq, List.map_nil, List.not_mem_nil,
      false_implies, implies_true, and_true]
    exact eq_comm
  | cons a l ih =>
    rw [List.mapM_cons, bind_eq_ok]
    constructor
    · rintro ⟨b, hb, hrest⟩
      obtain ⟨_, hcheck, hfa⟩ := bind_eq_ok.1 hb
      obtain ⟨bs, hbs, hr⟩ := bind_eq_ok.1 hrest
      obtain ⟨rfl, hall⟩ := ih.1 hbs
      simp only [pure, Except.pure, Except.ok.injEq] at hfa hr
      subst hfa hr
      exact ⟨rfl, List.forall_mem_cons.2 ⟨hcheck, hall⟩⟩
    · rintro ⟨rfl, hall⟩
      obtain ⟨hcheck, hall⟩ := List.forall_mem_cons.1 hall
      refine ⟨f a, bind_eq_ok.2 ⟨(), hcheck, rfl⟩, ?_⟩
      exact bind_eq_ok.2 ⟨l.map f, ih.2 ⟨rfl, hall⟩, rfl⟩

/-- A fold succeeds when its first step and the rest do. -/
theorem foldlM_cons_eq_ok {f : β → α → Except ε β} {a : α} {l : List α} {b b' : β} :
    (a :: l).foldlM f b = .ok b' ↔ ∃ c, f b a = .ok c ∧ l.foldlM f c = .ok b' := by
  rw [List.foldlM_cons, bind_eq_ok]

/-- What every step of a fold keeps, the fold keeps. -/
theorem foldlM_invariant {f : β → α → Except ε β} {I : β → Prop} {l : List α} {b b' : β}
    (hstep : ∀ a ∈ l, ∀ b b', I b → f b a = .ok b' → I b') (hb : I b)
    (h : l.foldlM f b = .ok b') : I b' := by
  induction l generalizing b with
  | nil =>
    cases h
    exact hb
  | cons a l ih =>
    obtain ⟨c, hc, h⟩ := foldlM_cons_eq_ok.1 h
    exact ih (fun x hx => hstep x (by simp [hx])) (hstep a (by simp) b c hb hc) h

theorem toOption_eq_some {ε α : Type*} {x : Except ε α} {a : α} :
    x.toOption = some a ↔ x = .ok a := by
  cases x <;> simp [Except.toOption]

end Lib
