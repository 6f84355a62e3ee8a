import Mathlib.Data.List.Sort

/-!
# Stable sorting by a key

`sortByKey key l` sorts `l` by a key in a linear order; equal keys keep their order.  The main
results compare sorts of one list.

* `sortByKey_map` : sorting commutes with a map that keeps the keys;
* `sortByKey_eq_iff` : **two keys sort a list the same way exactly when they compare its members
  the same way**, when both keys tell the members apart;
* `sortByKey_map_eq_iff` : the same for what the sorted lists show of their members.
-/

namespace Lib

variable {α β κ κ' : Type*} [LinearOrder κ] [LinearOrder κ']

/-- Stable sort by a key. -/
def sortByKey (key : α → κ) (l : List α) : List α :=
  l.insertionSort fun a b => key a ≤ key b

theorem sortByKey_perm (key : α → κ) (l : List α) : (sortByKey key l).Perm l :=
  List.perm_insertionSort _ l

@[simp] theorem mem_sortByKey {key : α → κ} {l : List α} {a : α} :
    a ∈ sortByKey key l ↔ a ∈ l := (sortByKey_perm key l).mem_iff

@[simp] theorem length_sortByKey (key : α → κ) (l : List α) :
    (sortByKey key l).length = l.length := (sortByKey_perm key l).length_eq

theorem sortByKey_sorted (key : α → κ) (l : List α) :
    (sortByKey key l).Pairwise fun a b => key a ≤ key b := by
  have : Std.Total fun a b : α => key a ≤ key b := ⟨fun a b => le_total (key a) (key b)⟩
  have : IsTrans α fun a b : α => key a ≤ key b := ⟨fun _ _ _ h h' => le_trans h h'⟩
  exact List.pairwise_insertionSort _ l

/-- A sorted list is its own sort. -/
theorem sortByKey_of_sorted {key : α → κ} {l : List α}
    (h : l.Pairwise fun a b => key a ≤ key b) : sortByKey key l = l := by
  induction l with
  | nil => rfl
  | cons a l ih =>
    obtain ⟨ha, hl⟩ := List.pairwise_cons.1 h
    have hrec : (a :: l).insertionSort (fun a b => key a ≤ key b) =
        List.orderedInsert (fun a b => key a ≤ key b) a (sortByKey key l) := rfl
    rw [sortByKey, hrec, ih hl]
    cases l with
    | nil => rfl
    | cons b l =>
      rw [List.orderedInsert_cons, if_pos (ha b (by simp))]

/-- Sorting commutes with a map that keeps the keys. -/
theorem sortByKey_map (f : α → β) (key : β → κ) (l : List α) :
    sortByKey key (l.map f) = (sortByKey (fun a => key (f a)) l).map f := by
  induction l with
  | nil => rfl
  | cons a l ih =>
    have hins : ∀ (m : List α),
        List.orderedInsert (fun b b' => key b ≤ key b') (f a) (m.map f) =
          (List.orderedInsert (fun a a' => key (f a) ≤ key (f a')) a m).map f := by
      intro m
      induction m with
      | nil => rfl
      | cons b m ihm =>
        simp only [List.map_cons, List.orderedInsert_cons]
        split_ifs
        · rfl
        · rw [ihm]; rfl
    have hrec : sortByKey key ((a :: l).map f) =
        List.orderedInsert (fun b b' => key b ≤ key b') (f a) (sortByKey key (l.map f)) := rfl
    rw [hrec, ih, hins]
    rfl

theorem sortByKey_congr {key key' : α → κ} {l : List α} (h : ∀ a ∈ l, key a = key' a) :
    sortByKey key l = sortByKey key' l := by
  induction l with
  | nil => rfl
  | cons a l ih =>
    have hins : ∀ (m : List α), (∀ b ∈ m, key b = key' b) →
        List.orderedInsert (fun a b => key a ≤ key b) a m =
          List.orderedInsert (fun a b => key' a ≤ key' b) a m := by
      intro m hm
      induction m with
      | nil => rfl
      | cons b m ihm =>
        simp only [List.orderedInsert_cons, h a (by simp), hm b (by simp)]
        rw [ihm fun b hb => hm b (by simp [hb])]
    have hrec : sortByKey key (a :: l) =
        List.orderedInsert (fun a b => key a ≤ key b) a (sortByKey key l) := rfl
    rw [hrec, ih fun b hb => h b (by simp [hb])]
    exact hins _ fun b hb => h b (by simp [mem_sortByKey.1 hb])

/-- A permutation sorts to the same list when the key tells the members apart. -/
theorem sortByKey_eq_of_perm {key : α → κ} {l l' : List α} (hp : l.Perm l')
    (hkey : ∀ a ∈ l, ∀ b ∈ l, key a = key b → a = b) : sortByKey key l = sortByKey key l' := by
  refine @List.Perm.eq_of_pairwise _ (fun a b => key a ≤ key b) _ _ ?_ (sortByKey_sorted key l)
    (sortByKey_sorted key l') ((sortByKey_perm key l).trans (hp.trans (sortByKey_perm key l').symm))
  intro a b ha hb hab hba
  exact hkey a (mem_sortByKey.1 ha) b (hp.mem_iff.2 (mem_sortByKey.1 hb)) (le_antisymm hab hba)

/-- **Two keys sort a list the same way exactly when they compare its members the same way.** -/
theorem sortByKey_eq_iff {key : α → κ} {key' : α → κ'} {l : List α}
    (hkey : ∀ a ∈ l, ∀ b ∈ l, key a = key b → a = b)
    (hkey' : ∀ a ∈ l, ∀ b ∈ l, key' a = key' b → a = b) :
    sortByKey key l = sortByKey key' l ↔
      ∀ a ∈ l, ∀ b ∈ l, (key a ≤ key b ↔ key' a ≤ key' b) := by
  constructor
  · intro heq
    have hs := sortByKey_sorted key l
    have hs' := sortByKey_sorted key' l
    rw [← heq] at hs'
    have hboth : (sortByKey key l).Pairwise fun a b => key a ≤ key b ∧ key' a ≤ key' b :=
      hs.and hs'
    -- of any two members one comes first in the common order, and both keys agree on it
    have hor : ∀ a ∈ sortByKey key l, ∀ b ∈ sortByKey key l,
        (key a ≤ key b ∧ key' a ≤ key' b) ∨ (key b ≤ key a ∧ key' b ≤ key' a) := by
      intro a ha b hb
      refine List.Pairwise.forall_of_forall_of_flip
        (R := fun a b => (key a ≤ key b ∧ key' a ≤ key' b) ∨ (key b ≤ key a ∧ key' b ≤ key' a))
        (fun x _ => Or.inl ⟨le_rfl, le_rfl⟩) ?_ ?_ ha hb
      · exact hboth.imp fun h => Or.inl h
      · exact hboth.imp fun h => Or.inr h
    intro a ha b hb
    rcases hor a (mem_sortByKey.2 ha) b (mem_sortByKey.2 hb) with ⟨h, h'⟩ | ⟨h, h'⟩
    · exact ⟨fun _ => h', fun _ => h⟩
    · constructor
      · intro hab
        rw [hkey a ha b hb (le_antisymm hab h)]
      · intro hab
        rw [hkey' a ha b hb (le_antisymm hab h')]
  · intro h
    refine @List.Perm.eq_of_pairwise _ (fun a b => key a ≤ key b) _ _ ?_ (sortByKey_sorted key l)
      ?_ ((sortByKey_perm key l).trans (sortByKey_perm key' l).symm)
    · intro a b ha hb hab hba
      exact hkey a (mem_sortByKey.1 ha) b (mem_sortByKey.1 hb) (le_antisymm hab hba)
    · refine (sortByKey_sorted key' l).imp_of_mem ?_
      intro a b ha hb hab
      exact (h a (mem_sortByKey.1 ha) b (mem_sortByKey.1 hb)).2 hab

/-- In a list sorted strictly by a key, the members below a member are those before it. -/
theorem filter_lt_of_sorted {key : α → κ} {before after : List α} {a : α}
    (h : (before ++ a :: after).Pairwise fun a b => key a < key b) :
    (before ++ a :: after).filter (fun b => key b < key a) = before := by
  obtain ⟨-, hafter, hbefore⟩ := List.pairwise_append.1 h
  rw [List.filter_append, List.filter_eq_self.2, List.filter_eq_nil_iff.2, List.append_nil]
  · intro b hb
    rcases List.mem_cons.1 hb with rfl | hb
    · simp
    · simpa using ((List.pairwise_cons.1 hafter).1 b hb).le
  · intro b hb
    simpa using hbefore b hb a (by simp)

theorem map_inj_on {f : α → β} {l l' : List α}
    (hf : ∀ a ∈ l, ∀ b ∈ l', f a = f b → a = b) (h : l.map f = l'.map f) : l = l' := by
  induction l generalizing l' with
  | nil => exact (List.map_eq_nil_iff.1 h.symm).symm
  | cons a l ih =>
    cases l' with
    | nil => cases h
    | cons b l' =>
      simp only [List.map_cons, List.cons.injEq] at h
      have hab := hf a (by simp) b (by simp) h.1
      have hrest := ih (fun a ha b hb => hf a (by simp [ha]) b (by simp [hb])) h.2
      rw [hab, hrest]

/-- Two sorts of one list show the same sequence exactly when they are the same and show the same of
each member, if what is shown tells the members apart. -/
theorem sortByKey_map_eq_iff {γ δ : Type*} {key : α → κ} {key' : α → κ'} {l : List α} {f : α → γ}
    {g g' : α → δ} (hf : ∀ a ∈ l, ∀ b ∈ l, f a = f b → a = b) :
    (sortByKey key l).map (fun a => (f a, g a)) = (sortByKey key' l).map (fun a => (f a, g' a)) ↔
      sortByKey key l = sortByKey key' l ∧ ∀ a ∈ l, g a = g' a := by
  constructor
  · intro h
    have hfst := congrArg (List.map Prod.fst) h
    have hsnd := congrArg (List.map Prod.snd) h
    simp only [List.map_map, Function.comp_def] at hfst hsnd
    have heq : sortByKey key l = sortByKey key' l :=
      map_inj_on (fun a ha b hb => hf a (mem_sortByKey.1 ha) b (mem_sortByKey.1 hb)) hfst
    refine ⟨heq, fun a ha => ?_⟩
    rw [← heq] at hsnd
    exact List.map_inj_left.1 hsnd a (mem_sortByKey.2 ha)
  · rintro ⟨heq, hg⟩
    rw [heq]
    refine List.map_congr_left fun a ha => ?_
    rw [hg a (mem_sortByKey.1 ha)]

end Lib
