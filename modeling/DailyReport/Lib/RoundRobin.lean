import Mathlib.Algebra.BigOperators.Group.Finset.Basic
import Mathlib.Data.Finset.Basic

/-!
# Giving a budget away in rounds

Members ask for grants, one after the other in an order that every round chooses anew, and a grant
is made when its cost is within what remains.  A run has a first round for everybody, rounds for
preferred members only until these get nothing more, and then rounds for everybody; it ends with a
round in which nobody gets anything, or with nothing left.

* `rounds_ends` : **the rounds come to an end**, when every grant uses up something of its member;
* `rounds_stuck` : **at the end no member of the common order can be granted anything**;
* `rounds_spent` : what the members have been granted is what the budget has lost;
* `rounds_simulates` : members may be renamed.
-/

namespace Lib

variable {ι κ S : Type*} [DecidableEq ι] [DecidableEq κ]

/-- What the members have, and what remains to be given. -/
structure Pool (ι S : Type*) where
  share : ι → S
  remaining : ℕ

/-- Offer the next grant to a member; the flag says whether it was made. -/
def Pool.offer (ask : ι → S → Option (ℕ × S)) (pool : Pool ι S) (i : ι) : Pool ι S × Bool :=
  match ask i (pool.share i) with
  | some (cost, s) =>
    if cost ≤ pool.remaining then
      (⟨Function.update pool.share i s, pool.remaining - cost⟩, true)
    else (pool, false)
  | none => (pool, false)

/-- Offer a grant to each member of a list in turn. -/
def Pool.pass (ask : ι → S → Option (ℕ × S)) : Pool ι S → List ι → Pool ι S × Bool
  | pool, [] => (pool, false)
  | pool, i :: order =>
    let (pool, granted) := pool.offer ask i
    let (pool, progress) := Pool.pass ask pool order
    (pool, granted || progress)

/-- Rounds of offers in the order `order first preferring shares`, for at most `fuel` rounds. -/
def rounds (ask : ι → S → Option (ℕ × S)) (order : Bool → Bool → (ι → S) → List ι) :
    ℕ → Bool → Bool → Pool ι S → Option (Pool ι S)
  | 0, _, _, _ => none
  | fuel + 1, first, preferring, pool =>
    let (pool, progress) := pool.pass ask (order first preferring pool.share)
    if progress = false ∧ first = false ∧ preferring = true then
      rounds ask order fuel first false pool
    else if progress = false ∨ pool.remaining = 0 then some pool
    else rounds ask order fuel false preferring pool

variable {ask : ι → S → Option (ℕ × S)} {order : Bool → Bool → (ι → S) → List ι}

/-! ### One offer -/

/-- What an offer does: a grant that fits, or nothing. -/
theorem Pool.offer_cases (ask : ι → S → Option (ℕ × S)) (pool : Pool ι S) (i : ι) :
    (∃ cost s, ask i (pool.share i) = some (cost, s) ∧ cost ≤ pool.remaining ∧
      pool.offer ask i = (⟨Function.update pool.share i s, pool.remaining - cost⟩, true)) ∨
    (pool.offer ask i = (pool, false) ∧
      ∀ cost s, ask i (pool.share i) = some (cost, s) → pool.remaining < cost) := by
  unfold Pool.offer
  cases h : ask i (pool.share i) with
  | none => exact Or.inr ⟨rfl, by simp⟩
  | some grant =>
    obtain ⟨cost, s⟩ := grant
    by_cases hfits : cost ≤ pool.remaining
    · exact Or.inl ⟨cost, s, rfl, hfits, by simp [hfits]⟩
    · refine Or.inr ⟨by simp [hfits], ?_⟩
      intro cost' s' heq
      cases heq
      exact Nat.lt_of_not_le hfits

/-- The member cannot be granted anything. -/
def Pool.Stuck (ask : ι → S → Option (ℕ × S)) (pool : Pool ι S) (i : ι) : Prop :=
  ∀ cost s, ask i (pool.share i) = some (cost, s) → pool.remaining < cost

/-- **What the grants preserve, a round preserves.** -/
theorem Pool.pass_induction {P : Pool ι S → Prop} {order : List ι} {pool : Pool ι S}
    (hstep : ∀ pool, P pool → ∀ i ∈ order, ∀ cost s, ask i (pool.share i) = some (cost, s) →
      cost ≤ pool.remaining → P ⟨Function.update pool.share i s, pool.remaining - cost⟩)
    (h : P pool) : P (pool.pass ask order).1 := by
  induction order generalizing pool with
  | nil => exact h
  | cons i order ih =>
    have hrest : ∀ pool, P pool → P (pool.pass ask order).1 := fun pool hpool =>
      ih (fun p hp j hj => hstep p hp j (List.mem_cons_of_mem _ hj)) hpool
    simp only [Pool.pass]
    rcases pool.offer_cases ask i with ⟨cost, s, hask, hfits, hoffer⟩ | ⟨hoffer, -⟩
    · rw [hoffer]
      exact hrest _ (hstep pool h i (by simp) cost s hask hfits)
    · rw [hoffer]
      exact hrest _ h

/-- A round without a grant changes nothing, and nobody in it can be granted anything. -/
theorem Pool.pass_idle {order : List ι} {pool : Pool ι S}
    (h : (pool.pass ask order).2 = false) :
    (pool.pass ask order).1 = pool ∧ ∀ i ∈ order, pool.Stuck ask i := by
  induction order with
  | nil => exact ⟨rfl, by simp⟩
  | cons i order ih =>
    simp only [Pool.pass] at h ⊢
    rcases pool.offer_cases ask i with ⟨cost, s, -, -, hoffer⟩ | ⟨hoffer, hstuck⟩
    · rw [hoffer] at h
      simp at h
    · rw [hoffer] at h ⊢
      obtain ⟨hsame, hall⟩ := ih (by simpa using h)
      refine ⟨hsame, ?_⟩
      intro j hj
      rcases List.mem_cons.1 hj with rfl | hj
      · exact hstuck
      · exact hall j hj

/-! ### The rounds -/

/-- **What the grants preserve, the rounds preserve.** -/
theorem rounds_induction {P : Pool ι S → Prop}
    (hstep : ∀ pool, P pool → ∀ first preferring shares, ∀ i ∈ order first preferring shares,
      ∀ cost s, ask i (pool.share i) = some (cost, s) → cost ≤ pool.remaining →
      P ⟨Function.update pool.share i s, pool.remaining - cost⟩)
    {fuel : ℕ} {first preferring : Bool} {pool pool' : Pool ι S}
    (hrounds : rounds ask order fuel first preferring pool = some pool') (h : P pool) :
    P pool' := by
  induction fuel generalizing first preferring pool with
  | zero => cases hrounds
  | succ fuel ih =>
    have hpass : P (pool.pass ask (order first preferring pool.share)).1 :=
      Pool.pass_induction (fun p hp i hi => hstep p hp first preferring pool.share i hi) h
    simp only [rounds] at hrounds
    split_ifs at hrounds
    · exact ih hrounds hpass
    · cases hrounds
      exact hpass
    · exact ih hrounds hpass

/-- A member's change keeps what holds of every member. -/
theorem update_keeps {Good : ι → S → Prop} {share : ι → S} (h : ∀ i, Good i (share i)) {i : ι}
    {s : S} (hs : Good i s) (j : ι) : Good j (Function.update share i s j) := by
  by_cases hj : j = i
  · subst hj
    rwa [Function.update_self]
  · rw [Function.update_of_ne hj]
    exact h j

/-- What the grants of a member preserve holds of every member at the end. -/
theorem rounds_keeps {Good : ι → S → Prop}
    (hgood : ∀ i s cost s', Good i s → ask i s = some (cost, s') → Good i s')
    {fuel : ℕ} {first preferring : Bool} {pool pool' : Pool ι S}
    (hrounds : rounds ask order fuel first preferring pool = some pool')
    (h : ∀ i, Good i (pool.share i)) : ∀ i, Good i (pool'.share i) :=
  rounds_induction (P := fun pool => ∀ i, Good i (pool.share i))
    (fun _ hp _ _ _ i _ cost s hask _ => update_keeps hp (hgood i _ cost s (hp i) hask)) hrounds h

/-- **At the end no member of the common order can be granted anything**: the last round was for
everybody, or nothing remains and every grant has a cost. -/
theorem rounds_stuck {members : List ι} {Good : ι → S → Prop}
    (hcommon : ∀ first preferring shares, first = true ∨ preferring = false →
      ∀ i ∈ members, i ∈ order first preferring shares)
    (hgood : ∀ i s cost s', Good i s → ask i s = some (cost, s') → Good i s' ∧ 0 < cost)
    {fuel : ℕ} {first preferring : Bool} {pool pool' : Pool ι S}
    (hrounds : rounds ask order fuel first preferring pool = some pool')
    (h : ∀ i, Good i (pool.share i)) : ∀ i ∈ members, pool'.Stuck ask i := by
  induction fuel generalizing first preferring pool with
  | zero => cases hrounds
  | succ fuel ih =>
    have hpass : ∀ i, Good i ((pool.pass ask (order first preferring pool.share)).1.share i) :=
      Pool.pass_induction (P := fun pool => ∀ i, Good i (pool.share i))
        (fun p hp i _ cost s hask _ => update_keeps hp (hgood i _ cost s (hp i) hask).1) h
    simp only [rounds] at hrounds
    split_ifs at hrounds with hnext hend
    · exact ih hrounds hpass
    · cases hrounds
      intro i hi
      rcases hend with hidle | hnone
      · -- the round was for everybody: it was the first, or preferred members are no longer apart
        obtain ⟨hsame, hstuck⟩ := Pool.pass_idle hidle
        rw [hsame]
        refine hstuck i (hcommon _ _ _ ?_ i hi)
        cases first <;> cases preferring <;> simp_all
      · intro cost s hask
        rw [hnone]
        exact (hgood i _ cost s (hpass i) hask).2
    · exact ih hrounds hpass

/-! ### The budget -/

section Budget

/-- A sum over the members after one of them has changed. -/
theorem sum_update {members : Finset ι} {i : ι} (hi : i ∈ members) (share : ι → S)
    (g : ι → S → ℕ) (s : S) :
    ∑ j ∈ members, g j (Function.update share i s j) + g i (share i) =
      ∑ j ∈ members, g j (share j) + g i s := by
  have hrest : ∑ j ∈ members.erase i, g j (Function.update share i s j) =
      ∑ j ∈ members.erase i, g j (share j) :=
    Finset.sum_congr rfl fun j hj => by rw [Function.update_of_ne (Finset.ne_of_mem_erase hj)]
  rw [← Finset.add_sum_erase _ _ hi, ← Finset.add_sum_erase (a := i) _ (fun j => g j (share j)) hi,
    hrest, Function.update_self]
  omega

variable {members : Finset ι} (hmembers : ∀ first preferring shares,
  ∀ i ∈ order first preferring shares, i ∈ members)

include hmembers

/-- **What the members have been granted is what the budget has lost.** -/
theorem rounds_spent {spent : ι → S → ℕ}
    (hspent : ∀ i s cost s', ask i s = some (cost, s') → spent i s' = spent i s + cost)
    {fuel : ℕ} {first preferring : Bool} {pool pool' : Pool ι S}
    (hrounds : rounds ask order fuel first preferring pool = some pool') :
    ∑ i ∈ members, spent i (pool'.share i) + pool'.remaining =
      ∑ i ∈ members, spent i (pool.share i) + pool.remaining := by
  refine rounds_induction (P := fun p => ∑ i ∈ members, spent i (p.share i) + p.remaining =
    ∑ i ∈ members, spent i (pool.share i) + pool.remaining) ?_ hrounds rfl
  intro p hp first preferring shares i hi cost s hask hfits
  have hmem := hmembers first preferring shares i hi
  have hsum := sum_update hmem p.share spent s
  have hone := hspent i _ cost s hask
  simp only
  omega

/-- A round with a grant uses up something of its members, and one without changes nothing. -/
theorem Pool.pass_uses {use : ι → S → ℕ}
    (huse : ∀ i s cost s', ask i s = some (cost, s') → use i s' < use i s)
    (first preferring : Bool) (shares : ι → S) (pool : Pool ι S) :
    ∑ i ∈ members, use i ((pool.pass ask (order first preferring shares)).1.share i) +
      (pool.pass ask (order first preferring shares)).2.toNat ≤
      ∑ i ∈ members, use i (pool.share i) := by
  have hall := hmembers first preferring shares
  generalize order first preferring shares = l at hall ⊢
  induction l generalizing pool with
  | nil => simp [Pool.pass]
  | cons i l ih =>
    have hrest := fun pool => ih pool fun j hj => hall j (List.mem_cons_of_mem _ hj)
    simp only [Pool.pass]
    rcases pool.offer_cases ask i with ⟨cost, s, hask, -, hoffer⟩ | ⟨hoffer, -⟩
    · rw [hoffer]
      simp only [Bool.true_or, Bool.toNat_true]
      have hle := hrest ⟨Function.update pool.share i s, pool.remaining - cost⟩
      have hsum := sum_update (hall i (by simp)) pool.share use s
      have hless := huse i _ cost s hask
      simp only at hle
      omega
    · rw [hoffer]
      simpa using hrest pool

/-- **The rounds come to an end**: every round but two uses up something. -/
theorem rounds_ends {use : ι → S → ℕ}
    (huse : ∀ i s cost s', ask i s = some (cost, s') → use i s' < use i s)
    {fuel : ℕ} {first preferring : Bool} {pool : Pool ι S}
    (hfuel : ∑ i ∈ members, use i (pool.share i) + preferring.toNat < fuel) :
    ∃ pool', rounds ask order fuel first preferring pool = some pool' := by
  induction fuel generalizing first preferring pool with
  | zero => omega
  | succ fuel ih =>
    have huses := Pool.pass_uses hmembers huse first preferring pool.share pool
    simp only [rounds]
    split_ifs with hnext hend
    · obtain ⟨hidle, -, rfl⟩ := hnext
      refine ih ?_
      simp only [hidle, Bool.toNat_true, Bool.toNat_false] at huses hfuel ⊢
      omega
    · exact ⟨_, rfl⟩
    · simp only [not_or, Bool.not_eq_false] at hend
      refine ih ?_
      rw [hend.1] at huses
      simp only [Bool.toNat_true] at huses
      omega

end Budget

/-! ### Renaming the members -/

section Renaming

variable {ask' : κ → S → Option (ℕ × S)} {order' : Bool → Bool → (κ → S) → List κ} {f : ι → κ}
  {members : List ι}

/-- Two pools that agree up to the names of the members. -/
structure Pool.SameAs (f : ι → κ) (members : List ι) (pool : Pool ι S) (pool' : Pool κ S) :
    Prop where
  share : ∀ i ∈ members, pool'.share (f i) = pool.share i
  remaining : pool'.remaining = pool.remaining

variable (hf : ∀ i ∈ members, ∀ j ∈ members, f i = f j → i = j)
  (hask : ∀ i ∈ members, ask' (f i) = ask i)

include hf hask

theorem Pool.pass_sameAs {order : List ι} (hmem : ∀ i ∈ order, i ∈ members) {pool : Pool ι S}
    {pool' : Pool κ S} (h : pool.SameAs f members pool') :
    (pool.pass ask order).1.SameAs f members (pool'.pass ask' (order.map f)).1 ∧
      (pool'.pass ask' (order.map f)).2 = (pool.pass ask order).2 := by
  induction order generalizing pool pool' with
  | nil => exact ⟨h, rfl⟩
  | cons i order ih =>
    have hi := hmem i (by simp)
    have hrest := fun {p : Pool ι S} {p' : Pool κ S} (hp : p.SameAs f members p') =>
      ih (fun j hj => hmem j (List.mem_cons_of_mem _ hj)) hp
    have hsame : ask' (f i) (pool'.share (f i)) = ask i (pool.share i) := by
      rw [hask i hi, h.share i hi]
    simp only [List.map_cons, Pool.pass]
    rcases pool.offer_cases ask i with ⟨cost, s, hasks, hfits, hoffer⟩ | ⟨hoffer, hstuck⟩
    · have hoffer' : pool'.offer ask' (f i) =
          (⟨Function.update pool'.share (f i) s, pool'.remaining - cost⟩, true) := by
        simp only [Pool.offer, hsame, hasks, h.remaining, hfits, if_true]
      rw [hoffer, hoffer']
      have hnew : Pool.SameAs f members ⟨Function.update pool.share i s, pool.remaining - cost⟩
          ⟨Function.update pool'.share (f i) s, pool'.remaining - cost⟩ := by
        refine ⟨fun j hj => ?_, by rw [h.remaining]⟩
        by_cases hij : j = i
        · subst hij
          simp only [Function.update_self]
        · simp only [Function.update_of_ne hij, Function.update_of_ne (mt (hf j hj i hi) hij)]
          exact h.share j hj
      obtain ⟨hpool, hprogress⟩ := hrest hnew
      exact ⟨hpool, by rw [hprogress]⟩
    · have hoffer' : pool'.offer ask' (f i) = (pool', false) := by
        unfold Pool.offer
        rw [hsame, h.remaining]
        cases hasks : ask i (pool.share i) with
        | none => rfl
        | some grant =>
          simp only [if_neg (Nat.not_le.2 (hstuck grant.1 grant.2 hasks))]
      rw [hoffer, hoffer']
      obtain ⟨hpool, hprogress⟩ := hrest h
      exact ⟨hpool, by rw [hprogress]⟩

/-- **Members may be renamed**: a run under other names gives each member the same. -/
theorem rounds_simulates
    (hmembers : ∀ first preferring shares, ∀ i ∈ order first preferring shares, i ∈ members)
    (horder : ∀ first preferring shares shares', (∀ i ∈ members, shares' (f i) = shares i) →
      order' first preferring shares' = (order first preferring shares).map f)
    {fuel : ℕ} {first preferring : Bool} {pool result : Pool ι S} {pool' : Pool κ S}
    (h : pool.SameAs f members pool')
    (hrounds : rounds ask order fuel first preferring pool = some result) :
    ∃ result', rounds ask' order' fuel first preferring pool' = some result' ∧
      result.SameAs f members result' := by
  induction fuel generalizing first preferring pool pool' with
  | zero => cases hrounds
  | succ fuel ih =>
    obtain ⟨hpool, hprogress⟩ := Pool.pass_sameAs hf hask
      (hmembers first preferring pool.share) h
    have hsame := horder first preferring pool.share pool'.share h.share
    simp only [rounds] at hrounds ⊢
    rw [hsame, hprogress, hpool.remaining]
    split_ifs at hrounds ⊢
    · exact ih hpool hrounds
    · cases hrounds
      exact ⟨_, rfl, hpool⟩
    · exact ih hpool hrounds

end Renaming

end Lib
