import Mathlib.Algebra.BigOperators.Group.List.Basic
import Mathlib.Algebra.Order.Ring.Nat
import Mathlib.Data.List.Infix
import Mathlib.Tactic.Common

/-!
# Bytes below some roots of a file tree

A file tree is a list of nodes, each with its path and size.  `bytesUnder roots nodes` are the bytes
of the nodes at or below one of the roots.  Two paths are apart when neither is at or below the
other one.

* `bytesUnder_append` : **roots that are apart add up**;
* `bytesUnder_prune` : pruning a root leaves the bytes below roots that are apart from it.
-/

namespace Lib

variable {κ : Type}

/-- A file or a directory. -/
structure Node (κ : Type) where
  path : List κ
  isDir : Bool
  size : ℕ
  deriving DecidableEq

/-- A directory has no bytes of its own. -/
def Node.bytes (node : Node κ) : ℕ := if node.isDir then 0 else node.size

/-- Neither path is at or below the other one. -/
def Apart (p q : List κ) : Prop := ¬ p <+: q ∧ ¬ q <+: p

instance [DecidableEq κ] (p q : List κ) : Decidable (Apart p q) := inferInstanceAs (Decidable (_ ∧ _))

theorem Apart.symm {p q : List κ} (h : Apart p q) : Apart q p := ⟨h.2, h.1⟩

instance apart_symm : Std.Symm (@Apart κ) := ⟨fun _ _ h => h.symm⟩

theorem Apart.ne {p q : List κ} (h : Apart p q) : p ≠ q := by
  rintro rfl
  exact h.1 (List.prefix_refl p)

/-- Nothing is below two roots that are apart. -/
theorem Apart.not_under {p q : List κ} (h : Apart p q) {node : Node κ} (hp : p <+: node.path) :
    ¬ q <+: node.path := by
  intro hq
  rcases Nat.le_total p.length q.length with hle | hle
  · exact h.1 (List.prefix_of_prefix_length_le hp hq hle)
  · exact h.2 (List.prefix_of_prefix_length_le hq hp hle)

variable [DecidableEq κ]

/-- The node is at or below one of the roots. -/
def under (roots : List (List κ)) (node : Node κ) : Bool :=
  roots.any fun root => root.isPrefixOf node.path

/-- Bytes at or below the roots. -/
def bytesUnder (roots : List (List κ)) (nodes : List (Node κ)) : ℕ :=
  ((nodes.filter (under roots)).map Node.bytes).sum

/-- The tree without what is at or below a root. -/
def prune (root : List κ) (nodes : List (Node κ)) : List (Node κ) :=
  nodes.filter fun node => !under [root] node

theorem under_iff {roots : List (List κ)} {node : Node κ} :
    under roots node = true ↔ ∃ root ∈ roots, root <+: node.path := by
  simp [under]

/-- The bytes below some roots depend on what is below them only. -/
theorem bytesUnder_congr {roots roots' : List (List κ)} {nodes : List (Node κ)}
    (h : ∀ node ∈ nodes, under roots node = under roots' node) :
    bytesUnder roots nodes = bytesUnder roots' nodes := by
  rw [bytesUnder, bytesUnder, List.filter_congr h]

theorem bytesUnder_mem {roots roots' : List (List κ)} (h : ∀ root, root ∈ roots ↔ root ∈ roots')
    (nodes : List (Node κ)) : bytesUnder roots nodes = bytesUnder roots' nodes := by
  refine bytesUnder_congr fun node _ => ?_
  rw [Bool.eq_iff_iff, under_iff, under_iff]
  exact exists_congr fun root => and_congr_left fun _ => h root

@[simp] theorem bytesUnder_nil (nodes : List (Node κ)) : bytesUnder [] nodes = 0 := by
  have hnone : nodes.filter (under []) = [] := List.filter_eq_nil_iff.2 fun _ _ => by simp [under]
  rw [bytesUnder, hnone]
  rfl

@[simp] theorem bytesUnder_no_nodes (roots : List (List κ)) : bytesUnder roots [] = 0 := rfl

theorem bytesUnder_cons_node (roots : List (List κ)) (node : Node κ) (nodes : List (Node κ)) :
    bytesUnder roots (node :: nodes) =
      (if under roots node then node.bytes else 0) + bytesUnder roots nodes := by
  unfold bytesUnder
  rw [List.filter_cons]
  split_ifs <;> simp

/-- **Roots that are apart add up.** -/
theorem bytesUnder_append {roots roots' : List (List κ)}
    (h : ∀ p ∈ roots, ∀ q ∈ roots', Apart p q) (nodes : List (Node κ)) :
    bytesUnder (roots ++ roots') nodes = bytesUnder roots nodes + bytesUnder roots' nodes := by
  induction nodes with
  | nil => rfl
  | cons node nodes ih =>
    have happend : under (roots ++ roots') node = (under roots node || under roots' node) := by
      simp [under]
    have hdisjoint : under roots node = true → under roots' node = false := by
      intro hunder
      obtain ⟨p, hp, hpre⟩ := under_iff.1 hunder
      refine Bool.eq_false_iff.2 fun hunder' => ?_
      obtain ⟨q, hq, hpre'⟩ := under_iff.1 hunder'
      exact (h p hp q hq).not_under hpre hpre'
    rw [bytesUnder_cons_node, bytesUnder_cons_node, bytesUnder_cons_node, ih, happend]
    cases hunder : under roots node with
    | true =>
      rw [hdisjoint hunder]
      simp only [Bool.or_false, if_true, Bool.false_eq_true, if_false]
      omega
    | false =>
      simp only [Bool.false_or, Bool.false_eq_true, if_false]
      omega

/-- The bytes below roots that are apart are the bytes below each of them. -/
theorem bytesUnder_eq_sum {roots : List (List κ)} (h : roots.Pairwise Apart)
    (nodes : List (Node κ)) :
    bytesUnder roots nodes = (roots.map fun root => bytesUnder [root] nodes).sum := by
  induction roots with
  | nil => simp
  | cons root roots ih =>
    obtain ⟨hroot, hroots⟩ := List.pairwise_cons.1 h
    have happart : ∀ p ∈ [root], ∀ q ∈ roots, Apart p q := by
      intro p hp q hq
      rw [List.mem_singleton.1 hp]
      exact hroot q hq
    rw [List.map_cons, List.sum_cons, ← ih hroots, ← bytesUnder_append happart]
    rfl

/-- More roots have no fewer bytes. -/
theorem bytesUnder_mono {roots roots' : List (List κ)} (h : roots ⊆ roots')
    (nodes : List (Node κ)) : bytesUnder roots nodes ≤ bytesUnder roots' nodes := by
  induction nodes with
  | nil => exact le_rfl
  | cons node nodes ih =>
    have hunder : under roots node = true → under roots' node = true := by
      rw [under_iff, under_iff]
      rintro ⟨root, hroot, hpre⟩
      exact ⟨root, h hroot, hpre⟩
    rw [bytesUnder_cons_node, bytesUnder_cons_node]
    cases hroots : under roots node with
    | true =>
      rw [hunder hroots]
      omega
    | false =>
      simp only [Bool.false_eq_true, if_false]
      omega

/-- Where every node has no bytes there are none. -/
theorem bytesUnder_eq_zero {roots : List (List κ)} {nodes : List (Node κ)}
    (h : ∀ node ∈ nodes, under roots node = true → node.bytes = 0) : bytesUnder roots nodes = 0 := by
  induction nodes with
  | nil => rfl
  | cons node nodes ih =>
    rw [bytesUnder_cons_node, ih fun n hn => h n (List.mem_cons_of_mem _ hn)]
    split_ifs with hunder
    · rw [h node (by simp) hunder]
    · rfl

/-- Removing nodes that are below no root leaves the bytes below the roots. -/
theorem bytesUnder_filter {roots : List (List κ)} {keep : Node κ → Bool} {nodes : List (Node κ)}
    (h : ∀ node ∈ nodes, under roots node = true → keep node = true) :
    bytesUnder roots (nodes.filter keep) = bytesUnder roots nodes := by
  have hfilter : (nodes.filter keep).filter (under roots) = nodes.filter (under roots) := by
    rw [List.filter_filter]
    refine List.filter_congr fun node hnode => ?_
    cases hunder : under roots node with
    | true => simp [h node hnode hunder]
    | false => simp
  rw [bytesUnder, hfilter, bytesUnder]

/-- **Pruning a root leaves the bytes below roots that are apart from it.** -/
theorem bytesUnder_prune {roots : List (List κ)} {root : List κ}
    (h : ∀ p ∈ roots, Apart root p) (nodes : List (Node κ)) :
    bytesUnder roots (prune root nodes) = bytesUnder roots nodes := by
  refine bytesUnder_filter fun node _ hunder => ?_
  obtain ⟨p, hp, hpre⟩ := under_iff.1 hunder
  have hroot : under [root] node = false := by
    rw [Bool.eq_false_iff, Ne, under_iff]
    simpa using (h p hp).symm.not_under hpre
  rw [hroot]
  rfl

/-- New nodes below no root add no bytes to the roots. -/
theorem bytesUnder_cons_of_not {roots : List (List κ)} {node : Node κ}
    (h : under roots node = false) (nodes : List (Node κ)) :
    bytesUnder roots (node :: nodes) = bytesUnder roots nodes := by
  rw [bytesUnder_cons_node, h]
  simp

end Lib
