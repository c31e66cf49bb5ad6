import Mathlib.Algebra.Group.Nat.Defs
import Mathlib.Data.List.Basic
import Mathlib.Logic.Function.Iterate

set_option autoImplicit false

/-!
# Merkle trees

A level of a merkle tree combines neighbours of the level below; an odd last element is combined
with itself. If the elements that are combined can be told from the result, two trees with the same
root have the same elements on levels of the same distance to the root.

## Main definitions

* `MerkleTree.pairs` — the neighbours of a level.
* `MerkleTree.level` — the next level of a tree.
* `MerkleTree.Root` — the root of a tree, and its height.

## Main results

* `MerkleTree.Root.mem_iff` — trees with the same root have the same elements.
* `MerkleTree.iterate_level_take` — the tree over the first leaves of a tree.
-/

namespace MerkleTree

variable {α : Type}

/-- The neighbours of a level; an odd last element is its own neighbour. -/
def pairs : List α → List (α × α)
  | [] => []
  | [a] => [(a, a)]
  | a :: b :: rest => (a, b) :: pairs rest

/-- The next level of a tree. -/
def level (node : α → α → α) (l : List α) : List α := (pairs l).map fun p => node p.1 p.2

lemma exists_mem_pairs {l : List α} {a : α} (h : a ∈ l) : ∃ p ∈ pairs l, a = p.1 ∨ a = p.2 := by
  induction l using pairs.induct with
  | case1 => cases h
  | case2 b =>
    obtain rfl := List.mem_singleton.mp h
    exact ⟨(a, a), by simp [pairs], .inl rfl⟩
  | case3 b c rest ih =>
    simp only [List.mem_cons] at h
    obtain rfl | rfl | h := h
    · exact ⟨(a, c), by simp [pairs], .inl rfl⟩
    · exact ⟨(b, a), by simp [pairs], .inr rfl⟩
    · obtain ⟨p, hp, ha⟩ := ih h
      exact ⟨p, by simp [pairs, hp], ha⟩

lemma mem_of_mem_pairs {l : List α} {p : α × α} (h : p ∈ pairs l) : p.1 ∈ l ∧ p.2 ∈ l := by
  induction l using pairs.induct with
  | case1 => cases h
  | case2 b =>
    obtain rfl := List.mem_singleton.mp h
    simp
  | case3 b c rest ih =>
    obtain rfl | h := List.mem_cons.mp h
    · simp
    · have hrest := ih h
      simp [hrest.1, hrest.2]

lemma length_pairs (l : List α) : (pairs l).length = (l.length + 1) / 2 := by
  induction l using pairs.induct with
  | case1 => simp [pairs]
  | case2 b => simp [pairs]
  | case3 b c rest ih =>
    simp only [pairs, List.length_cons, ih]
    omega

lemma pairs_take (m : ℕ) (l : List α) : pairs (l.take (2 * m)) = (pairs l).take m := by
  induction m generalizing l with
  | zero => simp [pairs]
  | succ m ih =>
    rw [show 2 * (m + 1) = 2 * m + 2 by omega]
    match l with
    | [] => simp [pairs]
    | [a] => simp [pairs]
    | a :: b :: rest => simp [pairs, ih rest]

section Levels

variable {node : α → α → α}

lemma length_level (node : α → α → α) (l : List α) :
    (level node l).length = (l.length + 1) / 2 := by
  rw [level, List.length_map, length_pairs]

lemma length_iterate_level_le (node : α → α → α) (i : ℕ) (l : List α) :
    ((level node)^[i] l).length ≤ l.length := by
  induction i with
  | zero => simp
  | succ i ih =>
    rw [Function.iterate_succ_apply']
    have hlevel := length_level node ((level node)^[i] l)
    omega

/-- **The tree over the first leaves** consists of the first elements of the levels. -/
theorem iterate_level_take {i d : ℕ} (hi : i ≤ d) (l : List α) :
    (level node)^[i] (l.take (2 ^ d)) = ((level node)^[i] l).take (2 ^ (d - i)) := by
  induction i with
  | zero => rfl
  | succ i ih =>
    have hpow : 2 ^ (d - i) = 2 * 2 ^ (d - (i + 1)) := by
      rw [show d - i = d - (i + 1) + 1 by omega, pow_succ, Nat.mul_comm]
    rw [Function.iterate_succ_apply', Function.iterate_succ_apply', ih (by omega), hpow, level,
      pairs_take, List.map_take, level]

/-- **The root of a tree** of some height: the only element of that level, the levels below it
have more. -/
structure Root (node : α → α → α) (l : List α) (height : ℕ) (root : α) : Prop where
  top_eq : (level node)^[height] l = [root]
  below : ∀ i < height, 1 < ((level node)^[i] l).length

/-- Nodes with the same children on two levels, whose elements are the same one level up. -/
lemma mem_iff_of_level {l l' : List α}
    (hinj : ∀ p ∈ pairs l, ∀ q ∈ pairs l', node p.1 p.2 = node q.1 q.2 → p = q)
    (h : ∀ a, a ∈ level node l ↔ a ∈ level node l') (a : α) : a ∈ l ↔ a ∈ l' := by
  constructor
  · intro ha
    obtain ⟨p, hp, hap⟩ := exists_mem_pairs ha
    obtain ⟨q, hq, heq⟩ := List.mem_map.mp ((h _).mp (List.mem_map_of_mem hp))
    obtain rfl := hinj p hp q hq heq.symm
    have hmem := mem_of_mem_pairs hq
    obtain rfl | rfl := hap
    · exact hmem.1
    · exact hmem.2
  · intro ha
    obtain ⟨q, hq, haq⟩ := exists_mem_pairs ha
    obtain ⟨p, hp, heq⟩ := List.mem_map.mp ((h _).mpr (List.mem_map_of_mem hq))
    obtain rfl := hinj p hp q hq heq
    have hmem := mem_of_mem_pairs hp
    obtain rfl | rfl := haq
    · exact hmem.1
    · exact hmem.2

/-- **Two trees with the same root have the same elements** on levels of the same distance to the
root, if no two different pairs are combined to the same element.

**Proof sketch.** Induction on the distance. At the root the levels are equal; and if two levels
have the same elements, the levels below have the same pairs. -/
theorem Root.mem_iff {l l' : List α} {height height' : ℕ} {root : α}
    (hroot : Root node l height root) (hroot' : Root node l' height' root)
    (hinj : ∀ i < height, ∀ j < height', ∀ p ∈ pairs ((level node)^[i] l),
      ∀ q ∈ pairs ((level node)^[j] l'), node p.1 p.2 = node q.1 q.2 → p = q)
    (hle : height ≤ height') (a : α) :
    a ∈ l ↔ a ∈ (level node)^[height' - height] l' := by
  have hdown : ∀ i ≤ height, ∀ a, a ∈ (level node)^[height - i] l ↔
      a ∈ (level node)^[height' - i] l' := by
    intro i
    induction i with
    | zero =>
      intro _ a
      rw [Nat.sub_zero, Nat.sub_zero, hroot.top_eq, hroot'.top_eq]
    | succ i ih =>
      intro hi
      refine mem_iff_of_level (hinj _ (by omega) _ (by omega)) fun a => ?_
      rw [← Function.iterate_succ_apply' (level node), ← Function.iterate_succ_apply' (level node),
        show (height - (i + 1)).succ = height - i by omega,
        show (height' - (i + 1)).succ = height' - i by omega]
      exact ih (by omega) a
  have hbottom := hdown height (Nat.le_refl _) a
  rwa [Nat.sub_self, Function.iterate_zero_apply] at hbottom

end Levels

end MerkleTree
