import SumTree.Proofs.Tree.Nesting
import SumTree.Proofs.Tree.Spans

/-!
# Locality

A leaf has one node above it in each level, at position i / 2 ^ k of level k for the leaf at i. Every
other node is made from nodes that do not depend on that leaf, the last node of a level of odd size from
the one beneath it alone. So a change at one leaf reaches no node beside the path from that leaf to the
root (`Tower.sameBut`), and neither does a change of one entry (`same_off_path`).

## Main Definitions

* `SameBut` — lists that differ at one position at most.
* `SameOffPath` — levels that differ on the path of one leaf at most.
-/

namespace SumTree

/-- Lists of one length with the same elements at all positions but `i`. -/
structure SameBut {α : Type} (i : Nat) (xs ys : List α) : Prop where
  length : xs.length = ys.length
  agree : ∀ j, j ≠ i → xs[j]? = ys[j]?

/-- As many levels, each with the same nodes at all positions but the one above leaf `i`. -/
structure SameOffPath (i : Nat) (levels levels' : List (List Node)) : Prop where
  length : levels.length = levels'.length
  level : ∀ k level level', levels[k]? = some level → levels'[k]? = some level' →
    SameBut (i / 2 ^ k) level level'

/-- What is made element by element differs where the elements do. -/
theorem SameBut.map {α β : Type} {i : Nat} {xs ys : List α} (h : SameBut i xs ys) (f : α → β) :
    SameBut i (xs.map f) (ys.map f) := by
  refine ⟨by simpa using h.length, ?_⟩
  intro j hj
  rw [List.getElem?_map, List.getElem?_map, h.agree j hj]

section

variable {hasher : Hasher} {policy : OddPolicy} {width i : Nat}

/-- A node and its neighbour have one parent. -/
theorem Lifts.unique {left parent parent' : Node} {right? : Option Node}
    (h : Lifts hasher policy left right? parent) (h' : Lifts hasher policy left right? parent') :
    parent = parent' := by
  cases right? with
  | some right => exact Except.ok.inj (Eq.trans (Eq.symm h) h')
  | none =>
      cases policy with
      | carryUp => exact Eq.trans h (Eq.symm h')
      | zeroPad => exact Except.ok.inj (Eq.trans (Eq.symm h) h')

/-- A change at one position of a level reaches one position of the level above it. -/
theorem Above.sameBut {lower lower' upper upper' : List Node}
    (h : Above hasher policy lower upper) (h' : Above hasher policy lower' upper')
    (hsame : SameBut i lower lower') : SameBut (i / 2) upper upper' := by
  have hlength := h.length
  have hlength' := h'.length
  have hlower := hsame.length
  refine ⟨by omega, ?_⟩
  intro j hj
  -- What is beneath position j is not at position i, in either half of the pair.
  have hleft := hsame.agree (2 * j) (by omega)
  have hright := hsame.agree (2 * j + 1) (by omega)
  cases hnode : lower[2 * j]? with
  | some left =>
      rw [hnode] at hleft
      obtain ⟨parent, hparent, hlifts⟩ := h.lifts j left hnode
      obtain ⟨parent', hparent', hlifts'⟩ := h'.lifts j left hleft.symm
      rw [← hright] at hlifts'
      rw [hparent, hparent', hlifts.unique hlifts']
  | none =>
      have hpast := List.getElem?_eq_none_iff.mp hnode
      rw [List.getElem?_eq_none (by omega), List.getElem?_eq_none (by omega)]

variable {leaves leaves' : List Node} {levels levels' : List (List Node)}

/-- Levels over leaves that differ at one position differ above it alone. -/
theorem Tower.sameBut (h : Tower hasher policy width leaves levels)
    (h' : Tower hasher policy width leaves' levels') (hsame : SameBut i leaves leaves') {k : Nat}
    {level level' : List Node} (hlevel : levels[k]? = some level)
    (hlevel' : levels'[k]? = some level') : SameBut (i / 2 ^ k) level level' := by
  induction k generalizing level level' with
  | zero =>
      rw [h.first, Option.some.injEq] at hlevel
      rw [h'.first, Option.some.injEq] at hlevel'
      rw [Nat.pow_zero, Nat.div_one, ← hlevel, ← hlevel']
      exact hsame
  | succ k ih =>
      obtain ⟨lower, hlower⟩ := Tower.exists_lower hlevel
      obtain ⟨lower', hlower'⟩ := Tower.exists_lower hlevel'
      have hbelow := ih hlower hlower'
      rw [Nat.pow_succ, ← Nat.div_div_eq_div_mul]
      exact (h.above hlower hlevel).sameBut (h'.above hlower' hlevel') hbelow

theorem Tower.sameOffPath (h : Tower hasher policy width leaves levels)
    (h' : Tower hasher policy width leaves' levels') (hsame : SameBut i leaves leaves') :
    SameOffPath i levels levels' := by
  refine ⟨?_, fun k level level' => h.sameBut h' hsame⟩
  rw [h.length, h'.length, hsame.length]

theorem SameBut.ne_nil {α : Type} {xs ys : List α} (h : SameBut i xs ys) (hne : xs ≠ []) : ys ≠ [] := by
  rw [← List.length_pos_iff, ← h.length, List.length_pos_iff]
  exact hne

/-- One leaf, or one entry, counts for the nodes above it and for no others: trees that differ in it
alone have as many levels of the same sizes, and in level k the same node at every position but
i / 2 ^ k, whatever becomes of nodes without a partner. -/
theorem same_off_path (hhasher : hasher.Total) (policy : OddPolicy) (width i : Nat) :
    (∀ leaves leaves', leaves ≠ [] → Node.Uniform width leaves → Node.Uniform width leaves' →
      SameBut i leaves leaves' →
      ∃ levels levels', buildLevels hasher policy leaves = .ok levels ∧
        buildLevels hasher policy leaves' = .ok levels' ∧ SameOffPath i levels levels') ∧
      ∀ entries entries', entries ≠ [] → (∀ e ∈ entries, e.width = width) →
        (∀ e ∈ entries', e.width = width) → SameBut i entries entries' →
        ∃ t t', MiniTree.build hasher policy entries = .ok t ∧
          MiniTree.build hasher policy entries' = .ok t' ∧ SameOffPath i t.levels t'.levels := by
  constructor
  · intro leaves leaves' hne huniform huniform' hsame
    obtain ⟨levels, hlevels, htower⟩ := exists_tower hhasher.combine policy hne huniform
    obtain ⟨levels', hlevels', htower'⟩ :=
      exists_tower hhasher.combine policy (hsame.ne_nil hne) huniform'
    exact ⟨levels, levels', hlevels, hlevels', htower.sameOffPath htower' hsame⟩
  · intro entries entries' hne huniform huniform' hsame
    obtain ⟨leaf, hleaf⟩ := hhasher.exists_leaf
    obtain ⟨levels, hbuilt, htower⟩ :=
      MiniTree.exists_tower_of_total hhasher policy hleaf hne huniform
    obtain ⟨levels', hbuilt', htower'⟩ :=
      MiniTree.exists_tower_of_total hhasher policy hleaf (hsame.ne_nil hne) huniform'
    exact ⟨_, _, hbuilt, hbuilt', htower.sameOffPath htower' (hsame.map leaf)⟩

end

namespace Sample

/-- The leaves with another digest and another balance in the last one, which has no partner. -/
def changedLeaves : List Node :=
  [⟨[1], [1, 2]⟩, ⟨[2], [3, 4]⟩, ⟨[3, 3], [9, 6]⟩]

theorem uniform_changedLeaves : Node.Uniform 2 changedLeaves := by
  unfold Node.Uniform
  decide

theorem sameBut_changedLeaves : SameBut 2 leaves changedLeaves := by
  refine ⟨rfl, ?_⟩
  intro j hj
  rcases Nat.lt_or_gt_of_ne hj with hlt | hgt
  · interval_cases j <;> rfl
  · rw [List.getElem?_eq_none (by exact hgt), List.getElem?_eq_none (by exact hgt)]

end Sample

theorem same_off_path_padded :
    ∃ levels levels', buildLevels Sample.listing .zeroPad Sample.leaves = .ok levels ∧
      buildLevels Sample.listing .zeroPad Sample.changedLeaves = .ok levels' ∧
      SameOffPath 2 levels levels' ∧ rootOf levels ≠ rootOf levels' := by
  obtain ⟨hleaves, -⟩ := same_off_path Sample.total_listing .zeroPad 2 2
  obtain ⟨levels, levels', hlevels, hlevels', hsame⟩ := hleaves Sample.leaves Sample.changedLeaves
    (by decide) Sample.uniform_leaves Sample.uniform_changedLeaves Sample.sameBut_changedLeaves
  refine ⟨levels, levels', hlevels, hlevels', hsame, ?_⟩
  cases hlevels
  cases hlevels'
  decide

end SumTree
