import SumTree.Proofs.Tree.Levels
import SumTree.Proofs.Wire.Record

/-!
# Mini-trees

What the tree over a chunk of entries is made of: a leaf for each entry with its balances, the levels
above those leaves, and a root with the totals of the entries. It has a wire form whenever its hasher
gives no empty digest (`MiniTree.writable_of_build`).

## Main Definitions

* `MiniTree.Over` — what the mini-tree over some entries is made of.
* `Hasher.NeverEmpty` — a hasher without empty digests.
-/

namespace SumTree

/-- A hasher without empty digests. -/
structure Hasher.NeverEmpty (hasher : Hasher) : Prop where
  leaf : ∀ {username balances digest}, hasher.leaf username balances = .ok digest → digest ≠ []
  combine : ∀ {left right digest}, hasher.combine left right = .ok digest → digest ≠ []

/-- The mini-tree over some entries, whose leaves have `width` columns. -/
structure MiniTree.Over (hasher : Hasher) (policy : OddPolicy) (width : Nat) (leaves : List Node)
    (entries : List Entry) (t : MiniTree) : Prop where
  hashed : leavesOf hasher entries = .ok leaves
  uniform : Node.Uniform width leaves
  levels : buildLevels hasher policy leaves = .ok t.levels
  root : t.root = rootOf t.levels
  depth : t.depth = treeDepth entries.length
  isSorted : t.isSorted = false
  entries : t.entries = entries

section

variable {hasher : Hasher} {policy : OddPolicy} {width : Nat} {entries : List Entry}

theorem MiniTree.exists_over_of_build {t : MiniTree} (h : build hasher policy entries = .ok t) :
    ∃ width leaves, Over hasher policy width leaves entries t := by
  unfold build at h
  obtain ⟨leaves, hleaves, h⟩ := exists_of_bind_eq_ok h
  obtain ⟨levels, hlevels, h⟩ := exists_of_bind_eq_ok h
  cases h
  obtain ⟨-, width, huniform⟩ := uniform_of_buildLevels hlevels
  exact ⟨width, leaves, hleaves, huniform, hlevels, rfl, rfl, rfl, rfl⟩

/-! ### Leaves -/

theorem leaf_of_leafOf {e : Entry} {leaf : Node} (h : leafOf hasher e = .ok leaf) :
    hasher.leaf e.username e.amounts = .ok leaf.hash ∧ leaf.balances = e.amounts := by
  unfold leafOf at h
  obtain ⟨digest, hdigest, h⟩ := exists_of_bind_eq_ok h
  cases h
  exact ⟨hdigest, rfl⟩

/-- A leaf has the balances of its entry. -/
theorem balances_of_leavesOf {leaves : List Node} (h : leavesOf hasher entries = .ok leaves) :
    leaves.map Node.balances = entries.map Entry.amounts := by
  have hall := mapM_eq_ok_iff.mp h
  clear h
  induction hall with
  | nil => rfl
  | cons hleaf _ ih => rw [List.map_cons, List.map_cons, ih, (leaf_of_leafOf hleaf).2]

theorem widths_of_leavesOf {leaves : List Node} (h : leavesOf hasher entries = .ok leaves) :
    leaves.map Node.width = entries.map Entry.width := by
  have hlengths := congrArg (List.map List.length) (balances_of_leavesOf h)
  rw [List.map_map, List.map_map] at hlengths
  have hwidth : List.length ∘ Entry.amounts = Entry.width := by
    funext e
    exact List.length_map _
  rw [hwidth] at hlengths
  exact hlengths

/-- The entries have as many columns as the leaves. -/
theorem MiniTree.Over.width_eq {leaves : List Node} {t : MiniTree}
    (h : Over hasher policy width leaves entries t) : ∀ e ∈ entries, e.width = width := by
  intro e he
  have hmem : e.width ∈ entries.map Entry.width := List.mem_map_of_mem he
  rw [← widths_of_leavesOf h.hashed] at hmem
  obtain ⟨leaf, hleaf, hwidth⟩ := List.mem_map.mp hmem
  rw [← hwidth]
  exact h.uniform leaf hleaf

theorem MiniTree.Over.ne_nil {leaves : List Node} {t : MiniTree}
    (h : Over hasher policy width leaves entries t) : entries ≠ [] := by
  have hne := (uniform_of_buildLevels h.levels).1
  have hlengths := congrArg List.length (widths_of_leavesOf h.hashed)
  rw [List.length_map, List.length_map] at hlengths
  rw [← List.length_pos_iff, ← hlengths, List.length_pos_iff]
  exact hne

/-- The first entry has as many columns as the leaves. -/
theorem MiniTree.Over.head_width {leaves : List Node} {t : MiniTree}
    (h : Over hasher policy width leaves entries t) :
    (entries.head?.map Entry.width).getD 0 = width := by
  obtain ⟨first, rest, rfl⟩ := List.exists_cons_of_ne_nil h.ne_nil
  exact h.width_eq first List.mem_cons_self

/-! ### Wire forms -/

theorem writable_of_combineNodes (hhasher : hasher.NeverEmpty) {left right parent : Node}
    (h : combineNodes hasher left right = .ok parent) (hleft : ∀ b ∈ left.balances, 0 ≤ b)
    (hright : ∀ b ∈ right.balances, 0 ≤ b) : parent.Writable := by
  refine ⟨?_, nonneg_of_combineNodes h hleft hright⟩
  unfold combineNodes at h
  split at h
  · cases h
  · obtain ⟨digest, hdigest, h⟩ := exists_of_bind_eq_ok h
    cases h
    exact hhasher.combine hdigest

theorem nonneg_paddingFor (n : Node) (width : Nat) : ∀ b ∈ (paddingFor n width).balances, 0 ≤ b := by
  intro b hb
  rw [List.eq_of_mem_replicate hb]

/-- The level above a level that can be written can be written. -/
theorem writable_of_nextLevel (hhasher : hasher.NeverEmpty) {level parents : List Node}
    (h : nextLevel hasher policy width level = .ok parents) (hlevel : ∀ n ∈ level, n.Writable) :
    ∀ n ∈ parents, n.Writable :=
  forall_of_nextLevel (fun _ hn => hn.balances) (fun n => nonneg_paddingFor n width)
    (fun _ _ _ hparent hleft hright => writable_of_combineNodes hhasher hparent hleft hright) h hlevel

theorem writable_leaves (hhasher : hasher.NeverEmpty) {leaves : List Node}
    (h : leavesOf hasher entries = .ok leaves) : ∀ n ∈ leaves, n.Writable := by
  have hall := mapM_eq_ok_iff.mp h
  clear h
  induction hall with
  | nil => exact fun n hn => absurd hn List.not_mem_nil
  | @cons e leaf rest leaves hleaf _ ih =>
      obtain ⟨hdigest, hbalances⟩ := leaf_of_leafOf hleaf
      intro n hn
      rcases List.mem_cons.mp hn with rfl | hn
      · refine ⟨hhasher.leaf hdigest, ?_⟩
        intro b hb
        rw [hbalances] at hb
        obtain ⟨amount, -, rfl⟩ := List.mem_map.mp hb
        exact Int.natCast_nonneg amount
      · exact ih n hn

/-- The mini-tree over some entries can be written. -/
theorem MiniTree.writable_of_build (hhasher : hasher.NeverEmpty) {t : MiniTree}
    (h : build hasher policy entries = .ok t) : t.Writable := by
  obtain ⟨width, leaves, hover⟩ := exists_over_of_build h
  have htower := tower_of_buildLevels hover.levels hover.uniform
  have hlevels : ∀ level ∈ t.levels, ∀ n ∈ level, n.Writable := by
    refine htower.forall_level (fun level => ∀ n ∈ level, n.Writable)
      (writable_leaves hhasher hover.hashed) ?_
    intro lower _ upper _ hupper hlower
    exact writable_of_nextLevel hhasher hupper hlower
  refine ⟨?_, hlevels, ?_⟩
  · rw [hover.root]
    exact hlevels _ htower.rootOf_mem _ (List.mem_singleton_self _)
  · rw [hover.depth]
    exact Int.natCast_nonneg _

end

end SumTree
