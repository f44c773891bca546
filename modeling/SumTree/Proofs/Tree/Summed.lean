import SumTree.Proofs.Run.Acceptance
import SumTree.Proofs.Tree.Spans

/-!
# Sum trees of a chunk

What makes a tree a sum tree of some entries, whoever made it and whatever its digests say: its levels
halve from one leaf for each entry to the root alone, every node above the leaves holds the sums of the
one or two nodes beneath it, and the leaves hold the balances of the entries in some order.

Every tree that the builder makes over such leaves is one (`sumTreeOf_of_buildLevels`), and a sum tree
of entries of one width has everything that an exchange looks for in an answer
(`MiniTree.SumTreeOf.toPlausible`). The step is `Node.Summed.spec`: a level has the sums of the level
below, because its balances are those that the builder puts there.

## Main Definitions

* `Node.Summed` — a level whose nodes hold the sums of those beneath them.
* `MiniTree.SumTreeOf` — the sum trees of some entries.
-/

namespace SumTree

/-- A level of half as many nodes as the one below, rounded up, whose node at position j holds the sums
of the nodes at 2j and 2j + 1, or of the first of them where there is no second. -/
structure Node.Summed (lower upper : List Node) : Prop where
  length : upper.length = (lower.length + 1) / 2
  sums : ∀ (j : Nat) (parent : Node), upper[j]? = some parent →
    parent.balances = Node.sums ((lower.drop (2 * j)).take 2)

/-- The sum trees of some entries. A worker may put the leaves in any order. -/
structure MiniTree.SumTreeOf (t : MiniTree) (entries : List Entry) : Prop where
  depth : t.depth = treeDepth entries.length
  count : (t.levels.length : Int) = t.depth + 1
  next : ∀ (k : Nat) (lower upper : List Node), t.levels[k]? = some lower →
    t.levels[k + 1]? = some upper → Node.Summed lower upper
  last : t.levels.getLast? = some [t.root]
  balances : (t.leaves.map Node.balances).Perm (entries.map Entry.amounts)

/-! ### One level -/

section

variable {hasher : Hasher} {policy : OddPolicy} {width : Nat} {lower upper upper' : List Node}

/-- A level that the builder makes holds the sums of the level below. -/
theorem summed_of_above (h : Above hasher policy lower upper) : Node.Summed lower upper := by
  refine ⟨h.length, ?_⟩
  intro j parent hparent
  have hj : j < upper.length := (List.getElem?_eq_some_iff.mp hparent).1
  have hlength := h.length
  have hleft : lower[2 * j]? = some lower[2 * j] := List.getElem?_eq_getElem (by omega)
  obtain ⟨found, hfound, hlifts⟩ := h.lifts j _ hleft
  rw [hparent, Option.some.injEq] at hfound
  subst hfound
  rw [List.drop_eq_getElem_cons (by omega), List.take_succ_cons]
  cases hright : lower[2 * j + 1]? with
  | some right =>
      rw [hright] at hlifts
      obtain ⟨hlt, hget⟩ := List.getElem?_eq_some_iff.mp hright
      rw [List.drop_eq_getElem_cons hlt, hget, List.take_succ_cons, List.take_zero,
        sums_cons (List.cons_ne_nil _ _), sums_singleton]
      exact (balances_combineNodes hlifts).2
  | none =>
      rw [hright] at hlifts
      rw [List.drop_eq_nil_of_le (List.getElem?_eq_none_iff.mp hright), List.take_nil, sums_singleton]
      exact balances_of_lifts_alone hlifts

/-- The level below leaves no choice of balances. -/
theorem Node.Summed.map_balances_eq (h : Summed lower upper) (h' : Summed lower upper') :
    upper.map balances = upper'.map balances := by
  apply List.ext_getElem
  · rw [List.length_map, List.length_map, h.length, h'.length]
  · intro j hj hj'
    rw [List.length_map] at hj hj'
    rw [List.getElem_map, List.getElem_map, h.sums j _ (List.getElem?_eq_getElem hj),
      h'.sums j _ (List.getElem?_eq_getElem hj')]

/-- Over any nodes of one width the builder makes a level, given a hasher that never fails. -/
theorem exists_nextLevel (hhasher : hasher.Combines) (policy : OddPolicy)
    (huniform : Node.Uniform width lower) :
    ∃ upper, nextLevel hasher policy width lower = .ok upper := by
  cases h : nextLevel hasher policy width lower with
  | ok upper => exact ⟨upper, rfl⟩
  | error fault =>
      obtain ⟨left, right, -, hfault⟩ := fault_of_nextLevel h huniform
      obtain ⟨digest, hdigest⟩ := hhasher left right
      rw [hdigest] at hfault
      cases hfault

/-- A level that holds the sums of the level below has its width and its sums. -/
theorem Node.Summed.spec (h : Summed lower upper) (huniform : Uniform width lower) :
    Uniform width upper ∧ Node.sums upper = Node.sums lower := by
  obtain ⟨built, hbuilt⟩ := exists_nextLevel combines_transparent .carryUp huniform
  obtain ⟨-, huniform', hsums⟩ := nextLevel_spec hbuilt huniform
  have hbalances := h.map_balances_eq (summed_of_above (above_of_nextLevel hbuilt huniform))
  constructor
  · intro n hn
    have hmem : n.balances ∈ upper.map balances := List.mem_map_of_mem hn
    rw [hbalances] at hmem
    obtain ⟨m, hm, heq⟩ := List.mem_map.mp hmem
    rw [Node.width, ← heq]
    exact huniform' m hm
  · rw [← hsums, Node.sums, hbalances, Node.sums]

end

/-! ### Rows in any order -/

/-- The sums of the columns do not depend on the order of the rows. -/
theorem columnSums_perm {width : Nat} {rows rows' : List (List Int)} (h : rows.Perm rows')
    (hwidth : ∀ row ∈ rows, row.length = width) : columnSums rows = columnSums rows' := by
  by_cases hnil : rows = []
  · subst hnil
    rw [h.nil_eq]
  · have hnil' : rows' ≠ [] := fun hempty => hnil (List.perm_nil.mp (hempty ▸ h))
    rw [columnSums_eq_map hnil hwidth,
      columnSums_eq_map hnil' fun row hrow => hwidth row (h.mem_iff.mpr hrow)]
    exact List.map_congr_left fun column _ => (h.map _).sum_eq

/-! ### Whole trees -/

namespace MiniTree.SumTreeOf

variable {t : MiniTree} {entries : List Entry} {width : Nat}

theorem first (h : t.SumTreeOf entries) : t.levels[0]? = some t.leaves := by
  have hcount := h.count
  rw [h.depth] at hcount
  cases hlevels : t.levels with
  | nil =>
      rw [hlevels, List.length_nil] at hcount
      omega
  | cons first rest => rw [MiniTree.leaves, hlevels, List.headD_cons, List.getElem?_cons_zero]

theorem leaves_length (h : t.SumTreeOf entries) : t.leaves.length = entries.length := by
  have hlength := h.balances.length_eq
  rwa [List.length_map, List.length_map] at hlength

theorem leaves_uniform (h : t.SumTreeOf entries) (hwidth : ∀ e ∈ entries, e.width = width) :
    Node.Uniform width t.leaves := by
  intro n hn
  obtain ⟨e, he, hamounts⟩ := List.mem_map.mp (h.balances.mem_iff.mp (List.mem_map_of_mem hn))
  rw [Node.width, ← hamounts, Entry.amounts, List.length_map]
  exact hwidth e he

/-- Every level has the width and the sums of the leaves. -/
theorem level (h : t.SumTreeOf entries) (hwidth : ∀ e ∈ entries, e.width = width) {k : Nat}
    {nodes : List Node} (hnodes : t.levels[k]? = some nodes) :
    Node.Uniform width nodes ∧ Node.sums nodes = Node.sums t.leaves := by
  induction k generalizing nodes with
  | zero =>
      rw [h.first, Option.some.injEq] at hnodes
      subst hnodes
      exact ⟨h.leaves_uniform hwidth, rfl⟩
  | succ k ih =>
      obtain ⟨lower, hlower⟩ := Tower.exists_lower hnodes
      obtain ⟨huniform, hsums⟩ := ih hlower
      obtain ⟨huniform', hsums'⟩ := (h.next k lower nodes hlower hnodes).spec huniform
      exact ⟨huniform', hsums'.trans hsums⟩

/-- There is no sum tree of no entries. -/
theorem ne_nil (h : t.SumTreeOf entries) : entries ≠ [] := by
  rintro rfl
  have hempty : t.leaves = [] := List.length_eq_zero_iff.mp h.leaves_length
  have hone : t.levels.length = 1 := by
    have hcount := h.count
    rw [h.depth, List.length_nil, treeDepth_of_le_one (by decide)] at hcount
    exact_mod_cast hcount
  obtain ⟨only, hlevels⟩ := List.length_eq_one_iff.mp hone
  have hfirst := h.first
  have hlast := h.last
  rw [hlevels, hempty] at hfirst
  rw [hlevels] at hlast
  cases hfirst
  cases hlast

theorem root_balances (h : t.SumTreeOf entries) (hwidth : ∀ e ∈ entries, e.width = width) :
    t.root.balances = Entry.totals entries := by
  obtain ⟨k, hk⟩ := List.mem_iff_getElem?.mp (List.mem_of_getLast? h.last)
  have hrows : ∀ row ∈ t.leaves.map Node.balances, row.length = width := by
    intro row hrow
    obtain ⟨n, hn, rfl⟩ := List.mem_map.mp hrow
    exact h.leaves_uniform hwidth n hn
  calc t.root.balances = Node.sums [t.root] := (sums_singleton t.root).symm
    _ = Node.sums t.leaves := (h.level hwidth hk).2
    _ = Entry.totals entries := columnSums_perm h.balances hrows

/-- A sum tree of entries of one width has everything that an exchange looks for. -/
theorem toPlausible (h : t.SumTreeOf entries) (hwidth : ∀ e ∈ entries, e.width = width) :
    t.Plausible entries := by
  refine ⟨h.leaves_length, ?_, ?_, h.depth, h.root_balances hwidth⟩
  · rw [List.getLastD_eq_getLast?, h.last, Option.getD_some]
  · intro n hn
    obtain ⟨nodes, hnodes, hmem⟩ := List.mem_flatten.mp hn
    obtain ⟨k, hk⟩ := List.mem_iff_getElem?.mp hnodes
    obtain ⟨e, rest, rfl⟩ := List.exists_cons_of_ne_nil h.ne_nil
    rw [(h.level hwidth hk).1 n hmem]
    exact (hwidth e List.mem_cons_self).symm

end MiniTree.SumTreeOf

/-- Whatever the hasher and the policy, the levels over leaves with the balances of the entries make up
a sum tree of them. -/
theorem sumTreeOf_of_buildLevels {hasher : Hasher} {policy : OddPolicy} {leaves : List Node}
    {entries : List Entry} {t : MiniTree} (h : buildLevels hasher policy leaves = .ok t.levels)
    (hbalances : (leaves.map Node.balances).Perm (entries.map Entry.amounts))
    (hroot : t.root = rootOf t.levels) (hdepth : t.depth = treeDepth entries.length) :
    t.SumTreeOf entries := by
  obtain ⟨-, width, huniform⟩ := uniform_of_buildLevels h
  have htower := tower_of_buildLevels h huniform
  obtain ⟨hhead, -, -⟩ := buildLevels_spec h
  have hlength : leaves.length = entries.length := by
    have hperm := hbalances.length_eq
    rwa [List.length_map, List.length_map] at hperm
  refine ⟨hdepth, ?_, ?_, ?_, ?_⟩
  · rw [htower.length, hdepth, hlength]
    push_cast
    rfl
  · intro k lower upper hlower hupper
    exact summed_of_above (htower.above hlower hupper)
  · rw [hroot, htower.getLast?_eq]
  · rw [MiniTree.leaves, hhead]
    exact hbalances

end SumTree
