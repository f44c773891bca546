import SumTree.Proofs.Tree.Levels

/-!
# Spans of leaves

Position j of level k stands for the 2 ^ k leaves from j * 2 ^ k on, or as many of them as there are,
and holds their column sums (`Tower.balances`). This is so under either odd-node policy and with every
hasher, so that the balances of a tree depend on its leaves alone (`Tower.map_balances_eq`).

## Main Definitions

* `Node.span` — the leaves beneath a position.
-/

namespace SumTree

/-- The leaves beneath position `j` of level `k`. -/
def Node.span (leaves : List Node) (k j : Nat) : List Node :=
  (leaves.drop (j * 2 ^ k)).take (2 ^ k)

theorem sums_append {front back : List Node} (hfront : front ≠ []) (hback : back ≠ []) :
    Node.sums (front ++ back) =
      List.zipWith (· + ·) (Node.sums front) (Node.sums back) := by
  unfold Node.sums
  rw [List.map_append, columnSums_append (by simpa using hfront) (by simpa using hback)]

/-! ### Positions and their leaves -/

theorem span_zero {leaves : List Node} {j : Nat} {leaf : Node} (h : leaves[j]? = some leaf) :
    Node.span leaves 0 j = [leaf] := by
  obtain ⟨hj, hleaf⟩ := List.getElem?_eq_some_iff.mp h
  rw [Node.span, Nat.pow_zero, Nat.mul_one, List.drop_eq_getElem_cons hj, hleaf, List.take_succ_cons,
    List.take_zero]

/-- A position stands for what the two beneath it stand for. -/
theorem span_succ (leaves : List Node) (k j : Nat) :
    Node.span leaves (k + 1) j = Node.span leaves k (2 * j) ++ Node.span leaves k (2 * j + 1) := by
  have hstart : j * 2 ^ (k + 1) = 2 * j * 2 ^ k := by ring
  have hmiddle : (2 * j + 1) * 2 ^ k = 2 * j * 2 ^ k + 2 ^ k := by ring
  have hsize : 2 ^ (k + 1) = 2 ^ k + 2 ^ k := by ring
  unfold Node.span
  rw [hstart, hmiddle, hsize, List.take_add, List.drop_drop]

theorem span_ne_nil {leaves : List Node} {k j : Nat} (h : j * 2 ^ k < leaves.length) :
    Node.span leaves k j ≠ [] := by
  have hsize : 0 < 2 ^ k := Nat.two_pow_pos k
  rw [← List.length_pos_iff, Node.span, List.length_take, List.length_drop]
  omega

theorem span_eq_nil {leaves : List Node} {k j : Nat} (h : leaves.length ≤ j * 2 ^ k) :
    Node.span leaves k j = [] := by
  rw [Node.span, List.drop_eq_nil_of_le h, List.take_nil]

section

variable {hasher hasher' : Hasher} {policy policy' : OddPolicy} {width : Nat}
  {leaves : List Node} {levels levels' : List (List Node)}

theorem Tower.exists_lower {k : Nat} {upper : List Node} (hupper : levels[k + 1]? = some upper) :
    ∃ lower, levels[k]? = some lower := by
  obtain ⟨hk, -⟩ := List.getElem?_eq_some_iff.mp hupper
  exact ⟨levels[k], List.getElem?_eq_getElem (by omega)⟩

/-- The positions of a level are those whose span starts before the leaves end. -/
theorem Tower.lt_length_iff (h : Tower hasher policy width leaves levels) {k : Nat}
    {level : List Node} (hlevel : levels[k]? = some level) (j : Nat) :
    j < level.length ↔ j * 2 ^ k < leaves.length := by
  induction k generalizing level j with
  | zero =>
      have hfirst := h.first
      rw [hlevel, Option.some.injEq] at hfirst
      rw [hfirst, Nat.pow_zero, Nat.mul_one]
  | succ k ih =>
      obtain ⟨lower, hlower⟩ := Tower.exists_lower hlevel
      have hlength := (h.above hlower hlevel).length
      have hbelow := ih hlower (2 * j)
      have hstart : j * 2 ^ (k + 1) = 2 * j * 2 ^ k := by ring
      rw [hstart, ← hbelow, hlength]
      omega

/-- A node alone beneath its parent passes on what it holds. -/
theorem balances_of_lifts_alone {left parent : Node} (h : Lifts hasher policy left none parent) :
    parent.balances = left.balances := by
  cases policy with
  | carryUp => exact congrArg Node.balances h
  | zeroPad =>
      have hbalances := (balances_combineNodes h).2
      rw [Node.width, zipWith_add_zeros] at hbalances
      exact hbalances

/-- Every node holds the sums of the leaves that it stands for. -/
theorem Tower.balances (h : Tower hasher policy width leaves levels) {k : Nat}
    {level : List Node} (hlevel : levels[k]? = some level) {j : Nat} {node : Node}
    (hnode : level[j]? = some node) : node.balances = Node.sums (Node.span leaves k j) := by
  induction k generalizing level j node with
  | zero =>
      have hfirst := h.first
      rw [hlevel, Option.some.injEq] at hfirst
      rw [hfirst] at hnode
      rw [span_zero hnode, sums_singleton]
  | succ k ih =>
      obtain ⟨lower, hlower⟩ := Tower.exists_lower hlevel
      have habove := h.above hlower hlevel
      have hj : j < level.length := (List.getElem?_eq_some_iff.mp hnode).1
      have hlength := habove.length
      have hleft : lower[2 * j]? = some lower[2 * j] := List.getElem?_eq_getElem (by omega)
      obtain ⟨parent, hparent, hlifts⟩ := habove.lifts j _ hleft
      rw [hnode, Option.some.injEq] at hparent
      subst hparent
      have hfirst : Node.span leaves k (2 * j) ≠ [] :=
        span_ne_nil ((h.lt_length_iff hlower (2 * j)).mp (by omega))
      rw [span_succ]
      cases hright : lower[2 * j + 1]? with
      | some right =>
          have hsecond : Node.span leaves k (2 * j + 1) ≠ [] := by
            apply span_ne_nil
            rw [← h.lt_length_iff hlower]
            exact (List.getElem?_eq_some_iff.mp hright).1
          rw [hright] at hlifts
          have hbalances := (balances_combineNodes hlifts).2
          rw [hbalances, sums_append hfirst hsecond, ih hlower hleft, ih hlower hright]
      -- Beneath a node without a partner the second half of the span is past the leaves.
      | none =>
          have hsecond : Node.span leaves k (2 * j + 1) = [] := by
            apply span_eq_nil
            rw [← Nat.not_lt, ← h.lt_length_iff hlower]
            exact Nat.not_lt.mpr (List.getElem?_eq_none_iff.mp hright)
          rw [hright] at hlifts
          rw [balances_of_lifts_alone hlifts, hsecond, List.append_nil]
          exact ih hlower hleft

/-! ### Whole levels -/

/-- Every level has the sums of the leaves. -/
theorem Tower.sums (h : Tower hasher policy width leaves levels) {k : Nat} {level : List Node}
    (hlevel : levels[k]? = some level) : Node.sums level = Node.sums leaves := by
  induction k generalizing level with
  | zero =>
      have hfirst := h.first
      rw [hlevel, Option.some.injEq] at hfirst
      rw [hfirst]
  | succ k ih =>
      obtain ⟨lower, hlower⟩ := Tower.exists_lower hlevel
      have huniform := h.uniform lower (List.mem_of_getElem? hlower)
      rw [(nextLevel_spec (h.next k lower level hlower hlevel) huniform).2.2, ih hlower]

/-- Trees over the same leaves have the same balances everywhere. -/
theorem Tower.map_balances_eq (h : Tower hasher policy width leaves levels)
    (h' : Tower hasher' policy' width leaves levels') :
    levels.map (List.map Node.balances) = levels'.map (List.map Node.balances) := by
  apply List.ext_getElem
  · rw [List.length_map, List.length_map, h.length, h'.length]
  · intro k hk hk'
    rw [List.length_map] at hk hk'
    have hlevel : levels[k]? = some levels[k] := List.getElem?_eq_getElem hk
    have hlevel' : levels'[k]? = some levels'[k] := List.getElem?_eq_getElem hk'
    rw [List.getElem_map, List.getElem_map]
    apply List.ext_getElem
    · simp only [List.length_map]
      refine eq_of_forall_lt_iff fun j => ?_
      rw [h.lt_length_iff hlevel, h'.lt_length_iff hlevel']
    · intro j hj hj'
      rw [List.length_map] at hj hj'
      rw [List.getElem_map, List.getElem_map, h.balances hlevel (List.getElem?_eq_getElem hj),
        h'.balances hlevel' (List.getElem?_eq_getElem hj')]

/-- What a tree holds where: at position j of level k the column sums of the leaves from j * 2 ^ k on,
at most 2 ^ k of them. All levels have the sums of the leaves, the root holds them, and neither the
hasher nor the odd-node policy changes a balance. -/
theorem balances_of_levels (hhasher : hasher.Combines) (hhasher' : hasher'.Combines)
    (policy policy' : OddPolicy) (hne : leaves ≠ []) (huniform : Node.Uniform width leaves) :
    ∃ levels levels', buildLevels hasher policy leaves = .ok levels ∧
      buildLevels hasher' policy' leaves = .ok levels' ∧
      (∀ k level j node, levels[k]? = some level → level[j]? = some node →
        node.balances = (List.range width).map fun column =>
          (((leaves.drop (j * 2 ^ k)).take (2 ^ k)).map fun leaf =>
            leaf.balances.getD column 0).sum) ∧
      (∀ level ∈ levels, Node.sums level = Node.sums leaves) ∧
      (rootOf levels).balances = Node.sums leaves ∧
      levels.map (List.map Node.balances) = levels'.map (List.map Node.balances) := by
  obtain ⟨levels, hlevels, htower⟩ := exists_tower hhasher policy hne huniform
  obtain ⟨levels', hlevels', htower'⟩ := exists_tower hhasher' policy' hne huniform
  refine ⟨levels, levels', hlevels, hlevels', ?_, ?_, (buildLevels_spec hlevels).2.2,
    htower.map_balances_eq htower'⟩
  · intro k level j node hlevel hnode
    have hj : j < level.length := (List.getElem?_eq_some_iff.mp hnode).1
    have hspan : Node.span leaves k j ≠ [] := span_ne_nil ((htower.lt_length_iff hlevel j).mp hj)
    have hrows : ∀ row ∈ (Node.span leaves k j).map Node.balances, row.length = width := by
      intro row hrow
      obtain ⟨leaf, hleaf, rfl⟩ := List.mem_map.mp hrow
      exact huniform leaf (List.mem_of_mem_drop (List.mem_of_mem_take hleaf))
    rw [htower.balances hlevel hnode, Node.sums, columnSums_eq_map (by simpa using hspan) hrows]
    simp only [List.map_map, Function.comp_def, Node.span]
  · intro level hlevel
    obtain ⟨k, hk⟩ := List.mem_iff_getElem?.mp hlevel
    exact htower.sums hk

end

theorem balances_of_levels_three :
    ∃ levels levels', buildLevels .transparent .zeroPad Sample.leaves = .ok levels ∧
      buildLevels ⟨fun _ _ => .ok [], fun _ _ => .ok []⟩ .carryUp Sample.leaves = .ok levels' ∧
      (rootOf levels).balances = [9, 12] ∧
      levels.map (List.map Node.balances) = levels'.map (List.map Node.balances) := by
  have hconstant : Hasher.Combines ⟨fun _ _ => .ok [], fun _ _ => .ok []⟩ := fun _ _ => ⟨[], rfl⟩
  obtain ⟨levels, levels', hlevels, hlevels', -, -, hroot, hsame⟩ :=
    balances_of_levels combines_transparent hconstant .zeroPad .carryUp (by decide)
      Sample.uniform_leaves
  exact ⟨levels, levels', hlevels, hlevels', hroot, hsame⟩

end SumTree
