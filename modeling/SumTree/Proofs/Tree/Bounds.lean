import SumTree.Proofs.Tree.Halves
import SumTree.Proofs.Tree.Spans

/-!
# Balances below the limit

Only the root of an aggregate tree is compared with the limit, and that is enough. Without balances
below zero sums only grow: every level of a tree has the sums of its leaves, so that no balance in the
tree is greater than all of the root's (`below_of_rootOf_below`). The roots of mini-trees are the
leaves of the aggregate tree, and the limit passes through them to the nodes and entries beneath
(`Aggregator.below_of_build`).

## Main Definitions

* `Node.Below` — nodes whose balances are all below a limit.
-/

namespace SumTree

/-- Nodes whose balances are all below a limit. -/
def Node.Below (limit : Int) (nodes : List Node) : Prop :=
  ∀ n ∈ nodes, ∀ b ∈ n.balances, b < limit

section

variable {hasher : Hasher} {policy : OddPolicy} {width : Nat} {leaves : List Node}
  {levels : List (List Node)} {limit : Int}

/-- A tree over leaves without a balance below zero has none anywhere. -/
theorem Tower.nonneg (h : Tower hasher policy width leaves levels) (hnonneg : Node.Nonneg leaves) :
    ∀ level ∈ levels, Node.Nonneg level := by
  refine h.forall_level Node.Nonneg hnonneg ?_
  intro lower _ upper _ hupper hlower
  exact nonneg_of_nextLevel hupper hlower

/-- What the balances of the root are below, all balances of the tree are below. -/
theorem below_of_rootOf_below (h : buildLevels hasher policy leaves = .ok levels)
    (hnonneg : Node.Nonneg leaves) (hroot : ∀ b ∈ (rootOf levels).balances, b < limit) :
    ∀ level ∈ levels, Node.Below limit level := by
  obtain ⟨-, width, huniform⟩ := uniform_of_buildLevels h
  have htower := tower_of_buildLevels h huniform
  intro level hlevel n hn b hb
  obtain ⟨sum, hsum, hle⟩ :=
    exists_sum_ge (htower.uniform level hlevel) (htower.nonneg hnonneg level hlevel) hn hb
  have hsums : Node.sums level = (rootOf levels).balances := by
    obtain ⟨k, hk⟩ := List.mem_iff_getElem?.mp hlevel
    rw [htower.sums hk, (buildLevels_spec h).2.2]
  rw [hsums] at hsum
  exact lt_of_le_of_lt hle (hroot sum hsum)

/-- What the balances of a mini-tree's root are below, the balances of its nodes and of its entries
are below. -/
theorem MiniTree.below_of_root_below {entries : List Entry} {t : MiniTree}
    (h : build hasher policy entries = .ok t) (hroot : ∀ b ∈ t.root.balances, b < limit) :
    (∀ level ∈ t.levels, Node.Below limit level) ∧ ∀ e ∈ entries, ∀ b ∈ e.amounts, b < limit := by
  obtain ⟨width, leaves, hover⟩ := exists_over_of_build h
  rw [hover.root] at hroot
  have hlevels := below_of_rootOf_below hover.levels (nonneg_leaves hover.hashed) hroot
  refine ⟨hlevels, ?_⟩
  intro e he b hb
  -- An entry has the balances of its leaf, and the leaves are the first level.
  have hmem : e.amounts ∈ leaves.map Node.balances := by
    rw [balances_of_leavesOf hover.hashed]
    exact List.mem_map_of_mem he
  obtain ⟨leaf, hleaf, heq⟩ := List.mem_map.mp hmem
  rw [← heq] at hb
  have hfirst := (tower_of_buildLevels hover.levels hover.uniform).first
  exact hlevels leaves (List.mem_of_getElem? hfirst) leaf hleaf b hb

end

namespace Aggregator

variable {a : Aggregator} {roots : List Node} {trees : List MiniTree} {t : AggregateTree}
  {limit : Nat}

/-- A root that passes the range check has balances below the limit. -/
theorem below_of_checkRange {root : Node} (hlimit : a.maxBytes? = some (limit : Int))
    (h : a.checkRange root = .ok ()) : ∀ b ∈ root.balances, b < 256 ^ limit := by
  have hpow : ((Nat.pow 256 limit : Nat) : Int) = 256 ^ limit := by
    push_cast [Nat.pow_eq]
    rfl
  rw [checkRange, hlimit] at h
  dsimp only at h
  rw [if_neg (not_lt.mpr (Int.natCast_nonneg limit)), Int.toNat_natCast, hpow] at h
  cases hbeyond : firstBeyond (256 ^ limit) 0 root.balances with
  | none => exact firstBeyond_eq_none_iff.mp hbeyond
  | some found =>
      rw [hbeyond] at h
      dsimp only at h
      split at h
      · cases h
      · cases h

/-- The check of the root bounds both layers: when roots without a balance below zero are aggregated
under a limit, all balances of the aggregate tree are below it, and so are those of the mini-trees that
the roots came from, node by node and entry by entry. -/
theorem below_of_build (hlimit : a.maxBytes? = some (limit : Int)) (hnonneg : Node.Nonneg roots)
    (h : a.build roots trees = .ok t) :
    (∀ level ∈ t.levels, ∀ n ∈ level, ∀ b ∈ n.balances, b < 256 ^ limit) ∧
      ∀ hasher policy entries m, MiniTree.build hasher policy entries = .ok m → m.root ∈ roots →
        (∀ level ∈ m.levels, ∀ n ∈ level, ∀ b ∈ n.balances, b < 256 ^ limit) ∧
          ∀ e ∈ entries, ∀ b ∈ e.balances, b < 256 ^ limit := by
  have hover := over_of_build h
  have hroot := below_of_checkRange hlimit hover.inRange
  rw [hover.root] at hroot
  have hlevels := below_of_rootOf_below hover.levels hnonneg hroot
  refine ⟨hlevels, ?_⟩
  intro hasher policy entries m hm hmem
  have hroots : Node.Below (256 ^ limit) roots := by
    obtain ⟨-, width, huniform⟩ := uniform_of_buildLevels hover.levels
    have hfirst := (tower_of_buildLevels hover.levels huniform).first
    exact hlevels roots (List.mem_of_getElem? hfirst)
  obtain ⟨hnodes, hentries⟩ := MiniTree.below_of_root_below hm (hroots m.root hmem)
  refine ⟨hnodes, ?_⟩
  intro e he b hb
  have hamount := hentries e he (b : Int) (List.mem_map_of_mem hb)
  exact_mod_cast hamount

theorem below_of_build_cut :
    ∃ trees t, Sample.cut.mapM (MiniTree.build Sample.listing .zeroPad) = .ok trees ∧
      (Aggregator.mk Sample.listing .zeroPad (some 1)).build (trees.map MiniTree.root) trees = .ok t ∧
      (∀ level ∈ t.levels, ∀ n ∈ level, ∀ b ∈ n.balances, b < 256 ^ 1) ∧
      ∀ e ∈ [⟨"c", [3]⟩, ⟨"d", [4]⟩], ∀ b ∈ Entry.balances e, b < 256 ^ 1 := by
  obtain ⟨trees, t, htrees, h⟩ : ∃ trees t,
      Sample.cut.mapM (MiniTree.build Sample.listing .zeroPad) = .ok trees ∧
      (Aggregator.mk Sample.listing .zeroPad (some 1)).build (trees.map MiniTree.root) trees = .ok t :=
    ⟨_, _, rfl, rfl⟩
  have hnonneg : Node.Nonneg (trees.map MiniTree.root) := by
    cases htrees
    unfold Node.Nonneg
    decide
  obtain ⟨hlevels, hbeneath⟩ := below_of_build (show _ = some ((1 : Nat) : Int) from rfl) hnonneg h
  refine ⟨trees, t, htrees, h, hlevels, ?_⟩
  cases htrees
  exact (hbeneath Sample.listing .zeroPad [⟨"c", [3]⟩, ⟨"d", [4]⟩] _ rfl (by decide)).2

end Aggregator

end SumTree
