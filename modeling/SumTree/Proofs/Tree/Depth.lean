import Mathlib
import SumTree.Tree.Build

/-!
# Depths

The depth of a tree over n leaves is the least d with n ≤ 2 ^ d (`treeDepth_le_iff`), that is the
logarithm of n to base two, rounded up.
-/

namespace SumTree

theorem treeDepth_le_iff (leafCount depth : Nat) :
    treeDepth leafCount ≤ depth ↔ leafCount ≤ 2 ^ depth := by
  have hone : 1 ≤ 2 ^ depth := Nat.one_le_two_pow
  rw [treeDepth]
  split
  · rename_i hsmall
    have hle : leafCount ≤ 1 := by exact_mod_cast hsmall
    exact ⟨fun _ => hle.trans hone, fun _ => Nat.zero_le depth⟩
  · rename_i hlarge
    have hpred : ((leafCount : Int) - 1).toNat = leafCount - 1 := by omega
    have hne : leafCount - 1 ≠ 0 := by omega
    rw [hpred, Nat.succ_le_iff, Nat.log2_lt hne]
    omega

/-- Two leaves or more are one level above half as many. -/
theorem treeDepth_eq_succ {leafCount : Nat} (h : 1 < leafCount) :
    treeDepth leafCount = treeDepth ((leafCount + 1) / 2 : Nat) + 1 := by
  refine eq_of_forall_ge_iff fun depth => ?_
  rw [treeDepth_le_iff]
  cases depth with
  | zero => simp only [Nat.pow_zero]; omega
  | succ depth => rw [Nat.succ_le_succ_iff, treeDepth_le_iff, Nat.pow_succ]; omega

theorem treeDepth_eq_clog (leafCount : Nat) : treeDepth leafCount = Nat.clog 2 leafCount := by
  refine eq_of_forall_ge_iff fun depth => ?_
  rw [treeDepth_le_iff, Nat.clog_le_iff_le_pow Nat.one_lt_two]

end SumTree
