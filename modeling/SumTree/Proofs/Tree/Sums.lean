import Mathlib
import SumTree.Proofs.Except
import SumTree.Tree.Build

/-!
# Sums of columns

The sums of the columns do not depend on how rows are grouped (`columnSums_flatten`), and so not on
how a tree pairs its nodes: a level has the column sums of the level below (`nextLevel_spec`), and
the root those of the leaves.

## Main Definitions

* `Node.Uniform` — nodes of one number of columns.
* `Node.sums` — the sums of the columns of some nodes.
-/

namespace SumTree

/-! ### Rows -/

/-- Columns of one length are added up in any grouping. -/
theorem zipWith_add_assoc (a b c : List Int) :
    List.zipWith (· + ·) (List.zipWith (· + ·) a b) c =
      List.zipWith (· + ·) a (List.zipWith (· + ·) b c) := by
  induction a generalizing b c with
  | nil => rfl
  | cons x a ih =>
      cases b with
      | nil => simp
      | cons y b =>
          cases c with
          | nil => simp
          | cons z c => simp [ih, Int.add_assoc]

/-- A row of zeros of the same length changes nothing. -/
theorem zipWith_add_zeros (row : List Int) :
    List.zipWith (· + ·) row (List.replicate row.length 0) = row := by
  induction row with
  | nil => rfl
  | cons x row ih => simp [List.replicate_succ, ih]

@[simp] theorem columnSums_singleton (row : List Int) : columnSums [row] = row := rfl

theorem columnSums_cons {rows : List (List Int)} (h : rows ≠ []) (row : List Int) :
    columnSums (row :: rows) = List.zipWith (· + ·) row (columnSums rows) := by
  cases rows with
  | nil => exact absurd rfl h
  | cons first rest => rfl

theorem columnSums_append {front back : List (List Int)} (hfront : front ≠ []) (hback : back ≠ []) :
    columnSums (front ++ back) =
      List.zipWith (· + ·) (columnSums front) (columnSums back) := by
  induction front with
  | nil => exact absurd rfl hfront
  | cons row rest ih =>
      by_cases hrest : rest = []
      · subst hrest
        rw [List.cons_append, List.nil_append, columnSums_cons hback, columnSums_singleton]
      · rw [List.cons_append, columnSums_cons (by simp [hback]), ih hrest, columnSums_cons hrest,
          zipWith_add_assoc]

/-- The sums of the sums of groups are the sums of all rows. -/
theorem columnSums_flatten {groups : List (List (List Int))} (h : ∀ g ∈ groups, g ≠ []) :
    columnSums groups.flatten = columnSums (groups.map columnSums) := by
  induction groups with
  | nil => rfl
  | cons g rest ih =>
      have hg := h g List.mem_cons_self
      have hrest : ∀ g' ∈ rest, g' ≠ [] := fun g' hg' => h g' (List.mem_cons_of_mem g hg')
      by_cases hnil : rest = []
      · simp [hnil]
      · have hflat : rest.flatten ≠ [] := by
          obtain ⟨g', hg'⟩ := List.exists_mem_of_ne_nil rest hnil
          intro hempty
          exact hrest g' hg' (List.flatten_eq_nil_iff.mp hempty g' hg')
        rw [List.flatten_cons, columnSums_append hg hflat, ih hrest, List.map_cons,
          columnSums_cons (by simpa using hnil)]

/-- Each column holds the sum of what the rows have there. -/
theorem columnSums_eq_map {rows : List (List Int)} {width : Nat} (hne : rows ≠ [])
    (h : ∀ row ∈ rows, row.length = width) :
    columnSums rows =
      (List.range width).map fun column => (rows.map fun row => row.getD column 0).sum := by
  induction rows with
  | nil => exact absurd rfl hne
  | cons row rest ih =>
      have hrow := h row List.mem_cons_self
      have hself : row = (List.range width).map fun column => row.getD column 0 := by
        refine List.ext_getElem (by simp [hrow]) fun i hi _ => ?_
        simp [hi]
      by_cases hrest : rest = []
      · simp only [hrest, columnSums_singleton, List.map_cons, List.map_nil, List.sum_singleton]
        exact hself
      · rw [columnSums_cons hrest, ih hrest fun r hr => h r (List.mem_cons_of_mem row hr)]
        conv_lhs => rw [hself]
        rw [List.zipWith_map, List.zipWith_self]
        simp only [List.map_cons, List.sum_cons]

/-! ### Levels -/

/-- Nodes of one number of columns. -/
def Node.Uniform (width : Nat) (nodes : List Node) : Prop :=
  ∀ n ∈ nodes, n.width = width

/-- The sums of the columns of some nodes. -/
def Node.sums (nodes : List Node) : List Int :=
  columnSums (nodes.map Node.balances)

theorem balances_combineNodes {hasher : Hasher} {left right parent : Node}
    (h : combineNodes hasher left right = .ok parent) :
    left.width = right.width ∧
      parent.balances = List.zipWith (· + ·) left.balances right.balances := by
  rw [combineNodes] at h
  split at h
  · cases h
  · rename_i hwidth
    obtain ⟨hash, -, hparent⟩ := exists_of_bind_eq_ok h
    cases hparent
    exact ⟨by simpa using hwidth, rfl⟩

theorem width_combineNodes {hasher : Hasher} {left right parent : Node}
    (h : combineNodes hasher left right = .ok parent) : parent.width = left.width := by
  obtain ⟨hwidth, hbalances⟩ := balances_combineNodes h
  rw [Node.width, hbalances, List.length_zipWith]
  exact Nat.min_eq_left (Nat.le_of_eq hwidth)

theorem sums_cons {nodes : List Node} (h : nodes ≠ []) (n : Node) :
    Node.sums (n :: nodes) = List.zipWith (· + ·) n.balances (Node.sums nodes) :=
  columnSums_cons (by simpa using h) n.balances

@[simp] theorem sums_singleton (n : Node) : Node.sums [n] = n.balances := rfl

theorem nonneg_of_combineNodes {hasher : Hasher} {left right parent : Node}
    (h : combineNodes hasher left right = .ok parent) (hleft : ∀ b ∈ left.balances, 0 ≤ b)
    (hright : ∀ b ∈ right.balances, 0 ≤ b) : ∀ b ∈ parent.balances, 0 ≤ b := by
  rw [(balances_combineNodes h).2]
  intro b hb
  obtain ⟨i, hi, rfl⟩ := List.mem_iff_getElem.mp hb
  rw [List.getElem_zipWith]
  exact Int.add_nonneg (hleft _ (List.getElem_mem _)) (hright _ (List.getElem_mem _))

/-- A property of the nodes of a level is one of the level above, if a combination of two nodes has it
as soon as both have a weaker one, which padding has. -/
theorem forall_of_nextLevel {hasher : Hasher} {policy : OddPolicy} {width : Nat}
    {level parents : List Node} {P Q : Node → Prop} (hweak : ∀ n, P n → Q n)
    (hpadding : ∀ n, Q (paddingFor n width))
    (hcombine : ∀ left right parent, combineNodes hasher left right = .ok parent →
      Q left → Q right → P parent)
    (h : nextLevel hasher policy width level = .ok parents) (hlevel : ∀ n ∈ level, P n) :
    ∀ n ∈ parents, P n := by
  fun_induction nextLevel hasher policy width level generalizing parents with
  | case1 =>
      cases h
      exact hlevel
  | case2 last =>
      cases h
      exact hlevel
  | case3 last =>
      obtain ⟨parent, hparent, rfl⟩ := exists_of_map_eq_ok h
      intro n hn
      rw [List.mem_singleton.mp hn]
      exact hcombine _ _ _ hparent (hweak _ (hlevel last List.mem_cons_self)) (hpadding last)
  | case4 left right rest ih =>
      obtain ⟨parent, hparent, h⟩ := exists_of_bind_eq_ok h
      obtain ⟨above, habove, h⟩ := exists_of_bind_eq_ok h
      cases h
      have hright := hlevel right (List.mem_cons_of_mem left List.mem_cons_self)
      have hrest := ih habove fun n hn =>
        hlevel n (List.mem_cons_of_mem left (List.mem_cons_of_mem right hn))
      intro n hn
      rcases List.mem_cons.mp hn with rfl | hn
      · exact hcombine _ _ _ hparent (hweak _ (hlevel left List.mem_cons_self)) (hweak _ hright)
      · exact hrest n hn

/-- The level above a level: as many nodes as pairs, an odd one counting as a pair, of the same number
of columns, with the same sums. -/
theorem nextLevel_spec {hasher : Hasher} {policy : OddPolicy} {width : Nat} {level parents : List Node}
    (h : nextLevel hasher policy width level = .ok parents) (huniform : Node.Uniform width level) :
    parents.length = (level.length + 1) / 2 ∧ Node.Uniform width parents ∧
      Node.sums parents = Node.sums level := by
  -- The cases are those of the pairing: no node, an odd one promoted or padded, and a pair.
  fun_induction nextLevel hasher policy width level generalizing parents with
  | case1 =>
      cases h
      exact ⟨rfl, huniform, rfl⟩
  | case2 last =>
      cases h
      exact ⟨by simp, huniform, rfl⟩
  | case3 last =>
      obtain ⟨parent, hparent, rfl⟩ := exists_of_map_eq_ok h
      have hlast : last.balances.length = width := huniform last List.mem_cons_self
      refine ⟨by simp, fun n hn => ?_, ?_⟩
      · rw [List.mem_singleton.mp hn, width_combineNodes hparent]
        exact hlast
      · rw [sums_singleton, sums_singleton, (balances_combineNodes hparent).2, paddingFor,
          ← hlast, zipWith_add_zeros]
  | case4 left right rest ih =>
      obtain ⟨parent, hparent, h⟩ := exists_of_bind_eq_ok h
      obtain ⟨above, habove, h⟩ := exists_of_bind_eq_ok h
      cases h
      have hleft : left.width = width := huniform left List.mem_cons_self
      have hbalances := (balances_combineNodes hparent).2
      obtain ⟨hlength, hparents, hsums⟩ := ih habove fun n hn =>
        huniform n (List.mem_cons_of_mem left (List.mem_cons_of_mem right hn))
      refine ⟨by simp only [List.length_cons, hlength]; omega, fun n hn => ?_, ?_⟩
      · rcases List.mem_cons.mp hn with rfl | hn
        · rw [width_combineNodes hparent, hleft]
        · exact hparents n hn
      -- The sum of no rows is no row at all, so the last pair of a level is a case of its own.
      · by_cases hnil : rest = []
        · subst hnil
          have hempty : above = [] := by simpa using hlength
          rw [hempty, sums_singleton, sums_cons (List.cons_ne_nil right []), hbalances,
            sums_singleton]
        · have hne : above ≠ [] := by
            have hpos := List.length_pos_iff.mpr hnil
            rw [← List.length_pos_iff, hlength]
            omega
          rw [sums_cons hne, sums_cons (List.cons_ne_nil right rest), sums_cons hnil, hsums,
            hbalances, zipWith_add_assoc]

/-- All levels over a level: the level itself comes first, and the last one is a single node with its
sums. -/
theorem levelsFrom_spec {hasher : Hasher} {policy : OddPolicy} {width fuel : Nat}
    {level : List Node} {levels : List (List Node)}
    (h : levelsFrom hasher policy width fuel level = .ok levels) (hne : level ≠ [])
    (hfuel : level.length ≤ fuel) (huniform : Node.Uniform width level) :
    levels.head? = some level ∧ ∃ root, levels.getLast? = some [root] ∧
      root.balances = Node.sums level := by
  -- A level of two nodes or more is followed by a shorter one, so the fuel lasts to the root.
  induction fuel generalizing level levels with
  | zero => exact absurd (List.length_eq_zero_iff.mp (Nat.le_zero.mp hfuel)) hne
  | succ fuel ih =>
      rw [levelsFrom] at h
      have hpos := List.length_pos_iff.mpr hne
      split at h
      · rename_i hsingle
        cases h
        have hlength : level.length = 1 := by omega
        obtain ⟨root, rfl⟩ := List.length_eq_one_iff.mp hlength
        exact ⟨rfl, root, rfl, rfl⟩
      · obtain ⟨parents, hparents, h⟩ := exists_of_bind_eq_ok h
        obtain ⟨above, habove, h⟩ := exists_of_bind_eq_ok h
        cases h
        obtain ⟨hlength, huniform', hsums⟩ := nextLevel_spec hparents huniform
        have hne' : parents ≠ [] := by
          rw [← List.length_pos_iff, hlength]
          omega
        obtain ⟨-, root, hlast, hroot⟩ := ih habove hne' (by omega) huniform'
        refine ⟨rfl, root, ?_, hroot.trans hsums⟩
        rw [List.getLast?_cons, hlast]
        rfl

/-- No row is found of another length exactly when all are of the one that is expected. -/
theorem firstMisfit_eq_none_iff {width position : Nat} {rows : List Nat} :
    firstMisfit width position rows = none ↔ ∀ found ∈ rows, found = width := by
  induction rows generalizing position with
  | nil => simp [firstMisfit]
  | cons found rest ih =>
      rw [firstMisfit, List.forall_mem_cons]
      split
      · rename_i hfound
        rw [ih]
        exact ⟨fun h => ⟨beq_iff_eq.mp hfound, h⟩, And.right⟩
      · rename_i hfound
        exact iff_of_false (Option.some_ne_none _) fun h => hfound (beq_iff_eq.mpr h.1)

theorem uniform_of_firstMisfit_eq_none {width position : Nat} {nodes : List Node}
    (h : firstMisfit width position (nodes.map Node.width) = none) : Node.Uniform width nodes :=
  List.forall_mem_map.mp (firstMisfit_eq_none_iff.mp h)

theorem firstMisfit_eq_none {width position : Nat} {nodes : List Node}
    (h : Node.Uniform width nodes) : firstMisfit width position (nodes.map Node.width) = none :=
  firstMisfit_eq_none_iff.mpr (List.forall_mem_map.mpr h)

/-- All levels over leaves: the leaves come first, and the last level is the root alone, which holds
the sums of the leaves. -/
theorem buildLevels_spec {hasher : Hasher} {policy : OddPolicy} {leaves : List Node}
    {levels : List (List Node)} (h : buildLevels hasher policy leaves = .ok levels) :
    levels.headD [] = leaves ∧ levels.getLastD [] = [rootOf levels] ∧
      (rootOf levels).balances = Node.sums leaves := by
  cases leaves with
  | nil => cases h
  | cons first rest =>
      rw [buildLevels] at h
      split at h
      · cases h
      · rename_i hmisfit
        have huniform : Node.Uniform first.width (first :: rest) := by
          intro n hn
          rcases List.mem_cons.mp hn with rfl | hrest
          · rfl
          · exact uniform_of_firstMisfit_eq_none hmisfit n hrest
        obtain ⟨hhead, root, hlast, hroot⟩ :=
          levelsFrom_spec h (List.cons_ne_nil first rest) (Nat.le_refl _) huniform
        have hlastD : levels.getLastD [] = [root] := by
          rw [List.getLastD_eq_getLast?, hlast, Option.getD_some]
        have hrootOf : rootOf levels = root := by
          rw [rootOf, hlastD, List.headD_cons]
        rw [hrootOf, hlastD, List.headD_eq_head?_getD, hhead, Option.getD_some]
        exact ⟨rfl, rfl, hroot⟩

end SumTree
