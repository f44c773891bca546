import SumTree.Proofs.Tree.Depth
import SumTree.Proofs.Tree.Sums

/-!
# Levels

How the levels of a tree lie above each other. A level is determined by the one below it, node by
node: node j has the nodes 2j and 2j + 1 beneath it, and the last node of a level of odd size is alone
beneath its parent (`Above`, `above_of_nextLevel`). The number of levels follows from the halving of
their sizes (`tower_of_levelsFrom`). Building fails on the leaves alone, or because the hasher does;
two nodes of different widths are never combined (`fault_of_buildLevels`).

## Main Definitions

* `Hasher.Combines` — a hasher that gives every two nodes a parent.
* `Lifts`, `Above` — the level above a level, position by position.
* `Tower` — the levels over some leaves.
-/

namespace SumTree

/-- A hasher that has a digest for the parent of any two nodes. -/
def Hasher.Combines (hasher : Hasher) : Prop :=
  ∀ left right, ∃ digest, hasher.combine left right = .ok digest

/-- What `left` and the node beside it, if there is one, become in the level above: a node alone is
carried up, or combined with zero balances and as many zero bytes as its digest has. -/
def Lifts (hasher : Hasher) (policy : OddPolicy) (left : Node) (right? : Option Node)
    (parent : Node) : Prop :=
  match right?, policy with
  | some right, _ => combineNodes hasher left right = .ok parent
  | none, .carryUp => parent = left
  | none, .zeroPad =>
    combineNodes hasher left
      ⟨List.replicate left.hash.length 0, List.replicate left.width 0⟩ = .ok parent

/-- The level above a level: half as many nodes, rounded up, the one at position j made from those at
2j and 2j + 1. -/
structure Above (hasher : Hasher) (policy : OddPolicy) (lower upper : List Node) : Prop where
  length : upper.length = (lower.length + 1) / 2
  lifts : ∀ (j : Nat) (left : Node), lower[2 * j]? = some left →
    ∃ parent, upper[j]? = some parent ∧ Lifts hasher policy left lower[2 * j + 1]? parent

section

variable {hasher : Hasher} {policy : OddPolicy} {width : Nat}

/-! ### One level -/

/-- Nodes of one width are combined unless the hasher fails on them. -/
theorem fault_of_combineNodes {left right : Node} {fault : TreeFault}
    (hwidth : left.width = right.width) (h : combineNodes hasher left right = .error fault) :
    hasher.combine left right = .error fault := by
  unfold combineNodes at h
  rw [if_neg (by simpa using hwidth)] at h
  cases hdigest : hasher.combine left right with
  | error found =>
      rw [hdigest] at h
      cases h
      rfl
  | ok digest =>
      rw [hdigest] at h
      cases h

theorem width_paddingFor (n : Node) : (paddingFor n width).width = width := by
  simp [paddingFor, Node.width]

/-- The level above fails only where the hasher does, on two nodes of one width. -/
theorem fault_of_nextLevel {level : List Node} {fault : TreeFault}
    (h : nextLevel hasher policy width level = .error fault)
    (huniform : Node.Uniform width level) :
    ∃ left right, left.width = right.width ∧ hasher.combine left right = .error fault := by
  fun_induction nextLevel hasher policy width level with
  | case1 => cases h
  | case2 last => cases h
  | case3 last =>
      have hlast : last.width = width := huniform last List.mem_cons_self
      have hwidth : last.width = (paddingFor last width).width := by
        rw [hlast, width_paddingFor]
      cases hparent : combineNodes hasher last (paddingFor last width) with
      | error found =>
          rw [hparent] at h
          cases h
          exact ⟨last, paddingFor last width, hwidth, fault_of_combineNodes hwidth hparent⟩
      | ok parent =>
          rw [hparent] at h
          cases h
  | case4 left right rest ih =>
      have hleft : left.width = width := huniform left List.mem_cons_self
      have hright : right.width = width :=
        huniform right (List.mem_cons_of_mem left List.mem_cons_self)
      have hwidth : left.width = right.width := by rw [hleft, hright]
      cases hparent : combineNodes hasher left right with
      | error found =>
          rw [hparent] at h
          cases h
          exact ⟨left, right, hwidth, fault_of_combineNodes hwidth hparent⟩
      | ok parent =>
          cases hrest : nextLevel hasher policy width rest with
          | error found =>
              rw [hparent, hrest] at h
              cases h
              apply ih hrest
              intro n hn
              exact huniform n (List.mem_cons_of_mem left (List.mem_cons_of_mem right hn))
          | ok parents =>
              rw [hparent, hrest] at h
              cases h

/-- The level above, position by position. -/
theorem above_of_nextLevel {level parents : List Node}
    (h : nextLevel hasher policy width level = .ok parents)
    (huniform : Node.Uniform width level) : Above hasher policy level parents := by
  refine ⟨(nextLevel_spec h huniform).1, ?_⟩
  fun_induction nextLevel hasher policy width level generalizing parents with
  | case1 =>
      intro j left hleft
      simp at hleft
  | case2 last hpolicy =>
      cases h
      subst hpolicy
      intro j left hleft
      cases j with
      | zero =>
          cases hleft
          exact ⟨last, rfl, rfl⟩
      | succ j => simp at hleft
  | case3 last hpolicy =>
      obtain ⟨parent, hparent, rfl⟩ := exists_of_map_eq_ok h
      subst hpolicy
      intro j left hleft
      cases j with
      | zero =>
          cases hleft
          have hlast : last.width = width := huniform last List.mem_cons_self
          refine ⟨parent, rfl, ?_⟩
          show combineNodes hasher last (paddingFor last last.width) = .ok parent
          rw [hlast]
          exact hparent
      | succ j => simp at hleft
  | case4 first second rest ih =>
      obtain ⟨parent, hparent, h⟩ := exists_of_bind_eq_ok h
      obtain ⟨above, habove, h⟩ := exists_of_bind_eq_ok h
      cases h
      have hrest : Node.Uniform width rest := fun n hn =>
        huniform n (List.mem_cons_of_mem first (List.mem_cons_of_mem second hn))
      intro j left hleft
      cases j with
      | zero =>
          cases hleft
          exact ⟨parent, rfl, hparent⟩
      | succ j => exact ih habove hrest j left hleft

/-! ### All levels -/

/-- The levels over some leaves of `width` columns, each made from the one before, down to a single
node. -/
structure Tower (hasher : Hasher) (policy : OddPolicy) (width : Nat) (leaves : List Node)
    (levels : List (List Node)) : Prop where
  length : levels.length = treeDepth leaves.length + 1
  first : levels[0]? = some leaves
  next : ∀ (k : Nat) (lower upper : List Node), levels[k]? = some lower →
    levels[k + 1]? = some upper → nextLevel hasher policy width lower = .ok upper
  uniform : ∀ level ∈ levels, Node.Uniform width level
  last : ∃ root, levels.getLast? = some [root]

theorem fault_of_levelsFrom {fuel : Nat} {level : List Node} {fault : TreeFault}
    (h : levelsFrom hasher policy width fuel level = .error fault)
    (huniform : Node.Uniform width level) :
    ∃ left right, left.width = right.width ∧ hasher.combine left right = .error fault := by
  induction fuel generalizing level with
  | zero => cases h
  | succ fuel ih =>
      unfold levelsFrom at h
      split at h
      · cases h
      · cases hparents : nextLevel hasher policy width level with
        | error found =>
            rw [hparents] at h
            cases h
            exact fault_of_nextLevel hparents huniform
        | ok parents =>
            cases habove : levelsFrom hasher policy width fuel parents with
            | error found =>
                rw [hparents] at h
                simp only [Except.bind, bind, habove, Except.error.injEq] at h
                exact ih (h ▸ habove) (nextLevel_spec hparents huniform).2.1
            | ok above =>
                rw [hparents] at h
                simp [Except.bind, bind, habove, pure, Except.pure] at h

theorem tower_of_levelsFrom {fuel : Nat} {level : List Node} {levels : List (List Node)}
    (h : levelsFrom hasher policy width fuel level = .ok levels) (hne : level ≠ [])
    (hfuel : level.length ≤ fuel) (huniform : Node.Uniform width level) :
    Tower hasher policy width level levels := by
  -- A level of two nodes or more is followed by one of half its size, so the fuel lasts to the root.
  induction fuel generalizing level levels with
  | zero => exact absurd (List.length_eq_zero_iff.mp (Nat.le_zero.mp hfuel)) hne
  | succ fuel ih =>
      unfold levelsFrom at h
      have hpos := List.length_pos_iff.mpr hne
      split at h
      · rename_i hsingle
        cases h
        have hlength : level.length = 1 := by omega
        obtain ⟨root, rfl⟩ := List.length_eq_one_iff.mp hlength
        refine ⟨rfl, rfl, ?_, ?_, root, rfl⟩
        · intro k lower upper _ hupper
          simp at hupper
        · intro found hfound
          rw [List.mem_singleton.mp hfound]
          exact huniform
      · rename_i hlarge
        obtain ⟨parents, hparents, h⟩ := exists_of_bind_eq_ok h
        obtain ⟨above, habove, h⟩ := exists_of_bind_eq_ok h
        cases h
        obtain ⟨hlength, huniform', -⟩ := nextLevel_spec hparents huniform
        have hne' : parents ≠ [] := by
          rw [← List.length_pos_iff, hlength]
          omega
        have htower := ih habove hne' (by omega) huniform'
        have hone : 1 < level.length := by omega
        refine ⟨?_, rfl, ?_, ?_, ?_⟩
        · rw [List.length_cons, htower.length, hlength, treeDepth_eq_succ hone]
        · intro k lower upper hlower hupper
          cases k with
          | zero =>
              have hfirst := htower.first
              simp only [List.getElem?_cons_zero, List.getElem?_cons_succ, Option.some.injEq,
                Nat.zero_add] at hlower hupper
              rw [hfirst, Option.some.injEq] at hupper
              rw [← hlower, ← hupper]
              exact hparents
          | succ k => exact htower.next k lower upper hlower hupper
        · intro found hfound
          rcases List.mem_cons.mp hfound with rfl | hfound
          · exact huniform
          · exact htower.uniform found hfound
        · obtain ⟨root, hroot⟩ := htower.last
          refine ⟨root, ?_⟩
          rw [List.getLast?_cons, hroot]
          rfl

/-! ### Levels over leaves -/

variable {leaves : List Node}

theorem buildLevels_eq (hne : leaves ≠ []) (huniform : Node.Uniform width leaves) :
    buildLevels hasher policy leaves = levelsFrom hasher policy width leaves.length leaves := by
  cases leaves with
  | nil => exact absurd rfl hne
  | cons first rest =>
      have hfirst : first.width = width := huniform first List.mem_cons_self
      have hmisfit : firstMisfit first.width 1 (rest.map Node.width) = none := by
        apply firstMisfit_eq_none
        intro n hn
        rw [hfirst]
        exact huniform n (List.mem_cons_of_mem first hn)
      rw [buildLevels, hmisfit]
      simp only [hfirst, List.length_cons]

/-- Leaves over which there are levels are there, and of one width. -/
theorem uniform_of_buildLevels {levels : List (List Node)}
    (h : buildLevels hasher policy leaves = .ok levels) :
    leaves ≠ [] ∧ ∃ width, Node.Uniform width leaves := by
  cases leaves with
  | nil => cases h
  | cons first rest =>
      rw [buildLevels] at h
      split at h
      · cases h
      · rename_i hmisfit
        refine ⟨List.cons_ne_nil first rest, first.width, ?_⟩
        intro n hn
        rcases List.mem_cons.mp hn with rfl | hrest
        · rfl
        · exact uniform_of_firstMisfit_eq_none hmisfit n hrest

theorem tower_of_buildLevels {levels : List (List Node)}
    (h : buildLevels hasher policy leaves = .ok levels) (huniform : Node.Uniform width leaves) :
    Tower hasher policy width leaves levels := by
  have hne := (uniform_of_buildLevels h).1
  rw [buildLevels_eq hne huniform] at h
  exact tower_of_levelsFrom h hne (Nat.le_refl _) huniform

/-- A hasher that never fails has levels over all leaves of one width. -/
theorem exists_tower (hhasher : hasher.Combines) (policy : OddPolicy) (hne : leaves ≠ [])
    (huniform : Node.Uniform width leaves) :
    ∃ levels, buildLevels hasher policy leaves = .ok levels ∧
      Tower hasher policy width leaves levels := by
  cases h : buildLevels hasher policy leaves with
  | ok levels => exact ⟨levels, rfl, tower_of_buildLevels h huniform⟩
  | error fault =>
      rw [buildLevels_eq hne huniform] at h
      obtain ⟨left, right, -, hfault⟩ := fault_of_levelsFrom h huniform
      obtain ⟨digest, hdigest⟩ := hhasher left right
      rw [hdigest] at hfault
      cases hfault

theorem Tower.above {levels : List (List Node)} (h : Tower hasher policy width leaves levels)
    {k : Nat} {lower upper : List Node} (hlower : levels[k]? = some lower)
    (hupper : levels[k + 1]? = some upper) : Above hasher policy lower upper :=
  above_of_nextLevel (h.next k lower upper hlower hupper)
    (h.uniform lower (List.mem_of_getElem? hlower))

/-- What holds of the leaves and passes from a level to the one above it holds of all levels. -/
theorem Tower.forall_level {levels : List (List Node)} (h : Tower hasher policy width leaves levels)
    (P : List Node → Prop) (hfirst : P leaves)
    (hnext : ∀ lower ∈ levels.dropLast, ∀ upper, Node.Uniform width lower →
      nextLevel hasher policy width lower = .ok upper → P lower → P upper) :
    ∀ level ∈ levels, P level := by
  have hlevel : ∀ (k : Nat) (level : List Node), levels[k]? = some level → P level := by
    intro k
    induction k with
    | zero =>
        intro level hfound
        rw [h.first, Option.some.injEq] at hfound
        rw [← hfound]
        exact hfirst
    | succ k ih =>
        intro upper hupper
        obtain ⟨hk, -⟩ := List.getElem?_eq_some_iff.mp hupper
        have hlower : levels[k]? = some levels[k] := List.getElem?_eq_getElem (by omega)
        have hmem : levels[k] ∈ levels.dropLast := by
          apply @List.mem_of_getElem? _ _ k
          rw [List.getElem?_dropLast, if_pos (by omega), hlower]
        exact hnext levels[k] hmem upper (h.uniform _ (List.getElem_mem _))
          (h.next k levels[k] upper hlower hupper) (ih levels[k] hlower)
  intro level hmem
  obtain ⟨k, hk⟩ := List.getElem?_of_mem hmem
  exact hlevel k level hk

/-- The last level of a tower is its root alone. -/
theorem Tower.getLast?_eq {levels : List (List Node)} (h : Tower hasher policy width leaves levels) :
    levels.getLast? = some [rootOf levels] := by
  obtain ⟨root, hroot⟩ := h.last
  rw [rootOf, List.getLastD_eq_getLast?, hroot, Option.getD_some, List.headD_cons]

theorem Tower.rootOf_mem {levels : List (List Node)} (h : Tower hasher policy width leaves levels) :
    [rootOf levels] ∈ levels :=
  List.mem_of_getLast? h.getLast?_eq

end

theorem combines_transparent : Hasher.transparent.Combines :=
  fun _ _ => ⟨_, rfl⟩

namespace Sample

/-- Three leaves of two columns. -/
def leaves : List Node :=
  [⟨[1], [1, 2]⟩, ⟨[2], [3, 4]⟩, ⟨[3], [5, 6]⟩]

theorem uniform_leaves : Node.Uniform 2 leaves := by
  unfold Node.Uniform
  decide

end Sample

end SumTree
