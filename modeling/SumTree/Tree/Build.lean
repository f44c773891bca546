import SumTree.Tree.Hasher

/-!
# Building sum trees

A tree is built level by level: each level pairs the nodes of the one below, and every parent holds
the column-wise sums of its children. The last node of a level of odd size has no partner; the
odd-node policy says whether it moves up as it is or is paired with a node of zero balances.

## Main Definitions

* `OddPolicy` — what becomes of a node without a partner.
* `treeDepth` — the number of levels above the leaves.
* `combineNodes` — the parent of two nodes.
* `nextLevel` — the level above a level.
* `buildLevels` — all levels over some leaves.
* `MiniTree.build` — the sum tree of a chunk of entries.

## Design Notes

`buildLevels` checks the widths of the leaves first, so that combining never meets two widths. The
levels above a level of size n are counted by `n`, which at least halves and so bounds them.
-/

namespace SumTree

/-- What becomes of the last node of a level of odd size. -/
inductive OddPolicy
  /-- The node moves to the next level unchanged. -/
  | carryUp
  /-- The node is paired with a node of zero balances and a digest of as many zero bytes. -/
  | zeroPad
  deriving Repr, DecidableEq, Inhabited

namespace OddPolicy

/-- The name of a policy. -/
def name : OddPolicy → String
  | carryUp => "carry_up"
  | zeroPad => "zero_pad"

/-- The policies in the order in which they are listed. -/
def all : List OddPolicy :=
  [carryUp, zeroPad]

/-- The policy of a name. -/
def ofName? (s : String) : Option OddPolicy :=
  all.find? (·.name == s)

/-- The policy of a name, refused when there is none. -/
def ofName (s : String) : Except ValueFault OddPolicy :=
  match ofName? s with
  | some p => .ok p
  | none => .error (.policyName s)

@[simp] theorem ofName?_name (p : OddPolicy) : ofName? p.name = some p := by
  cases p <;> decide

end OddPolicy

/-- The number of levels above `leafCount` leaves: the least d with leafCount ≤ 2^d. -/
def treeDepth (leafCount : Int) : Nat :=
  if leafCount ≤ 1 then 0 else (leafCount - 1).toNat.log2 + 1

/-- A single leaf, or none, is its own tree. -/
theorem treeDepth_of_le_one {leafCount : Int} (h : leafCount ≤ 1) : treeDepth leafCount = 0 :=
  if_pos h

/-- The parent of two nodes. -/
def combineNodes (hasher : Hasher) (left right : Node) : Except TreeFault Node :=
  if left.width != right.width then .error (.value (.pairWidth left.width right.width))
  else do
    let hash ← hasher.combine left right
    return ⟨hash, List.zipWith (· + ·) left.balances right.balances⟩

/-- The partner that a node without one is given under `OddPolicy.zeroPad`. -/
def paddingFor (n : Node) (width : Nat) : Node :=
  ⟨List.replicate n.hash.length 0, List.replicate width 0⟩

/-- The level above a level whose nodes have `width` columns. -/
def nextLevel (hasher : Hasher) (policy : OddPolicy) (width : Nat) :
    List Node → Except TreeFault (List Node)
  | [] => .ok []
  | [last] =>
    match policy with
    | .carryUp => .ok [last]
    | .zeroPad => (combineNodes hasher last (paddingFor last width)).map ([·])
  | left :: right :: rest => do
    let parent ← combineNodes hasher left right
    let parents ← nextLevel hasher policy width rest
    return parent :: parents

@[simp] theorem nextLevel_nil (hasher : Hasher) (policy : OddPolicy) (width : Nat) :
    nextLevel hasher policy width [] = .ok [] := rfl

/-- A node that is carried up stays as it is. -/
@[simp] theorem nextLevel_singleton_carryUp (hasher : Hasher) (width : Nat) (last : Node) :
    nextLevel hasher .carryUp width [last] = .ok [last] := rfl

/-- A level and all those above it, with `fuel` at least the size of the level. -/
def levelsFrom (hasher : Hasher) (policy : OddPolicy) (width : Nat) :
    Nat → List Node → Except TreeFault (List (List Node))
  | 0, level => .ok [level]
  | fuel + 1, level =>
    if level.length ≤ 1 then .ok [level]
    else do
      let parents ← nextLevel hasher policy width level
      let above ← levelsFrom hasher policy width fuel parents
      return level :: above

/-- The first row of another length than `width`, with its position counted from `position`. -/
def firstMisfit (width : Nat) (position : Nat) : List Nat → Option (Nat × Nat)
  | [] => none
  | found :: rest =>
    if found == width then firstMisfit width (position + 1) rest else some (position, found)

/-- All levels over some leaves, from the leaves to the level of the root alone. -/
def buildLevels (hasher : Hasher) (policy : OddPolicy) :
    List Node → Except TreeFault (List (List Node))
  | [] => .error (.value .noLeaves)
  | first :: rest =>
    match firstMisfit first.width 1 (rest.map Node.width) with
    | some (position, found) => .error (.value (.leafWidth position found first.width))
    | none => levelsFrom hasher policy first.width (rest.length + 1) (first :: rest)

/-- The leaf of an entry. -/
def leafOf (hasher : Hasher) (e : Entry) : Except TreeFault Node := do
  let hash ← hasher.leaf e.username e.amounts
  return ⟨hash, e.amounts⟩

/-- The leaves of some entries, in their order. -/
def leavesOf (hasher : Hasher) (entries : List Entry) : Except TreeFault (List Node) :=
  entries.mapM (leafOf hasher)

/-- The root of some levels: the only node of the last one. -/
def rootOf (levels : List (List Node)) : Node :=
  (levels.getLastD []).headD default

namespace MiniTree

/-- The sum tree of a chunk of entries. -/
def build (hasher : Hasher) (policy : OddPolicy) (entries : List Entry) :
    Except TreeFault MiniTree := do
  let leaves ← leavesOf hasher entries
  let levels ← buildLevels hasher policy leaves
  return ⟨rootOf levels, levels, treeDepth entries.length, false, entries⟩

end MiniTree

end SumTree
