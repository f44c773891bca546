import SumTree.Failure
import SumTree.Tree.Build

/-!
# Aggregation

The roots of the chunks' mini-trees become the leaves of one more tree, in the order of the chunks.
It is built by the builder of the mini-trees, so that the two layers nest.

## Main Definitions

* `Aggregator` — the hasher, the odd-node policy and the limit on balances.
* `Aggregator.build` — the tree over roots.
* `Aggregator.buildFromTrees` — the tree over the roots of mini-trees.
* `AggregateTree.miniTree`, `AggregateTree.leaf` — a mini-tree and its root by the chunk.
* `AggregateTree.locate`, `AggregateTree.entry` — an entry by its position in the whole input.
-/

namespace SumTree

/-- How roots are aggregated. -/
structure Aggregator where
  hasher : Hasher
  policy : OddPolicy
  /-- The number of bytes that every total must fit into. -/
  maxBytes? : Option Int

namespace Aggregator

/-- The first number, with its column counted from `column`, that is not below the limit. -/
def firstBeyond (limit : Int) (column : Nat) : List Int → Option (Nat × Int)
  | [] => none
  | b :: rest => if b ≥ limit then some (column, b) else firstBeyond limit (column + 1) rest

/-- The check of a root's balances against the limit. A balance that is too long to be reported is
refused as such. -/
def checkRange (a : Aggregator) (root : Node) : Except Failure Unit :=
  match a.maxBytes? with
  | none => .ok ()
  | some bytes =>
    if bytes < 0 then .error (.value .negativeLimit)
    else
      match firstBeyond (Nat.pow 256 bytes.toNat) 0 root.balances with
      | none => .ok ()
      | some (column, balance) =>
        if Decimal.fits bytes && Decimal.fits balance then
          .error (.run (.aggregation (.outOfRange column bytes balance)))
        else .error (.value .tooLongToWrite)

/-- How it fails when there are no levels over the roots: what is unusable is reported as an error of
the run, anything else is passed on. -/
def levelFailure : TreeFault → Failure
  | .value fault => .run (.aggregation (.levels fault))
  | .outside o => .outside o

/-- The tree over the roots of chunks, with the mini-trees that the roots came from, if they are
known. -/
def build (a : Aggregator) (roots : List Node) (trees : List MiniTree) :
    Except Failure AggregateTree :=
  let refuse (fault : AggregationFault) : Except Failure AggregateTree :=
    .error (.run (.aggregation fault))
  match roots with
  | [] => refuse .noRoots
  | first :: rest =>
    if !trees.isEmpty && trees.length != roots.length then
      refuse (.treeCount trees.length roots.length)
    else
      match firstMisfit first.width 1 (rest.map Node.width) with
      | some (chunk, found) => refuse (.rootWidth chunk found first.width)
      | none =>
        match buildLevels a.hasher a.policy roots with
        | .error fault => .error (levelFailure fault)
        | .ok levels =>
          match a.checkRange (rootOf levels) with
          | .error failure => .error failure
          | .ok () => .ok ⟨rootOf levels, levels, treeDepth roots.length, trees⟩

/-- The first mini-tree, with its position counted from `chunk`, whose root has another number of
columns than its entries. -/
def firstUnlike (chunk : Nat) : List MiniTree → Option AggregationFault
  | [] => none
  | t :: rest =>
    match t.entries with
    | [] => firstUnlike (chunk + 1) rest
    | e :: _ =>
      if t.root.width == e.width then firstUnlike (chunk + 1) rest
      else some (.entryWidth chunk t.root.width e.width)

/-- The tree over the roots of mini-trees. A mini-tree that carries entries must have as many columns
as they have. -/
def buildFromTrees (a : Aggregator) (trees : List MiniTree) : Except Failure AggregateTree :=
  match firstUnlike 0 trees with
  | some fault => .error (.run (.aggregation fault))
  | none => a.build (trees.map MiniTree.root) trees

end Aggregator

/-- Why a position has no entry. -/
inductive PositionFault
  /-- The position is below zero. -/
  | negative (index : Int)
  /-- There are not that many entries. -/
  | outOfRange (index : Int)
  /-- The position is too long to be reported. -/
  | tooLong
  /-- A sequence has no element at the position. -/
  | noElement
  /-- The position does not fit into 64 bits. -/
  | unaddressable
  deriving Repr, DecidableEq

/-- The text of a `PositionFault`. -/
def PositionFault.message : PositionFault → String
  | negative index => "Entry index must be non-negative, got " ++ Decimal.render index
  | outOfRange index => "Entry index " ++ Decimal.render index ++ " out of range"
  | tooLong => ValueFault.tooLongToWrite.message
  | noElement => "tuple index out of range"
  | unaddressable => "cannot fit 'int' into an index-sized integer"

/-- The element of a sequence at a position, where one below zero counts from the end. -/
def elementAt {α : Type} (items : List α) (index : Int) : Except PositionFault α :=
  if index < -0x8000000000000000 || 0x8000000000000000 ≤ index then .error .unaddressable
  else
    let i := if index < 0 then index + items.length else index
    match if i < 0 then none else items[i.toNat]? with
    | some a => .ok a
    | none => .error .noElement

namespace AggregateTree

/-- The mini-tree of a chunk. -/
def miniTree (t : AggregateTree) (chunk : Int) : Except PositionFault MiniTree :=
  elementAt t.miniTrees chunk

/-- The leaf of a chunk. -/
def leaf (t : AggregateTree) (chunk : Int) : Except PositionFault Node :=
  elementAt t.leaves chunk

/-- The mini-tree that holds entry `offset` of those from mini-tree `chunk` on, and where in it. -/
def locateFrom (chunk : Nat) (offset : Int) : List MiniTree → Option (Nat × Nat)
  | [] => none
  | t :: rest =>
    if offset < t.entries.length then some (chunk, offset.toNat)
    else locateFrom (chunk + 1) (offset - t.entries.length) rest

/-- The mini-tree that holds the entry at a position of the whole input, and where in it. -/
def locate (t : AggregateTree) (index : Int) : Except PositionFault (Nat × Nat) :=
  let report (fault : PositionFault) : Except PositionFault (Nat × Nat) :=
    .error (if Decimal.fits index then fault else .tooLong)
  if index < 0 then report (.negative index)
  else
    match locateFrom 0 index t.miniTrees with
    | some place => .ok place
    | none => report (.outOfRange index)

/-- The entry at a position of the whole input. -/
def entry (t : AggregateTree) (index : Int) : Except PositionFault Entry := do
  let (chunk, offset) ← t.locate index
  return ((t.miniTrees[chunk]?.map MiniTree.entries).getD [])[offset]?.getD default

end AggregateTree

end SumTree
