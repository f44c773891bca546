import SumTree.Entry

/-!
# Nodes of a sum tree

A node holds a digest and, for each balance column, the sum of what is beneath it. Trees that come
from outside may claim anything, so the sums are integers and the digest has any length.

## Main Definitions

* `Digest` — the bytes of a digest.
* `Node` — a digest with the sums beneath it.
* `MiniTree` — the sum tree of one chunk of entries.
* `AggregateTree` — the tree whose leaves are the roots of mini-trees.
-/

namespace SumTree

/-- The bytes of a digest. -/
abbrev Digest := List UInt8

/-- A node of a sum tree. -/
structure Node where
  /-- The digest of what is beneath the node. -/
  hash : Digest
  /-- The sums beneath the node, one for each balance column. -/
  balances : List Int
  deriving Repr, DecidableEq, Inhabited

namespace Node

/-- The number of balance columns. -/
def width (n : Node) : Nat :=
  n.balances.length

/-- The digest as hexadecimal text with its mark. -/
def hashText (n : Node) : String :=
  String.ofList ('0' :: 'x' :: Hex.ofBytes n.hash)

end Node

/-- The sum tree of one chunk of entries, from its leaves in the first level to its root in the
last, with the chunk itself. A tree received from a worker is a claim, not yet a fact. -/
structure MiniTree where
  root : Node
  levels : List (List Node)
  depth : Int
  isSorted : Bool
  entries : List Entry
  deriving Repr, DecidableEq, Inhabited

namespace MiniTree

/-- The first level. -/
def leaves (t : MiniTree) : List Node :=
  t.levels.headD []

end MiniTree

/-- The tree over the roots of mini-trees, with the mini-trees in chunk order. -/
structure AggregateTree where
  root : Node
  levels : List (List Node)
  depth : Nat
  miniTrees : List MiniTree
  deriving Repr, DecidableEq, Inhabited

namespace AggregateTree

/-- The first level, which holds the roots of the mini-trees. -/
def leaves (t : AggregateTree) : List Node :=
  t.levels.headD []

end AggregateTree

end SumTree
