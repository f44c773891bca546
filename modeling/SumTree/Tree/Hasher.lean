import SumTree.Failure
import SumTree.Hash.Sha256
import SumTree.Json.Printer
import SumTree.Tree.Node

/-!
# Hashers

A hasher turns an entry into the digest of a leaf and two nodes into the digest of their parent. The
builders of trees take it as a parameter. A hasher may refuse: the built-in ones write balances in
decimal, and decimal text is limited in length. A hasher of somebody else's may also fail in ways of its
own.

## Main Definitions

* `TreeFault` — why a digest, and so a tree, is not made.
* `Hasher` — digests of leaves and of parents.
* `Hasher.payloads` — the hasher that applies a hash function to canonical JSON payloads.
* `Hasher.sha256` — that hasher with SHA-256, the default.
* `Hasher.transparent` — the hasher whose digests spell out what was hashed.

## Design Notes

The payload of a leaf is an object and the payload of a parent is an array, so no payload is both.
-/

namespace SumTree

/-- Why a digest, and so a tree, is not made. -/
inductive TreeFault
  /-- A value is unusable. -/
  | value (fault : ValueFault)
  /-- Something outside this library fails. -/
  | outside (o : Outside)
  deriving Repr, DecidableEq, Inhabited

/-- The failure that a fault is. -/
def TreeFault.failure : TreeFault → Failure
  | value fault => .value fault
  | outside o => .outside o

/-- The digests of a tree's nodes. -/
structure Hasher where
  /-- The digest of a leaf with this name and these balances. -/
  leaf : String → List Int → Except TreeFault Digest
  /-- The digest of the parent of two nodes; their order matters. -/
  combine : Node → Node → Except TreeFault Digest

namespace Hasher

/-- The balances of a payload, each as decimal text. -/
def balanceTexts (balances : List Int) : Except ValueFault (List Json) :=
  balances.mapM fun b => (Decimal.text b).map Json.str

/-- What is hashed for a leaf. -/
def leafPayload (username : String) (balances : List Int) : Except ValueFault Json := do
  let texts ← balanceTexts balances
  return .obj [("username", .str username), ("balances", .arr texts)]

/-- What is hashed for a parent. -/
def parentPayload (left right : Node) : Except ValueFault Json := do
  let lefts ← balanceTexts left.balances
  let rights ← balanceTexts right.balances
  return .arr [.str (String.ofList (Hex.ofBytes left.hash)),
    .str (String.ofList (Hex.ofBytes right.hash)), .arr lefts, .arr rights]

/-- The bytes of a payload: its canonical form in UTF-8. -/
def payloadBytes (payload : Json) : Except ValueFault (List UInt8) :=
  match payload.canonical with
  | .ok text => .ok text.toUTF8.toList
  | .error _ => .error .tooLongToWrite

/-- The hasher that applies `hash` to canonical JSON payloads. -/
def payloads (hash : List UInt8 → Digest) : Hasher where
  leaf username balances := Except.mapError TreeFault.value do
    let bytes ← payloadBytes (← leafPayload username balances)
    return hash bytes
  combine left right := Except.mapError TreeFault.value do
    let bytes ← payloadBytes (← parentPayload left right)
    return hash bytes

/-- SHA-256 over canonical JSON payloads. -/
def sha256 : Hasher :=
  payloads Sha256.digest

/-- Digests that spell out what was hashed: a leaf's name and balances, and a parent's two children
in brackets. -/
def transparent : Hasher where
  leaf username balances := do
    let texts ← (balances.mapM Decimal.text).mapError .value
    return (username ++ ":" ++ ",".intercalate texts).toUTF8.toList
  combine left right :=
    .ok (0x28 :: (left.hash ++ 0x2b :: (right.hash ++ [0x29])))

end Hasher

end SumTree
