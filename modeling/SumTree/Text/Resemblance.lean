/-!
# Resemblance of words

How much two words resemble each other: the share of their characters that lie in common blocks. The
longest block counts first, then the longest ones on either side of it, and so on.

## Main Definitions

* `Resemblance.matched` — the number of characters in common blocks.
* `Resemblance.isClose` — whether two words resemble each other enough.
* `Resemblance.closest` — the candidates that resemble a word most.
-/

namespace SumTree

namespace Resemblance

/-- The length of the common front of two words. -/
def commonFront : List Char → List Char → Nat
  | a :: as, b :: bs => if a == b then commonFront as bs + 1 else 0
  | _, _ => 0

/-- A common block: where it starts in either word, and its length. -/
structure Block where
  left : Nat
  right : Nat
  length : Nat

/-- The longest common block; of several the one that starts first in the first word, then in the
second. -/
def longest (as bs : List Char) : Block :=
  (List.range as.length).foldl (fun best i =>
    (List.range bs.length).foldl (fun best j =>
      let length := commonFront (as.drop i) (bs.drop j)
      if length > best.length then ⟨i, j, length⟩ else best) best) ⟨0, 0, 0⟩

/-- The number of characters in common blocks, with `fuel` at least the length of the first word. -/
def matchedFrom : Nat → List Char → List Char → Nat
  | 0, _, _ => 0
  | fuel + 1, as, bs =>
    let b := longest as bs
    if b.length == 0 then 0
    else
      b.length + matchedFrom fuel (as.take b.left) (bs.take b.right)
        + matchedFrom fuel (as.drop (b.left + b.length)) (bs.drop (b.right + b.length))

/-- The number of characters in common blocks of two words. -/
def matched (a b : String) : Nat :=
  matchedFrom (a.length + 1) a.toList b.toList

/-- Whether the characters in common blocks are at least six in ten. -/
def isClose (a b : String) : Bool :=
  20 * matched a b ≥ 6 * (a.length + b.length)

/-- Whether the first of two candidates resembles a word at least as much as the second; of equals the
later in the alphabet comes first. -/
def precedes (word a b : String) : Bool :=
  let left := matched a word * (b.length + word.length)
  let right := matched b word * (a.length + word.length)
  right < left || (left == right && b ≤ a)

/-- The candidates that resemble a word most, three of them at most. -/
def closest (word : String) (candidates : List String) : List String :=
  ((candidates.filter fun c => isClose c word).mergeSort (precedes word)).take 3

end Resemblance

end SumTree
