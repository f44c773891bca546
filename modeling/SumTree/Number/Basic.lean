import SumTree.Number.Float

/-!
# Numbers of a document

A number that came with a document is an integer of any size or a double, and keeps which of the two
it was: `1` and `1.0` are written back differently.

## Main Definitions

* `Number` — an integer or a double.
* `Number.render` — the text in which messages and documents show it.
-/

namespace SumTree

/-- A number as a document gave it. -/
inductive Number
  /-- An integer of any size. -/
  | int (n : Int)
  /-- A double, infinities and no number included. -/
  | real (x : Float)
  deriving Inhabited

namespace Number

/-- The double that a number is or is rounded to. -/
def toFloat : Number → Float
  | int n => if n < 0 then -Real64.ofDecimal n.natAbs 0 else Real64.ofDecimal n.natAbs 0
  | real x => x

/-- The text of a number: an integer has no point, a double always shows that it is one. -/
def render : Number → String
  | int n => Decimal.render n
  | real x => Real64.render x

end Number

end SumTree
