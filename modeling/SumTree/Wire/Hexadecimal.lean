import SumTree.Fault

/-!
# Hexadecimal numbers of the wire

Digests and balances travel as hexadecimal digits behind the mark of base sixteen. Only digits may
follow the mark: no sign, underscores or blanks. A digest keeps its width, so leading zeros count.

## Main Definitions

* `Hexadecimal.digits?` — the digits behind the mark.
* `Hexadecimal.number` — the number of a text.
* `Hexadecimal.digest` — the bytes of a text; an odd number of digits gets a zero in front.
-/

namespace SumTree

namespace Hexadecimal

/-- The digits behind the mark, at least one. -/
def digits? (s : String) : Option (List Char) :=
  match s.toList with
  | '0' :: mark :: ds =>
    if (mark == 'x' || mark == 'X') && !ds.isEmpty && ds.all Hex.isDigit then some ds else none
  | _ => none

/-- The number of a hexadecimal text. -/
def number (s : String) : Except ValueFault Nat :=
  match digits? s with
  | some ds => .ok (Hex.toNat ds)
  | none => .error (.notHex s)

/-- The bytes of a hexadecimal text. -/
def digest (s : String) : Except ValueFault (List UInt8) :=
  match digits? s with
  | some ds =>
    let even := if ds.length % 2 == 1 then '0' :: ds else ds
    match Hex.toBytes? even with
    | some bytes => .ok bytes
    | none => .error (.notHex s)
  | none => .error (.notHex s)

end Hexadecimal

end SumTree
