/-!
# Hexadecimal text

Bytes and numbers as hexadecimal digits. Digits are written in lower case and read in either case.

## Main Definitions

* `Hex.digitChar`, `Hex.digitValue?` — a digit and its value.
* `Hex.ofBytes`, `Hex.toBytes?` — two digits to a byte.
* `Hex.ofNat`, `Hex.toNat` — the shortest digits of a number and the number of a list of digits.
* `Hex.padded` — a number's digits, filled up with zeros on the left.
-/

namespace SumTree

namespace Hex

/-- The digit of a value below sixteen, in lower case. -/
def digitChar (value : Nat) : Char :=
  if value < 10 then Char.ofNat (48 + value) else Char.ofNat (87 + value)

/-- The value of a hexadecimal digit of either case. -/
def digitValue? (c : Char) : Option Nat :=
  let n := c.toNat
  if 48 ≤ n && n ≤ 57 then some (n - 48)
  else if 97 ≤ n && n ≤ 102 then some (n - 87)
  else if 65 ≤ n && n ≤ 70 then some (n - 55)
  else none

/-- A hexadecimal digit of either case. -/
def isDigit (c : Char) : Bool :=
  (digitValue? c).isSome

/-- The two digits of a byte. -/
def ofByte (b : UInt8) : List Char :=
  [digitChar (b.toNat / 16), digitChar (b.toNat % 16)]

/-- The digits of a sequence of bytes, two for each. -/
def ofBytes (bytes : List UInt8) : List Char :=
  bytes.flatMap ofByte

/-- The bytes of a sequence of digits, or nothing when a digit is odd one out or is none. -/
def toBytes? : List Char → Option (List UInt8)
  | [] => some []
  | [_] => none
  | high :: low :: rest => do
    let h ← digitValue? high
    let l ← digitValue? low
    let bytes ← toBytes? rest
    return UInt8.ofNat (16 * h + l) :: bytes

/-- The digits of a number before those in `tail`, with `fuel` at least the number of digits. -/
def digitsOnto (tail : List Char) : Nat → Nat → List Char
  | 0, _ => tail
  | fuel + 1, n =>
    if n < 16 then digitChar n :: tail
    else digitsOnto (digitChar (n % 16) :: tail) fuel (n / 16)

/-- The shortest digits of a number. -/
def ofNat (n : Nat) : List Char :=
  digitsOnto [] (n.log2 / 4 + 1) n

/-- The number written by a list of digits; a character that is no digit counts as zero. -/
def toNat (digits : List Char) : Nat :=
  digits.foldl (fun n c => 16 * n + (digitValue? c).getD 0) 0

/-- A number's digits, filled up with zeros to at least `width`. -/
def padded (width n : Nat) : List Char :=
  let digits := ofNat n
  List.replicate (width - digits.length) '0' ++ digits

/-- An integer as digits after the mark of base sixteen, the sign first. -/
def ofInt (n : Int) : String :=
  String.ofList ((if n < 0 then ['-'] else []) ++ '0' :: 'x' :: ofNat n.natAbs)

end Hex

end SumTree
