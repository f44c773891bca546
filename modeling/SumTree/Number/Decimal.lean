import SumTree.Text.Blank
import SumTree.Text.Digit

/-!
# Decimal numerals

Reading and writing integers as decimal text. Both directions are limited to 4300 digits, so that a
hostile numeral cannot cost quadratic time; leading zeros count, the sign does not. Hexadecimal text
knows no such limit.

## Main Definitions

* `Decimal.digits`, `Decimal.ofDigits` — the shortest digits of a number, and the number of a list
  of ASCII digits.
* `Decimal.write?` — the text of an integer, or nothing when it is too long.
* `Decimal.read` — the integer of a numeral, or why it is none.

## Design Notes

`Decimal.render` is the writer without the limit. It serves the counts and indices of messages,
which are far below it.
-/

namespace SumTree

namespace Decimal

/-- The most digits a numeral may have. -/
def maxDigits : Nat := 4300

/-- Why a text is not read as an integer. -/
inductive ReadFault
  /-- The text is no numeral. -/
  | malformed
  /-- The numeral has `count` digits, more than the limit. -/
  | tooLong (count : Nat)
  deriving Repr, DecidableEq

/-- The digits of a number before those in `tail`, with `fuel` at least the number of digits. -/
def digitsOnto (tail : List Char) : Nat → Nat → List Char
  | 0, _ => tail
  | fuel + 1, n =>
    if n < 10 then Char.ofNat (48 + n) :: tail
    else digitsOnto (Char.ofNat (48 + n % 10) :: tail) fuel (n / 10)

/-- The shortest digits of a number. -/
def digits (n : Nat) : List Char :=
  digitsOnto [] (n.log2 / 3 + 1) n

/-- The number written by a list of ASCII digits. -/
def ofDigits (cs : List Char) : Nat :=
  cs.foldl (fun n c => 10 * n + Digit.asciiValue c) 0

/-- The text of an integer, whatever its length. -/
def render (n : Int) : String :=
  String.ofList ((if n < 0 then ['-'] else []) ++ digits n.natAbs)

/-- Whether an integer is short enough to be written. -/
def fits (n : Int) : Bool :=
  n.natAbs < Nat.pow 10 maxDigits

/-- The text of an integer, or nothing when it has more digits than the limit. -/
def write? (n : Int) : Option String :=
  if fits n then some (render n) else none

/-- The digits of a numeral, single underscores between them left out. The flag says that the
character before was a digit. -/
def joinDigits : Bool → List Char → Option (List Char)
  | afterDigit, [] => if afterDigit then some [] else none
  | afterDigit, c :: cs =>
    if c == '_' then if afterDigit then joinDigits false cs else none
    else (joinDigits true cs).map (c :: ·)

/-- A sign, if there is one, and what follows it: whether the number is negative, and the rest. -/
def splitSign : List Char → Bool × List Char
  | '-' :: cs => (true, cs)
  | '+' :: cs => (false, cs)
  | cs => (false, cs)

/-- The integer of a numeral of ASCII characters: blanks around it, a sign, and digits with single
underscores between them. The number of digits is looked at before what follows them. -/
def readAscii (cs : List Char) : Except ReadFault Int :=
  let (negative, rest) := splitSign (cs.dropWhile Blank.isAsciiBlank)
  let isPart (c : Char) : Bool := Digit.isAscii c || c == '_'
  match joinDigits false (rest.takeWhile isPart) with
  | none => .error .malformed
  | some ds =>
    if ds.length > maxDigits then .error (.tooLong ds.length)
    else if ((rest.dropWhile isPart).dropWhile Blank.isAsciiBlank).isEmpty then
      .ok (if negative then -(ofDigits ds : Int) else (ofDigits ds : Int))
    else .error .malformed

/-- One character as numerals see it: blanks and decimal digits beyond ASCII become those of ASCII, and
other characters that are not ASCII become a character that no numeral has. -/
def foldChar (c : Char) : Char :=
  if c.toNat < 128 then c
  else if Blank.isBlank c then ' '
  else match Digit.value? c with
    | some d => Char.ofNat (48 + d)
    | none => '?'

/-- A text as numerals see it. The information separators of ASCII stay what they are, and separate
nothing. -/
def foldScripts (cs : List Char) : List Char :=
  cs.map foldChar

/-- The integer of a numeral in decimal digits of any script. -/
def read (s : String) : Except ReadFault Int :=
  readAscii (foldScripts s.toList)

/-- Whether a text is a non-empty sequence of ASCII digits. -/
def isPlain (s : String) : Bool :=
  !s.isEmpty && s.toList.all Digit.isAscii

end Decimal

end SumTree
