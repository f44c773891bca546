/-!
# Blank characters

White space as Unicode counts it for trimming, together with the six ASCII blanks that a numeral
written in ASCII alone may be surrounded with.

## Main Definitions

* `Blank.isBlank` — every character that trimming removes.
* `Blank.isAsciiBlank` — the blanks among the ASCII characters that surround an ASCII numeral.
* `Blank.trim` — a text without the blanks at its two ends.
-/

namespace SumTree

namespace Blank

/-- The six characters that separate words in ASCII text. -/
def isAsciiBlank (c : Char) : Bool :=
  c.toNat == 32 || (9 ≤ c.toNat && c.toNat ≤ 13)

/-- White space of any script, and the four separators that ASCII calls information separators. -/
def isBlank (c : Char) : Bool :=
  let n := c.toNat
  isAsciiBlank c || (28 ≤ n && n ≤ 31) || n == 0x85 || n == 0xa0 || n == 0x1680
    || (0x2000 ≤ n && n ≤ 0x200a) || n == 0x2028 || n == 0x2029 || n == 0x202f || n == 0x205f
    || n == 0x3000

/-- The characters left when those in `drop` are taken off both ends. -/
def strip (drop : Char → Bool) (cs : List Char) : List Char :=
  ((cs.dropWhile drop).reverse.dropWhile drop).reverse

/-- A text without the blanks at its two ends. -/
def trim (s : String) : String :=
  String.ofList (strip isBlank s.toList)

end Blank

end SumTree
