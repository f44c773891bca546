import SumTree.Text.Hex
import SumTree.Text.Printable

/-!
# Quoted text

The form in which messages show a text that came from outside: in quotes, on one line, with every
character that is not printable escaped. Single quotes are used, except around a text that holds a
single quote and no double quote.

## Main Definitions

* `Quoted.mark` — the quote chosen for a text.
* `Quoted.escape` — one character as it stands between the quotes.
* `Quoted.quote` — the quoted text.
-/

namespace SumTree

namespace Quoted

/-- The quote that surrounds a text. -/
def mark (cs : List Char) : Char :=
  if cs.contains '\'' && !cs.contains '"' then '"' else '\''

/-- One character as it stands between quotes of the kind `quoteMark`. -/
def escape (quoteMark c : Char) : List Char :=
  if c == quoteMark || c == '\\' then ['\\', c]
  else if c == '\n' then ['\\', 'n']
  else if c == '\r' then ['\\', 'r']
  else if c == '\t' then ['\\', 't']
  else if Printable.isPrintable c then [c]
  else if c.toNat < 0x100 then '\\' :: 'x' :: Hex.padded 2 c.toNat
  else if c.toNat < 0x10000 then '\\' :: 'u' :: Hex.padded 4 c.toNat
  else '\\' :: 'U' :: Hex.padded 8 c.toNat

/-- A text in quotes, on one line and printable throughout. -/
def quote (s : String) : String :=
  let cs := s.toList
  let m := mark cs
  String.ofList (m :: (cs.flatMap (escape m) ++ [m]))

end Quoted

end SumTree
