import SumTree.Yaml.Scalar

/-!
# Positions in a text

A reader of YAML looks at the column of what it reads, so it moves a cursor through the text that
knows its line and its column.

## Main Definitions

* `Cursor` — a position in a text.
* `Cursor.next`, `Cursor.advance` — the position after one character, after several.
* `Cursor.toToken` — the position of the next token.
* `Cursor.atDocumentMark` — whether a document starts or ends at a position.

## Design Notes

Only spaces separate tokens: a tab cannot start one. A comment runs to the end of its line.
-/

namespace SumTree

namespace Yaml

/-- A position in a text. -/
structure Cursor where
  rest : List Char
  line : Nat
  column : Nat
  deriving Inhabited

/-- Whether a character ends a line. -/
def isBreak (c : Char) : Bool :=
  c == '\n' || c.toNat == 0x85 || c.toNat == 0x2028 || c.toNat == 0x2029

/-- Whether a token can end in front of a character. -/
def isGap (c : Char) : Bool :=
  c == ' ' || c == '\t' || isBreak c

/-- Whether a text is at its end or goes on with a gap. -/
def gapFollows : List Char → Bool
  | [] => true
  | c :: _ => isGap c

namespace Cursor

/-- The start of a text. -/
def start (cs : List Char) : Cursor :=
  ⟨cs, 0, 0⟩

/-- The position after one character. -/
def next (c : Cursor) : Cursor :=
  match c.rest with
  | [] => c
  | ch :: rest => if isBreak ch then ⟨rest, c.line + 1, 0⟩ else ⟨rest, c.line, c.column + 1⟩

/-- The position after `n` characters. -/
def advance (c : Cursor) : Nat → Cursor
  | 0 => c
  | n + 1 => c.next.advance n

/-- The character at a position. -/
def peek? (c : Cursor) : Option Char :=
  c.rest.head?

/-- Whether a character stands at a position. -/
def at? (c : Cursor) (ch : Char) : Bool :=
  c.peek? == some ch

/-- Whether a character stands at a position and a token can end after it. -/
def atMark (c : Cursor) (ch : Char) : Bool :=
  c.at? ch && gapFollows (c.rest.drop 1)

/-- Whether the text ends at a position. -/
def atEnd (c : Cursor) : Bool :=
  c.rest.isEmpty

/-- Whether a document starts or ends at a position. -/
def atDocumentMark (c : Cursor) : Bool :=
  c.column == 0
    && (['-', '-', '-'].isPrefixOf c.rest || ['.', '.', '.'].isPrefixOf c.rest)
    && gapFollows (c.rest.drop 3)

/-- The position after the characters that satisfy `p`. -/
def skipWhile (p : Char → Bool) (c : Cursor) : Cursor :=
  c.advance (c.rest.takeWhile p).length

/-- The position of the next token, with `fuel` at least the number of characters left. -/
def skipGaps : Nat → Cursor → Cursor
  | 0, c => c
  | fuel + 1, c =>
    match c.rest with
    | ch :: _ =>
      if ch == ' ' || isBreak ch then skipGaps fuel c.next
      else if ch == '#' then skipGaps fuel (c.skipWhile fun ch => !isBreak ch)
      else c
    | [] => c

/-- The position of the next token. -/
def toToken (c : Cursor) : Cursor :=
  skipGaps (c.rest.length + 1) c

end Cursor

end Yaml

end SumTree
