import SumTree.Yaml.Cursor

/-!
# Texts of scalars

The text of a scalar is plain, in quotes, or a block of lines. Line breaks inside a plain or quoted
text are folded: a single one becomes a space, of several the first is dropped. A literal block keeps
its line breaks, a folded one folds those between lines that are not indented.

## Main Definitions

* `Text.plain` — a plain text.
* `Text.singleQuoted`, `Text.doubleQuoted` — a text in quotes, after its opening quote.
* `Text.block` — a block, after its mark.
-/

namespace SumTree

namespace Yaml

/-- A reader of a text: what it reads and the position behind. -/
abbrev TextReader := Cursor → Except Fault (List Char × Cursor)

namespace Text

/-- The line break that a character stands for: line feeds for the common ones. -/
def breakOf (c : Char) : Char :=
  if c.toNat == 0x2028 || c.toNat == 0x2029 then c else '\n'

/-- The line breaks between spaces, and the position behind. A document mark ends them. -/
def breaks : Nat → List Char → Cursor → List Char × Cursor
  | 0, done, c => (done.reverse, c)
  | fuel + 1, done, c =>
    match c.peek? with
    | some ch =>
      if ch == ' ' then breaks fuel done c.next
      else if isBreak ch then
        let after := c.next
        if after.atDocumentMark then ((breakOf ch :: done).reverse, after)
        else breaks fuel (breakOf ch :: done) after
      else (done.reverse, c)
    | none => (done.reverse, c)

/-- A line break, which has been read, folded with those that follow it. -/
def fold (first : Char) (more : List Char) : List Char :=
  if first != '\n' then first :: more else if more.isEmpty then [' '] else more

/-- What stands between two parts of a plain text, and the position behind. Nothing stands before a
document mark. -/
def plainGap (c : Cursor) : List Char × Cursor :=
  let spaces := c.rest.takeWhile (· == ' ')
  let c := c.advance spaces.length
  match c.peek? with
  | some ch =>
    if isBreak ch then
      let after := c.next
      if after.atDocumentMark then ([], after)
      else
        let (more, behind) := breaks (after.rest.length + 1) [] after
        if behind.atDocumentMark then ([], behind) else (fold (breakOf ch) more, behind)
    else (spaces, c)
  | none => (spaces, c)

/-- The part of a plain text up to a gap or a mark. -/
def plainPart (inFlow : Bool) : List Char → List Char
  | [] => []
  | ch :: rest =>
    let isMark := isGap ch
      || (ch == ':' && (gapFollows rest
        || (inFlow && (rest.head?.map fun r => ",[]\x7b\x7d".contains r).getD false)))
      || (inFlow && ",?[]\x7b\x7d".contains ch)
    if isMark then [] else ch :: plainPart inFlow rest

/-- The rest of a plain text whose further lines stand at column `indent` or beyond. -/
def plainFrom (inFlow : Bool) (indent : Nat) :
    Nat → List Char → List Char → Cursor → List Char × Cursor
  | 0, done, _, c => (done, c)
  | fuel + 1, done, gap, c =>
    if c.at? '#' then (done, c)
    else
      let part := plainPart inFlow c.rest
      if part.isEmpty then (done, c)
      else
        let done := done ++ gap ++ part
        let (gap, behind) := plainGap (c.advance part.length)
        if gap.isEmpty || behind.at? '#' || (!inFlow && behind.column < indent) then (done, behind)
        else plainFrom inFlow indent fuel done gap behind

/-- A plain text. -/
def plain (inFlow : Bool) (indent : Nat) (c : Cursor) : List Char × Cursor :=
  plainFrom inFlow indent (c.rest.length + 1) [] [] c

/-- The line breaks inside a quoted text, without the blanks between them. -/
def quotedBreaks : Nat → List Char → TextReader
  | 0, done, c => .ok (done.reverse, c)
  | fuel + 1, done, c =>
    if c.atDocumentMark then .error .malformed
    else
      let c := c.skipWhile fun ch => ch == ' ' || ch == '\t'
      match c.peek? with
      | some ch =>
        if isBreak ch then quotedBreaks fuel (breakOf ch :: done) c.next else .ok (done.reverse, c)
      | none => .ok (done.reverse, c)

/-- The blanks and line breaks inside a quoted text, folded. -/
def quotedGap : TextReader := fun c =>
  let blanks := c.rest.takeWhile fun ch => ch == ' ' || ch == '\t'
  let c := c.advance blanks.length
  match c.peek? with
  | none => .error .malformed
  | some ch =>
    if isBreak ch then
      (quotedBreaks (c.rest.length + 1) [] c.next).map fun p => (fold (breakOf ch) p.1, p.2)
    else .ok (blanks, c)

/-- A text in single quotes, after the opening one. -/
def singleQuoted : Nat → List Char → TextReader
  | 0, _, _ => .error .malformed
  | fuel + 1, done, c =>
    match c.rest with
    | [] => .error .malformed
    | '\'' :: '\'' :: _ => singleQuoted fuel (done ++ ['\'']) (c.advance 2)
    | '\'' :: _ => .ok (done, c.next)
    | ch :: _ =>
      if isGap ch then
        match quotedGap c with
        | .ok (gap, c) => singleQuoted fuel (done ++ gap) c
        | .error fault => .error fault
      else
        let part := c.rest.takeWhile fun ch => !isGap ch && ch != '\''
        singleQuoted fuel (done ++ part) (c.advance part.length)

/-- The characters of the escapes of one letter. -/
def escapes : List (Char × Nat) :=
  [('0', 0), ('a', 7), ('b', 8), ('t', 9), ('\t', 9), ('n', 10), ('v', 11), ('f', 12), ('r', 13),
   ('e', 0x1b), (' ', 0x20), ('"', 0x22), ('\\', 0x5c), ('/', 0x2f), ('N', 0x85), ('_', 0xa0),
   ('L', 0x2028), ('P', 0x2029)]

/-- The numbers of digits of the escapes by code points. -/
def escapeLengths : List (Char × Nat) :=
  [('x', 2), ('u', 4), ('U', 8)]

/-- An escape, after its backslash. -/
def escape : TextReader := fun c =>
  match c.rest with
  | [] => .error .malformed
  | ch :: rest =>
    match escapes.lookup ch with
    | some point => .ok ([Char.ofNat point], c.next)
    | none =>
      match escapeLengths.lookup ch with
      | some length =>
        let digits := rest.take length
        if digits.length == length && digits.all Hex.isDigit then
          let point := Hex.toNat digits
          if point < 0x110000 then .ok ([Char.ofNat point], c.advance (length + 1))
          else .error (.unusable (.value (.other "chr() arg not in range(0x110000)")))
        else .error .malformed
      | none =>
        if isBreak ch then quotedBreaks (rest.length + 1) [] c.next else .error .malformed

/-- A text in double quotes, after the opening one. -/
def doubleQuoted : Nat → List Char → TextReader
  | 0, _, _ => .error .malformed
  | fuel + 1, done, c =>
    match c.rest with
    | [] => .error .malformed
    | '"' :: _ => .ok (done, c.next)
    | '\\' :: _ =>
      match escape c.next with
      | .ok (part, c) => doubleQuoted fuel (done ++ part) c
      | .error fault => .error fault
    | ch :: _ =>
      if isGap ch then
        match quotedGap c with
        | .ok (gap, c) => doubleQuoted fuel (done ++ gap) c
        | .error fault => .error fault
      else
        let part := c.rest.takeWhile fun ch => !isGap ch && ch != '"' && ch != '\\'
        doubleQuoted fuel (done ++ part) (c.advance part.length)

/-- What the line breaks at the end of a block become. -/
inductive Chomping
  | strip
  | clip
  | keep
  deriving DecidableEq

/-- The header of a block, after its mark: what becomes of the last line breaks, and the indentation
if it is given. -/
def blockHeader (c : Cursor) : Except Fault (Chomping × Option Nat × Cursor) :=
  let chomping? (ch : Char) : Option Chomping :=
    if ch == '+' then some .keep else if ch == '-' then some .strip else none
  let digit? (ch : Char) : Except Fault (Option Nat) :=
    if Digit.isAscii ch then
      if ch == '0' then .error .malformed else .ok (some (Digit.asciiValue ch))
    else .ok none
  let finish (chomping : Chomping) (indent? : Option Nat) (c : Cursor) :
      Except Fault (Chomping × Option Nat × Cursor) :=
    let c := c.skipWhile (· == ' ')
    let c := if c.at? '#' then c.skipWhile fun ch => !isBreak ch else c
    match c.peek? with
    | none => .ok (chomping, indent?, c)
    | some ch => if isBreak ch then .ok (chomping, indent?, c.next) else .error .malformed
  match c.peek? with
  | none => finish .clip none c
  | some ch =>
    match chomping? ch with
    | some chomping =>
      match c.next.peek? with
      | some d => do
        match ← digit? d with
        | some n => finish chomping (some n) (c.advance 2)
        | none => finish chomping none c.next
      | none => finish chomping none c.next
    | none => do
      match ← digit? ch with
      | some n =>
        match c.next.peek?.bind chomping? with
        | some chomping => finish chomping (some n) (c.advance 2)
        | none => finish .clip (some n) c.next
      | none => finish .clip none c

/-- The line breaks before the first line of a block, and the widest indentation among the lines up to
it. -/
def blockIndent : Nat → List Char → Nat → Cursor → List Char × Nat × Cursor
  | 0, done, widest, c => (done.reverse, widest, c)
  | fuel + 1, done, widest, c =>
    match c.peek? with
    | some ch =>
      if ch == ' ' then blockIndent fuel done (max widest (c.column + 1)) c.next
      else if isBreak ch then blockIndent fuel (breakOf ch :: done) widest c.next
      else (done.reverse, widest, c)
    | none => (done.reverse, widest, c)

/-- The line breaks before a line of a block whose lines start at column `indent`. -/
def blockBreaks (indent : Nat) : Nat → List Char → Cursor → List Char × Cursor
  | 0, done, c => (done.reverse, c)
  | fuel + 1, done, c =>
    match c.peek? with
    | some ch =>
      if ch == ' ' && c.column < indent then blockBreaks indent fuel done c.next
      else if isBreak ch then blockBreaks indent fuel (breakOf ch :: done) c.next
      else (done.reverse, c)
    | none => (done.reverse, c)

/-- The lines of a block from a position on: the text, the last line break, and the line breaks
behind it. -/
def blockLines (folded : Bool) (indent : Nat) :
    Nat → List Char → List Char → Cursor → List Char × List Char × List Char × Cursor
  | 0, done, gap, c => (done, [], gap, c)
  | fuel + 1, done, gap, c =>
    let isText (ch? : Option Char) : Bool :=
      match ch? with
      | some ch => ch != ' ' && ch != '\t'
      | none => true
    let startsWithText := isText c.peek?
    let line := c.rest.takeWhile fun ch => !isBreak ch
    let done := done ++ gap ++ line
    let c := c.advance line.length
    let lineBreak := (c.peek?.map breakOf).toList
    let c := c.next
    let (more, c) := blockBreaks indent (c.rest.length + 1) [] c
    if c.column == indent && !c.atEnd then
      let joined :=
        if folded && lineBreak == ['\n'] && startsWithText && isText c.peek? then
          if more.isEmpty then [' '] else []
        else lineBreak
      blockLines folded indent fuel (done ++ joined) more c
    else (done, lineBreak, more, c)

/-- A block, after its mark, inside a collection at column `parent`. -/
def block (folded : Bool) (parent : Int) (c : Cursor) : Except Fault (List Char × Cursor) := do
  let (chomping, indent?, c) ← blockHeader c
  let least := (max (parent + 1) 1).toNat
  let (gap, indent, c) := match indent? with
    | some n =>
      let indent := least + n - 1
      let (gap, c) := blockBreaks indent (c.rest.length + 1) [] c
      (gap, indent, c)
    | none =>
      let (gap, widest, c) := blockIndent (c.rest.length + 1) [] 0 c
      (gap, max least widest, c)
  let (text, lineBreak, more, c) :=
    if c.column == indent && !c.atEnd then
      blockLines folded indent (c.rest.length + 1) [] gap c
    else ([], [], gap, c)
  let ending := match chomping with
    | .strip => []
    | .clip => lineBreak
    | .keep => lineBreak ++ more
  return (text ++ ending, c)

end Text

end Yaml

end SumTree
