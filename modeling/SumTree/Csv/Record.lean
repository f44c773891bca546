import SumTree.Csv.Source

/-!
# Records of delimited text

A record is a row of fields with a semicolon between each two. A field may stand in double quotes and
then hold semicolons, line breaks and, doubled, double quotes; what follows the closing quote belongs
to the field. A quote inside a field that did not start with one is an ordinary character.

## Main Definitions

* `Csv.Place` — where the reader of a record stands.
* `Csv.Progress.next`, `Csv.Progress.endLine` — one character, and the end of a line.
* `Csv.Table` — the records of a source, and what stopped the reader.
* `Csv.read` — the table of a source.

## Design Notes

The end of a line ends a record unless the reader stands inside quotes. An empty line is a record
without fields. When the file ends inside quotes, what was read counts as the last field.
-/

namespace SumTree

namespace Csv

/-- Where the reader of a record stands. -/
inductive Place
  | recordStart
  | fieldStart
  | plain
  | quoted
  /-- After a quote inside quotes, which is the closing one unless another follows. -/
  | quoteInQuoted
  /-- After the end of a line. -/
  | lineEnd
  deriving Repr, DecidableEq

/-- Why a file is not read to its end. -/
inductive Fault
  /-- A field is longer than the limit. -/
  | fieldTooLong
  /-- The bytes are no text. -/
  | undecodable
  deriving Repr, DecidableEq

/-- The most characters a field may have. -/
def fieldLimit : Nat := 131072

/-- The delimiter of fields. -/
def delimiter : Char := ';'

/-- The quote that a field may stand in. -/
def quoteMark : Char := '"'

/-- A record while it is read: the field begun, with its length, and the fields before it, the latest
first. -/
structure Progress where
  place : Place
  field : List Char
  length : Nat
  fields : List String
  deriving Repr, DecidableEq

namespace Progress

/-- A record of which nothing has been read. -/
def empty : Progress :=
  ⟨.recordStart, [], 0, []⟩

/-- One more character of the field. -/
def add (p : Progress) (c : Char) (place : Place) : Except Fault Progress :=
  if p.length < fieldLimit then .ok ⟨place, c :: p.field, p.length + 1, p.fields⟩
  else .error .fieldTooLong

/-- The end of the field. -/
def save (p : Progress) (place : Place) : Progress :=
  ⟨place, [], 0, String.ofList p.field.reverse :: p.fields⟩

/-- Whether a character ends a line. -/
def isLineEnd (c : Char) : Bool :=
  c == '\n' || c == '\r'

/-- A character at the start of a field. -/
def startField (p : Progress) (c : Char) : Except Fault Progress :=
  if isLineEnd c then .ok (p.save .lineEnd)
  else if c == quoteMark then .ok { p with place := .quoted }
  else if c == delimiter then .ok (p.save .fieldStart)
  else p.add c .plain

/-- The progress after one more character. -/
def next (p : Progress) (c : Char) : Except Fault Progress :=
  match p.place with
  | .recordStart => if isLineEnd c then .ok { p with place := .lineEnd } else p.startField c
  | .fieldStart => p.startField c
  | .plain =>
    if isLineEnd c then .ok (p.save .lineEnd)
    else if c == delimiter then .ok (p.save .fieldStart)
    else p.add c .plain
  | .quoted => if c == quoteMark then .ok { p with place := .quoteInQuoted } else p.add c .quoted
  | .quoteInQuoted =>
    if c == quoteMark then p.add c .quoted
    else if c == delimiter then .ok (p.save .fieldStart)
    else if isLineEnd c then .ok (p.save .lineEnd)
    else p.add c .plain
  | .lineEnd => .ok p

/-- The progress after the last character of a line. -/
def endLine (p : Progress) : Progress :=
  match p.place with
  | .recordStart | .lineEnd => { p with place := .recordStart }
  | .fieldStart | .plain | .quoteInQuoted => p.save .recordStart
  | .quoted => p

/-- The fields of the record. -/
def record (p : Progress) : List String :=
  p.fields.reverse

end Progress

/-- The records of a source up to its end or to what stopped the reader. -/
structure Table where
  records : List (List String)
  fault? : Option Fault
  deriving Repr, DecidableEq

/-- The records of the lines that follow; `done` holds those before them, the latest first. -/
def readLines (done : List (List String)) (p : Progress) (whole : Bool) :
    List (List Char) → Table
  | [] =>
    if !whole then ⟨done.reverse, some .undecodable⟩
    else if p.place == .quoted then ⟨((p.save .recordStart).record :: done).reverse, none⟩
    else ⟨done.reverse, none⟩
  | line :: rest =>
    match line.foldlM Progress.next p with
    | .error fault => ⟨done.reverse, some fault⟩
    | .ok p =>
      let p := p.endLine
      if p.place == .recordStart then readLines (p.record :: done) .empty whole rest
      else readLines done p whole rest

/-- The table of a source. -/
def read (source : Source) : Table :=
  readLines [] .empty source.whole source.lines

end Csv

end SumTree
