import SumTree.Csv.Record
import SumTree.Entry
import SumTree.Failure

/-!
# Entries of tables

A table of entries has a header and a row for each entry: a name, and balances as plain decimal
numerals with commas between them. Blanks around a name, around the balances and around each numeral
do not count.

## Main Definitions

* `Row`, `Row.cell` — the cells of a row by the names of their columns.
* `Entry.ofRow`, `Entry.ofRows` — the entry of a row, the entries of rows.
* `Entry.load` — the entries of the bytes of a file.

## Design Notes

A faulty row is reported with the name of its source and its line, where the header is line 1 and
empty rows of a file are not counted. What stops the reader of a file is reported only when all rows
before it are good.
-/

namespace SumTree

/-- The cells of a row by the names of their columns; a cell may be missing. -/
abbrev Row := List (String × Option String)

/-- The cell of a column, empty when it is missing; the last one where the name is repeated. -/
def Row.cell (row : Row) (name : String) : String :=
  match row.reverse.find? (·.1 == name) with
  | some (_, some text) => text
  | _ => ""

namespace Entry

/-- The columns of a table of entries. -/
def columns : List String :=
  ["username", "balances"]

/-- The entry of the row on line `line`. -/
def ofRow (source : String) (line : Nat) (row : Row) : Except Failure Entry :=
  let username := Blank.trim (row.cell "username")
  let raw := Blank.trim (row.cell "balances")
  if username.isEmpty || raw.isEmpty then
    .error (.run (.entries (.missingCell source line)))
  else
    let parts := (raw.splitOn ",").map Blank.trim
    if !parts.all Decimal.isPlain then
      .error (.run (.entries (.badBalances source line raw)))
    else (ofNumerals username parts).mapError .value

/-- The entries of rows of which the first is on line `line`, the first faulty row reported; `done`
holds the entries before them, the latest first. -/
def ofRowsFrom (source : String) (line : Nat) (done : List Entry) :
    List Row → Except Failure (List Entry)
  | [] => .ok done.reverse
  | row :: rest =>
    match ofRow source line row with
    | .ok e => ofRowsFrom source (line + 1) (e :: done) rest
    | .error failure => .error failure

/-- The entries of the rows below a header. -/
def ofRows (source : String) (rows : List Row) : Except Failure (List Entry) :=
  ofRowsFrom source 2 [] rows

/-- A record below a header as a row: cells that the record lacks are missing, those without a column
are left out. -/
def toRow (header : List String) (record : List String) : Row :=
  header.zip (record.map some ++ List.replicate (header.length - record.length) none)

/-- The failure by which the fault of a file is reported. -/
def faultOf : Csv.Fault → Failure
  | .fieldTooLong => .elsewhere "Error" "field larger than field limit (131072)"
  | .undecodable => .elsewhere "UnicodeDecodeError" ""

/-- The entries of a table that was read from `source`. -/
def ofTable (source : String) (table : Csv.Table) : Except Failure (List Entry) :=
  let (header, records) := match table.records with
    | header :: records => (header, records)
    | [] => ([], [])
  match table.records, table.fault? with
  | [], some fault => .error (faultOf fault)
  | _, _ =>
    let missing := columns.filter fun name => !header.contains name
    if !missing.isEmpty then .error (.run (.entries (.missingColumns source missing)))
    else do
      let rows := (records.filter fun r => !r.isEmpty).map (toRow header)
      let entries ← ofRows source rows
      match table.fault? with
      | some fault => throw (faultOf fault)
      | none => return entries

/-- The entries of the bytes of the file `source`. -/
def load (source : String) (bytes : List UInt8) : Except Failure (List Entry) :=
  ofTable source (Csv.read (Csv.Source.ofBytes bytes))

end Entry

end SumTree
