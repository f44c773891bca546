import SumTree.Text.Utf8

/-!
# The lines of a text file

A file is decoded block by block while its lines are handed out, so what is wrong with the encoding
of a later block shows only after the lines of the earlier ones.

## Main Definitions

* `Csv.Source` — the lines of a file as far as they can be had, and whether that is all of it.
* `Csv.splitLines` — the lines of a text, each with its end.
* `Csv.Source.ofBytes` — the lines of the bytes of a file.

## Design Notes

A line ends with a line feed, a carriage return or both. A carriage return at the end of a block
could be half of such a pair, so its line is handed out only when the next block has been decoded.
A sequence that stops at the end of the file is noticed there, after all complete lines.
-/

namespace SumTree

namespace Csv

/-- The number of bytes that are decoded at a time. -/
def blockSize : Nat := 8192

/-- The lines of a file in their order, each with its end. -/
structure Source where
  lines : List (List Char)
  /-- Whether the lines are all there is; otherwise the file holds a fault behind them. -/
  whole : Bool
  deriving Repr, DecidableEq

/-- The lines of a text, each with its end, before the line begun in `line` (the latest character
first); `done` holds the lines before it, the latest first. -/
def splitLinesOnto (done : List (List Char)) (line : List Char) : List Char → List (List Char)
  | [] => (if line.isEmpty then done else line.reverse :: done).reverse
  | '\r' :: '\n' :: rest => splitLinesOnto (('\n' :: '\r' :: line).reverse :: done) [] rest
  | c :: rest =>
    if c == '\n' || c == '\r' then splitLinesOnto ((c :: line).reverse :: done) [] rest
    else splitLinesOnto done (c :: line) rest

/-- The lines of a text, each with its end; the last one may have none. -/
def splitLines (cs : List Char) : List (List Char) :=
  splitLinesOnto [] [] cs

/-- Whether a line has its end. -/
def isComplete (line : List Char) : Bool :=
  match line.getLast? with
  | some c => c == '\n' || c == '\r'
  | none => false

/-- The characters of the blocks before the first one with a fault, the latest first, and whether
there is none with a fault. -/
def decodeBlocks (done : List Char) (place : Utf8.Place) : Nat → List UInt8 → List Char × Bool
  | 0, _ => (done, true)
  | _ + 1, [] =>
    match place with
    | .between => (done, true)
    | .inside .. => (done, false)
  | fuel + 1, bytes =>
    let progress := (bytes.take blockSize).foldl Utf8.Progress.next ⟨[], place⟩
    if progress.done.any Option.isNone then (done, false)
    else
      decodeBlocks (progress.done.filterMap id ++ done) progress.place fuel
        (bytes.drop blockSize)

/-- The lines of the bytes of a file. -/
def Source.ofBytes (bytes : List UInt8) : Source :=
  let (latestFirst, whole) := decodeBlocks [] .between (bytes.length / blockSize + 2) bytes
  if whole then ⟨splitLines latestFirst.reverse, true⟩
  else
    let held := match latestFirst with
      | '\r' :: rest => rest
      | chars => chars
    ⟨(splitLines held.reverse).filter isComplete, false⟩

end Csv

end SumTree
