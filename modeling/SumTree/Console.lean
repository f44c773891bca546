import SumTree.Run.Orchestrator

/-!
# Console output

What the command line shows. Texts go through the console's markup, where a word in square brackets is
a tag; a text is escaped first, which leaves nearly all of it as it is.

## Main Definitions

* `Console.asShown` — a text as it comes out of the console.
* `Console.error`, `Console.warning` — the lines of an error and of a warning.
* `Console.result` — the lines of a result.

## Design Notes

Escaping protects tags together with the backslashes in front of them. Outside of tags a backslash in
front of a bracket is lost, and a single one at the end is doubled.
-/

namespace SumTree

namespace Console

/-- Whether a tag can begin with a character. -/
def startsTag (c : Char) : Bool :=
  ('a' ≤ c && c ≤ 'z') || c == '#' || c == '/' || c == '@'

/-- The inside of a tag, after its bracket, with the closing one. -/
def tag? : List Char → Option (List Char)
  | [] => none
  | c :: rest =>
    let inside := rest.takeWhile fun c => c != '[' && c != ']'
    if startsTag c && (rest.drop inside.length).head? == some ']' then
      some (c :: (inside ++ [']']))
    else none

/-- A text without the backslashes that the markup takes away, with `fuel` at least the number of
characters. -/
def unescape : Nat → List Char → List Char
  | 0, cs => cs
  | fuel + 1, cs =>
    let slashes := cs.takeWhile (· == '\\')
    match cs.drop slashes.length with
    | [] => slashes
    | '[' :: rest =>
      match tag? rest with
      | some inside => slashes ++ '[' :: (inside ++ unescape fuel (rest.drop inside.length))
      | none => slashes.drop 1 ++ '[' :: unescape fuel rest
    | c :: rest => slashes ++ c :: unescape fuel rest

/-- Whether the console drops a character. -/
def isControl (c : Char) : Bool :=
  [7, 8, 11, 12, 13].contains c.toNat

/-- A text as it comes out of the console, in lines. -/
def asShown (s : String) : String :=
  let cs := s.toList
  let shown := unescape (cs.length + 1) cs
  let ending :=
    if cs.reverse.take 1 == ['\\'] && cs.reverse.take 2 != ['\\', '\\'] then ['\\'] else []
  String.ofList ((shown ++ ending).filter fun c => !isControl c)

/-- A line whose tabs are filled up to the next multiple of eight columns. -/
def expandTabs (line : List Char) : List Char :=
  (line.foldl (fun (done : List Char × Nat) c =>
    if c == '\t' then
      let width := 8 - done.2 % 8
      (List.replicate width ' ' ++ done.1, done.2 + width)
    else (c :: done.1, done.2 + 1)) ([], 0)).1.reverse

/-- A line without the blanks at its end. -/
def dropBlanks (line : List Char) : List Char :=
  (line.reverse.dropWhile (· == ' ')).reverse

/-- The lines of a text behind a heading. -/
def lines (heading text : String) : List String :=
  ((heading ++ " " ++ asShown text).splitOn "\n").map fun line =>
    String.ofList (dropBlanks (expandTabs line.toList))

/-- The lines of an error. -/
def error (text : String) : List String :=
  lines "Error:" text

/-- The lines of a warning. -/
def warning (text : String) : List String :=
  lines "Warning:" text

/-- The lines of a table of two columns. -/
def table (rows : List (String × String)) : List String :=
  let width := (rows.map fun r => r.1.length).foldl max 0
  rows.map fun r => r.1 ++ String.ofList (List.replicate (width + 2 - r.1.length) ' ') ++ r.2

/-- The rows of the table of a result, refused when a balance is too long to be written. -/
def rows (r : RunResult) : Except ValueFault (List (String × String)) := do
  let balances ← r.tree.root.balances.mapM Decimal.text
  let count := (r.tree.miniTrees.map fun t => t.entries.length).foldl (· + ·) 0
  return ("Root hash", r.tree.root.hashText)
    :: ((List.range balances.length).map fun i => "Balance " ++ toString i).zip balances
    ++ [("Depth", toString r.tree.depth), ("Chunks", toString r.chunkCount),
      ("Entries", toString count)]

/-- The lines of a result. -/
def result (r : RunResult) : Except ValueFault (List String) := do
  let shown := table (← rows r)
  match r.cleanup? with
  | some e => return shown ++ warning e.message
  | none => return shown

end Console

end SumTree
