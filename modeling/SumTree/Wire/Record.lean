import SumTree.Json.Printer
import SumTree.Json.Reader
import SumTree.Schema.Check
import SumTree.Tree.Node
import SumTree.Wire.Hexadecimal

/-!
# Records of the wire

What travels between a run and its workers. A request is an array of entries with decimal balances;
an answer is an object with the root, the levels, the depth and a flag, where each node has a
hexadecimal digest and hexadecimal balances.

## Main Definitions

* `WireName` — a name on the wire.
* `WireEntry` — an entry of a request after its check.
* `ReceivedEntry` — an entry as a worker receives it.
* `WireEntry.check`, `WireEntry.toEntry`, `ReceivedEntry.toWire` — reading and writing entries.
* `Wire.checkNode`, `Wire.nodeJson` — reading and writing nodes.
* `Wire.checkTree`, `Wire.treeJson` — reading and writing answers.
* `Wire.readTreeChars`, `Wire.readTree` — the tree of an answer's characters and of its text.

## Design Notes

Writing checks too: a node without a digest or with a balance below zero has no wire form, because
the text that would be written is refused by the reader.

A JSON string need not be Unicode text, and neither need a name on the wire. The names of entries are
texts, so what is received is an entry only if its name is one.
-/

namespace SumTree

/-- A name on the wire. -/
inductive WireName
  | text (s : String)
  /-- A string with an unpaired surrogate among its code points. -/
  | unpaired (points : List Nat)
  deriving Repr, DecidableEq

namespace WireName

/-- The JSON string of a name. -/
def json : WireName → Json
  | text s => .str s
  | unpaired points => .unpaired points

/-- A name as messages show it. -/
def shown (name : WireName) : String :=
  (Check.textOf? name.json).getD ""

end WireName

/-- An entry of a request after its check. -/
structure WireEntry where
  username : WireName
  /-- The balances as plain decimal numerals. -/
  balances : List String
  deriving Repr, DecidableEq

/-- An entry as a worker receives it. -/
structure ReceivedEntry where
  username : WireName
  balances : List Nat
  deriving Repr, DecidableEq

/-- What is received of an entry that is sent. -/
def Entry.received (e : Entry) : ReceivedEntry :=
  ⟨.text e.username, e.balances⟩

namespace ReceivedEntry

/-- The number of balance columns. -/
def width (e : ReceivedEntry) : Nat :=
  e.balances.length

/-- The entries in front of the first whose name is no text. -/
def named : List ReceivedEntry → List Entry
  | [] => []
  | e :: rest =>
    match e.username with
    | .text s => ⟨s, e.balances⟩ :: named rest
    | .unpaired _ => []

/-- The wire form of an entry, refused when a balance is too long to be written. -/
def toWire (e : ReceivedEntry) : Except ValueFault WireEntry := do
  let texts ← (e.balances.map Int.ofNat).mapM Decimal.text
  return ⟨e.username, texts⟩

end ReceivedEntry

namespace WireEntry

/-- The rule that every balance is a plain decimal numeral, which stops at the first that is none. -/
def plainBalances (balances : List String) : Checked (List String) :=
  match balances.find? fun b => !Decimal.isPlain b with
  | some b => Checked.refuse (ValueFault.notPlain b).message
  | none => .ok balances

/-- The name of an entry: any string. -/
def checkName (v : Json) : Checked WireName :=
  match v with
  | .str s => .ok (.text s)
  | .unpaired points => .ok (.unpaired points)
  | _ => Checked.fail .stringExpected

/-- The balances of an entry. -/
def checkBalances (v : Json) : Checked (List String) := do
  plainBalances (← Check.list Check.text v)

/-- The check of one entry of a request. -/
def check : Json → Checked WireEntry :=
  Check.record fun v =>
    (Checked.both (Check.required v "username" checkName)
      (Check.required v "balances" checkBalances)).map fun p => ⟨p.1, p.2⟩

/-- The entry that is received. -/
def toEntry (e : WireEntry) : Except ValueFault ReceivedEntry :=
  (Entry.ofNumerals e.username.shown e.balances).map fun read => ⟨e.username, read.balances⟩

/-- The JSON form of an entry of a request. -/
def toJson (e : WireEntry) : Json :=
  .obj [("username", e.username.json), ("balances", .arr (e.balances.map Json.str))]

end WireEntry

namespace Wire

/-- The body of a request for some entries. -/
def encodeEntries (entries : List Entry) : Except ValueFault (List WireEntry) :=
  entries.mapM fun e => e.received.toWire

/-- The body of a request as a JSON value. -/
def requestJson (body : List WireEntry) : Json :=
  .arr (body.map WireEntry.toJson)

/-- A value refused by a rule of the record becomes an issue. -/
def byRule {α : Type} : Except ValueFault α → Checked α
  | .ok a => .ok a
  | .error fault => Checked.refuse fault.message

/-- The digest of a node. -/
def checkHash (v : Json) : Checked Digest := do
  byRule (Hexadecimal.digest (← Check.text v))

/-- The balances of a node. -/
def checkBalances (v : Json) : Checked (List Int) := do
  let texts ← Check.list Check.text v
  byRule (texts.mapM fun s => (Hexadecimal.number s).map Int.ofNat)

/-- The check of one node of an answer. -/
def checkNode : Json → Checked Node :=
  Check.record fun v =>
    (Checked.both (Check.required v "hash" checkHash)
      (Check.required v "balances" checkBalances)).map fun p => ⟨p.1, p.2⟩

/-- The check of an answer; the entries are those that were sent. -/
def checkTree (entries : List Entry) : Json → Checked MiniTree :=
  Check.record fun v =>
    (Checked.both
      (Checked.both (Check.required v "root" checkNode)
        (Check.required v "nodes" (Check.list (Check.list checkNode))))
      (Checked.both (Check.required v "depth" Check.natural)
        (Check.optional v "is_sorted" false Check.truth))).map
      fun p => ⟨p.1.1, p.1.2, p.2.1, p.2.2, entries⟩

/-- How answers are read: nested in at most two hundred containers, and Unicode text throughout. -/
def dialect : Json.Dialect :=
  ⟨200, false⟩

/-- The tree of an answer's characters, if they are text. -/
def readTreeChars (entries : List Entry) (cs : Option (List Char)) : Checked MiniTree :=
  match cs.map (Json.readChars dialect) with
  | some (.ok v) => checkTree entries v
  | _ => Checked.fail .notJson

/-- The tree of an answer's text. -/
def readTree (entries : List Entry) (text : Option String) : Checked MiniTree :=
  readTreeChars entries (text.map String.toList)

/-- The JSON form of a node. -/
def nodeJson (n : Node) : Json :=
  .obj [("hash", .str n.hashText), ("balances", .arr (n.balances.map fun b => .str (Hex.ofInt b)))]

/-- The JSON form of an answer. -/
def treeJson (t : MiniTree) : Json :=
  .obj [("root", nodeJson t.root),
    ("nodes", .arr (t.levels.map fun level => .arr (level.map nodeJson))),
    ("depth", .int t.depth), ("is_sorted", .bool t.isSorted)]

/-- The issues of a node that is to be written. -/
def writtenNode (n : Node) : Checked Json := do
  let _ ← checkNode (nodeJson n)
  return nodeJson n

/-- The answer for a tree, or the issues of the first part that has no wire form. -/
def encodeTree (t : MiniTree) : Checked Json := do
  let _ ← writtenNode t.root
  let _ ← t.levels.mapM fun level => level.mapM writtenNode
  let _ ← Checked.under (.field "depth") (Check.natural (.int t.depth))
  return treeJson t

end Wire

end SumTree
