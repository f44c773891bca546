import SumTree.Failure
import SumTree.Text.Utf8
import SumTree.Tree.Build
import SumTree.Wire.Record
import SumTree.Worker.Address

/-!
# Exchanges

An exchange sends one chunk to one worker and judges what comes back. The answer is accepted only
when it could be the sum tree of the chunk: as many leaves as entries, the right depth, the root on
top, the right number of columns everywhere and the totals of the chunk in the root.

## Main Definitions

* `Exchange` — a chunk, the worker it goes to, and the time the worker gets.
* `Reply` — what can come back.
* `Reply.utf8` — an answer in UTF-8.
* `Inconsistency`, `inconsistency?` — why an answer cannot be the sum tree of the chunk.
* `Exchange.request` — what is sent.
* `Exchange.refuse` — the failure that shows an answer.
* `Exchange.judge` — the tree of a reply, or the failure of the exchange.
* `Exchange.play` — how an exchange ends when it is also watched for cancellation.

## Design Notes

Digests are not checked: a worker may hash as it likes, and may sort its leaves. A reply that is there
when the exchange wakes wins over a cancellation seen at the same time. The body of an answer is read
twice: its bytes as JSON, and the text that errors show of it by the character set of the answer. Only
an error that shows the text needs it.
-/

namespace SumTree

/-- A chunk, the worker that it goes to, and the time that the worker gets. -/
structure Exchange where
  chunk : Nat
  handle : Handle
  /-- The time for an answer, in seconds. -/
  timeout : Number
  entries : List Entry

/-- What can come back from a worker. -/
inductive Reply
  /-- An answer, its body as bytes and as the text that the character set of the answer makes of them.
  There are character sets that make none. -/
  | response (status : Int) (body : List UInt8) (text : Except Outside String)
  | timedOut
  /-- The connection fails, with the name and the text of what happened. -/
  | disconnected (name text : String)
  /-- Something else fails on the way. -/
  | broken (failure : Failure)

/-- An answer in UTF-8, or without a character set of its own. -/
def Reply.utf8 (status : Int) (body : List UInt8) : Reply :=
  .response status body (.ok (Utf8.lossy body))

/-- Why an answer cannot be the sum tree of the chunk that was sent. -/
inductive Inconsistency
  | noLevels
  | leafCount (found expected : Nat)
  /-- The last level does not consist of the root alone. -/
  | topLevel
  | width (found expected : Nat)
  | depth (found : Int) (expected : Nat)
  | totals (found expected : List Int)
  deriving Repr, DecidableEq

/-- Numbers in round brackets, as messages list them; a single one is followed by a comma. -/
def tupleText (numbers : List Int) : Except ValueFault String := do
  match ← numbers.mapM Decimal.text with
  | [text] => return "(" ++ text ++ ",)"
  | texts => return "(" ++ ", ".intercalate texts ++ ")"

/-- The text of an inconsistency, refused when it would hold a number that is too long. -/
def Inconsistency.message : Inconsistency → Except ValueFault String
  | noLevels => .ok "no levels"
  | leafCount found expected =>
    .ok (toString found ++ " leaves for " ++ toString expected ++ " entries")
  | topLevel => .ok "root is not the single node of the top level"
  | width found expected =>
    .ok ("node has " ++ toString found ++ " balance columns, expected " ++ toString expected)
  | depth found expected => do
    return "depth " ++ (← Decimal.text found) ++ ", expected " ++ toString expected
  | totals found expected => do
    return "root balances " ++ (← tupleText found) ++ " differ from entry totals "
      ++ (← tupleText expected)

/-- Why a tree cannot be the sum tree of some entries, if it cannot. -/
def inconsistency? (t : MiniTree) (entries : List Entry) : Option Inconsistency :=
  let width := (entries.head?.map Entry.width).getD 0
  if t.leaves.isEmpty then some .noLevels
  else if t.leaves.length != entries.length then
    some (.leafCount t.leaves.length entries.length)
  else if t.levels.getLastD [] != [t.root] then some .topLevel
  else
    match t.levels.flatten.find? fun n => n.width != width with
    | some n => some (.width n.width width)
    | none =>
      if t.depth != treeDepth entries.length then
        some (.depth t.depth (treeDepth entries.length))
      else if t.root.balances != Entry.totals entries then
        some (.totals t.root.balances (Entry.totals entries))
      else none

namespace Exchange

/-- The number of characters of a body that an error shows. -/
def previewLength : Nat := 500

/-- The front of a text that an error shows. -/
def preview (text : String) : String :=
  String.ofList (text.toList.take previewLength)

/-- The failure of an exchange. -/
def fail {α : Type} (x : Exchange) (fault : ExchangeFault) (reason : String) :
    Except Failure α :=
  .error (.run (.exchange ⟨fault, reason, some x.chunk, some x.handle.address⟩))

/-- The failure of an exchange whose error shows the text of the answer. -/
def refuse {α : Type} (x : Exchange) (text : Except Outside String) (fault : String → ExchangeFault)
    (reason : String) : Except Failure α :=
  match text with
  | .ok text => x.fail (fault (preview text)) reason
  | .error o => .error (.outside o)

/-- What is sent: the URL and the entries of the body. -/
def request (x : Exchange) : Except Failure (Address × List WireEntry) :=
  match Wire.encodeEntries x.entries with
  | .error fault => .error (.value fault)
  | .ok body =>
    match Address.base? x.handle.address with
    | some url => .ok (url, body)
    | none => .error (.elsewhere "InvalidURL" "")

/-- The tree of a successful response. -/
def judgeBody (x : Exchange) (body : List UInt8) (text : Except Outside String) :
    Except Failure MiniTree :=
  match Wire.readTreeChars x.entries (Utf8.decodeChars? body) with
  | .error issues =>
    x.refuse text (.malformed none)
      ("unexpected response format: " ++ toString issues.length ++ " validation error(s)")
  | .ok tree =>
    match inconsistency? tree x.entries with
    | none => .ok tree
    | some found =>
      match found.message with
      | .ok problem => x.refuse text (.malformed none) ("inconsistent mini-tree: " ++ problem)
      | .error fault => .error (.value fault)

/-- The tree of a reply, or the failure of the exchange. -/
def judge (x : Exchange) : Reply → Except Failure MiniTree
  | .response status body text =>
    if 200 ≤ status && status ≤ 299 then x.judgeBody body text
    else x.refuse text (.rejected (some status)) ("worker returned HTTP " ++ Decimal.render status)
  | .timedOut => x.fail .unreachable ("request timed out after " ++ x.timeout.render ++ "s")
  | .disconnected name text => x.fail .unreachable (name ++ ": " ++ text)
  | .broken failure => .error failure

/-- The end of an exchange that is given up. -/
def cancelled {α : Type} (x : Exchange) (reason : String) : Except Failure α :=
  x.fail .cancelled reason

/-- The failure of whatever was stopped from outside. -/
def stopped : Failure :=
  .elsewhere "CancelledError" ""

/-- What an exchange finds when it wakes. -/
structure Wake where
  /-- The reply, if there is one. -/
  reply? : Option Reply
  /-- Whether the signal to cancel is set. -/
  signalled : Bool
  /-- Whether the exchange is stopped from outside. -/
  stopped : Bool

/-- How an exchange ends whose request is under way: at the first wake that brings anything. -/
def await (x : Exchange) : List Wake → Option (Except Failure MiniTree)
  | [] => none
  | wake :: rest =>
    match wake.reply? with
    | some reply => some (x.judge reply)
    | none =>
      if wake.signalled then some (x.cancelled "in-flight request aborted")
      else if wake.stopped then some (.error stopped)
      else x.await rest

/-- The end of an exchange, and what it sent. -/
structure Played where
  outcome? : Option (Except Failure MiniTree)
  sent : List (Address × List WireEntry)

/-- How an exchange goes: nothing is sent when the signal is set before, or when there is nothing that
could be sent. -/
def play (x : Exchange) (signalledBefore : Bool) (wakes : List Wake) : Played :=
  if signalledBefore then ⟨some (x.cancelled "cancelled before the request was sent"), []⟩
  else
    match x.request with
    | .error failure => ⟨some (.error failure), []⟩
    | .ok sent => ⟨x.await wakes, [sent]⟩

end Exchange

end SumTree
