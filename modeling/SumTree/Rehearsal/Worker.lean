import SumTree.Rehearsal.Script
import SumTree.Run.Schedule
import SumTree.Wire.Record

/-!
# Scripted workers

A scripted worker answers as a real one would, perhaps with edits to its answer, or sends fixed bytes,
or lets the connection fail, or never answers. It does so a number of turns after it got the request.

## Main Definitions

* `Edit` — a change to a JSON value.
* `Conduct`, `WorkerScript` — what a scripted worker does, and when.
* `WorkerScript.ofJson` — the script of a JSON value.
* `WorkerScript.reply?` — the reply to some entries, if there is one.
* `WorkerScript.course` — how an exchange with a scripted worker goes.

## Design Notes

A worker that never answers is waited for until the time for its answer is over, which is later than
anything else that happens. A stubborn one ignores a first request to end as well.
-/

namespace SumTree

/-- A step from a JSON value to a part of it. -/
inductive PathStep
  | member (name : String)
  /-- A position in a list; one below zero counts from the end. -/
  | item (index : Int)

/-- What is done to a part. -/
inductive Change
  | set (v : Json)
  | delete
  | append (v : Json)

/-- A change to the part of a JSON value to which a path leads. -/
structure Edit where
  path : List PathStep
  change : Change

namespace Edit

/-- Puts a value in the place of an object's member, or adds it as the last one. -/
def setMember (members : List (String × Json)) (name : String) (v : Json) : List (String × Json) :=
  if members.any (·.1 == name) then members.map fun m => if m.1 == name then (name, v) else m
  else members ++ [(name, v)]

/-- The position in a list of some length that an index means. -/
def position? (index : Int) (length : Nat) : Option Nat :=
  let i := if index < 0 then index + length else index
  if 0 ≤ i && i < length then some i.toNat else none

/-- A value after a change to the part to which a path leads. A path that leads nowhere changes
nothing. -/
def applyAt (change : Change) : List PathStep → Json → Json
  | [], v =>
    match change, v with
    | .set w, _ => w
    | .append w, .arr items => .arr (items ++ [w])
    | _, v => v
  | .member name :: rest, .obj members =>
    match rest, change with
    | [], .delete => .obj (members.filter (·.1 != name))
    | [], .set w => .obj (setMember members name w)
    | rest, change => .obj (members.map fun m =>
        if m.1 == name then (name, applyAt change rest m.2) else m)
  | .item index :: rest, .arr items =>
    match position? index items.length with
    | none => .arr items
    | some i =>
      match rest, change with
      | [], .delete => .arr (items.eraseIdx i)
      | rest, change => .arr (items.modify i (applyAt change rest))
  | _ :: _, v => v

/-- A value after an edit. -/
def apply (e : Edit) (v : Json) : Json :=
  applyAt e.change e.path v

/-- The step of a JSON value. -/
def stepOf? : Json → Option PathStep
  | .str name => some (.member name)
  | .num (.int index) => some (.item index)
  | _ => none

/-- The edit of a JSON value: a path alone deletes, with a value it sets, and with a mark behind the
value it appends. -/
def ofJson? : Json → Option Edit
  | .arr (.arr path :: rest) => do
    let steps ← path.mapM stepOf?
    match rest with
    | [] => return ⟨steps, .delete⟩
    | [v] => return ⟨steps, .set v⟩
    | v :: _ => return ⟨steps, .append v⟩
  | _ => none

end Edit

/-- What a scripted worker does. -/
inductive Conduct
  /-- It answers with the sum tree of what it got, edited. -/
  | answer (hasher : Hasher) (policy : Except ValueFault OddPolicy) (status : Int)
      (edits : List Edit)
  | fixed (status : Int) (body : List UInt8)
  | fail (reply : Reply)
  | silent
  | stubborn

/-- What a scripted worker does, and after how many turns. -/
structure WorkerScript where
  conduct : Conduct
  turn : Nat

namespace WorkerScript

/-- The failures of a connection. -/
def disconnections : List String :=
  ["ConnectError", "ReadError", "WriteError", "CloseError", "RemoteProtocolError",
    "LocalProtocolError", "ProxyError", "UnsupportedProtocol", "NetworkError", "ProtocolError",
    "TransportError"]

/-- The failures that say that time is over. -/
def timeouts : List String :=
  ["ReadTimeout", "ConnectTimeout", "WriteTimeout", "PoolTimeout", "TimeoutException",
    "TimeoutError"]

/-- The reply that a failure of a name with a text is. -/
def failing (name text : String) : Reply :=
  if timeouts.contains name then .timedOut
  else if disconnections.contains name then .disconnected name text
  else .broken (Script.failure name text)

/-- The bytes of a script: given by hexadecimal digits, or by a text that is repeated. -/
def bytes (v : Json) : List UInt8 :=
  match (v.get? "hex").bind Json.str? with
  | some digits => (Hex.toBytes? digits.toList).getD []
  | none =>
    let text := Script.text v "body" ""
    (String.join (List.replicate (Script.natural v "times" 1) text)).toUTF8.toList

/-- The conduct of a script. -/
def conductOf (v : Json) : Conduct :=
  let status := Script.integer v "status" 200
  match Script.text v "kind" "ok" with
  | "raw" => .fixed status (bytes v)
  | "raise" => .fail (failing (Script.text v "exc" "") (Script.text v "text" ""))
  | "hang" => .silent
  | "stubborn" => .stubborn
  | _ =>
    let edits := (((v.get? "edits").bind Json.arr?).getD []).filterMap Edit.ofJson?
    .answer (Script.hasher v) (Script.policy v) status edits

/-- The script of a JSON value. -/
def ofJson (v : Json) : WorkerScript :=
  ⟨conductOf v, Script.natural v "turn" 0⟩

/-- The body of an answer with the sum tree of some entries. -/
def body (hasher : Hasher) (policy : Except ValueFault OddPolicy) (edits : List Edit)
    (entries : List Entry) : Except Failure (List UInt8) := do
  let policy ← policy.mapError .value
  let tree ← (MiniTree.build hasher policy entries).mapError TreeFault.failure
  match Wire.encodeTree tree with
  | .ok v => return (edits.foldl (fun v e => e.apply v) v).wire.toUTF8.toList
  | .error _ => throw (.elsewhere "ValidationError" "")

/-- The reply to some entries, if there is one. -/
def reply? (s : WorkerScript) (entries : List Entry) : Option Reply :=
  match s.conduct with
  | .answer hasher policy status edits =>
    match body hasher policy edits entries with
    | .ok bytes => some (.utf8 status bytes)
    | .error failure => some (.broken failure)
  | .fixed status bytes => some (.utf8 status bytes)
  | .fail reply => some reply
  | .silent | .stubborn => none

/-- Whether the worker ignores a first request to end. -/
def isStubborn (s : WorkerScript) : Bool :=
  match s.conduct with
  | .stubborn => true
  | _ => false

/-- How an exchange with a scripted worker goes, where `horizon` is later than anything else that
happens. -/
def course (s : WorkerScript) (horizon : Nat) (x : Exchange) : Course :=
  match s.reply? x.entries with
  | some reply => ⟨some (s.turn, reply), 0⟩
  | none =>
    if s.isStubborn then ⟨none, horizon + 1⟩
    else ⟨some (horizon, .timedOut), 0⟩

end WorkerScript

end SumTree
