import SumTree.Run.Round

/-!
# Watching one exchange

An exchange waits for its request and for the signal to cancel at the same time, and looks at both when
it wakes. A request that has ended by then decides how the exchange ends. Otherwise the signal makes the
exchange tell its request to end; however that ends, the exchange was cancelled.

## Main Definitions

* `Watch` — an exchange, its request, and how far both are.
* `Watch.Event` — what can happen.
* `Watch.after`, `Watch.play` — the exchange after one event and after several.

## Design Notes

`Exchange.play` takes an exchange for ended as soon as it gives up its request, which is all that a run
can tell from it. Here the request goes on until it ends by itself.

The events come in any order. One that does not fit how far the exchange and its request are changes
nothing.
-/

namespace SumTree

namespace Watch

/-- How far a request is. -/
inductive Request
  /-- It has not taken its first step. -/
  | pending
  | underway
  | ended (outcome : Outcome)

/-- How far an exchange is. -/
inductive Stage
  /-- It waits for its request and for the signal. -/
  | watching
  /-- It has told its request to end, and waits for that. -/
  | aborting
  | over (outcome : Outcome)

/-- What can happen to an exchange. -/
inductive Event
  /-- The request takes its first step. -/
  | sends
  /-- The request ends, by what came back or because it was told to. -/
  | ends (reply : Reply)
  /-- The signal to cancel is set. -/
  | cancels
  /-- The exchange is stopped from outside. -/
  | stops
  /-- The exchange wakes. -/
  | wakes

end Watch

/-- An exchange that watches its request. -/
structure Watch where
  exchange : Exchange
  request : Watch.Request
  stage : Watch.Stage
  signalled : Bool
  stopped : Bool
  /-- Whether the request was told to end. -/
  aborted : Bool
  sent : List (Address × List WireEntry)

namespace Watch

/-- An exchange that begins, perhaps when the signal is set already. -/
def start (x : Exchange) (signalledBefore : Bool) : Watch where
  exchange := x
  request := .pending
  stage :=
    if signalledBefore then .over (x.cancelled "cancelled before the request was sent") else .watching
  signalled := signalledBefore
  stopped := false
  aborted := false
  sent := []

/-- How the exchange ended, if it has. -/
def outcome? (w : Watch) : Option Outcome :=
  match w.stage with
  | .over outcome => some outcome
  | _ => none

/-- How the request ended, if it has. -/
def ended? (w : Watch) : Option Outcome :=
  match w.request with
  | .ended outcome => some outcome
  | _ => none

/-- The first step of the request, which sends it unless there is nothing that could be sent. A request
that is told to end before takes none. -/
def send (w : Watch) : Watch :=
  match w.stage, w.request with
  | .watching, .pending =>
    match w.exchange.request with
    | .ok sent => { w with request := .underway, sent := w.sent ++ [sent] }
    | .error failure => { w with request := .ended (.error failure) }
  | _, _ => w

/-- The request ends; only its first end counts. -/
def finish (w : Watch) (reply : Reply) : Watch :=
  match w.request with
  | .ended _ => w
  | _ => { w with request := .ended (w.exchange.judge reply) }

/-- The exchange wakes. What it is told from outside comes first while it watches, and only ends the wait
for a request that it gave up. -/
def wake (w : Watch) : Watch :=
  match w.stage with
  | .watching =>
    if w.stopped then { w with stage := .over (.error Exchange.stopped), aborted := true }
    else
      match w.ended? with
      | some outcome => { w with stage := .over outcome }
      | none => if w.signalled then { w with stage := .aborting, aborted := true } else w
  | .aborting =>
    if w.ended?.isSome || w.stopped then
      { w with stage := .over (w.exchange.cancelled "in-flight request aborted") }
    else w
  | .over _ => w

/-- The exchange after something has happened. -/
def after (w : Watch) : Event → Watch
  | .sends => w.send
  | .ends reply => w.finish reply
  | .cancels => { w with signalled := true }
  | .stops => { w with stopped := true }
  | .wakes => w.wake

/-- The exchange to which all this happens. -/
def play (x : Exchange) (signalledBefore : Bool) (events : List Event) : Watch :=
  events.foldl after (start x signalledBefore)

end Watch

end SumTree
