import SumTree.Run.Orchestrator
import SumTree.Run.Schedule
import SumTree.Spawner.Listeners

/-!
# Runs inside one process

A run whose workers are listeners of the same process needs no network: an exchange gets what its
listener answers. Every listener is sent one request in a run, so its first one.

## Main Definitions

* `InProcess.reply` — what an exchange gets from its listener.
* `InProcess.schedule` — the schedule of some exchanges, given when each listener answers.
* `InProcess.circumstances` — what such a run meets with.

## Design Notes

A listener that hangs is waited for until the time for its answer is over. One whose worker fails
answers with status 500 and no body.
-/

namespace SumTree

namespace InProcess

/-- The worker behind every listener. -/
def worker (c : MockConfig) (hasher : Hasher) : Worker :=
  ⟨hasher, c.policy⟩

/-- The request of an exchange as its listener receives it. -/
def received (body : List WireEntry) : Request :=
  ⟨"POST", "/", "application/json", (Wire.requestJson body).wire.toUTF8.toList⟩

/-- The bytes of a response. -/
def bytes (r : Response) : List UInt8 :=
  match r.body? with
  | some body => body.wire.toUTF8.toList
  | none => []

/-- What an exchange gets from its listener for a request. -/
def reply (c : MockConfig) (hasher : Hasher) (x : Exchange) (body : List WireEntry) : Reply :=
  let listener : Listener := ⟨c.failures.lookup (x.handle.index : Int), 0⟩
  let answer := Listeners.receive (worker c hasher) x.handle.token (received body)
  match (answer.perform ⟨⟨0, [(x.handle.token, listener)], []⟩, []⟩).1 with
  | .ok (some response) => .utf8 response.status (bytes response)
  | .ok none => .timedOut
  | .error _ => .utf8 500 []

/-- How an exchange goes whose listener answers at a moment. -/
def course (c : MockConfig) (hasher : Hasher) (moment : Nat) (x : Exchange) : Course :=
  match x.request with
  | .error _ => ⟨none, 0⟩
  | .ok (_, body) => ⟨some (moment, reply c hasher x body), 0⟩

/-- The schedule of some exchanges, where `moment` gives the moments at which the listeners of chunks
answer. -/
def schedule (c : MockConfig) (hasher : Hasher) (moment : Nat → Nat) (xs : List Exchange) : Schedule :=
  ⟨xs.map fun x => course c hasher (moment x.chunk) x, none, none⟩

/-- The authority of a listener; the process reaches it whatever its port. -/
def listen (host : String) : Action Listening String :=
  return host ++ ":0"

/-- What a run inside one process meets with. -/
def circumstances (c : MockConfig) (hasher : Hasher) (moment : Nat → Nat) :
    Circumstances (Ledger Listening) :=
  .amid (Listeners.provider c listen).spawning false (.ok ())
    fun xs => (schedule c hasher moment xs).happenings

end InProcess

end SumTree
