import SumTree.Run.Orchestrator
import SumTree.Rehearsal.Script
import SumTree.Spawner.Listeners
import SumTree.Spawner.Readiness

/-!
# A closed loopback

A machine on which listeners can be started but nobody can connect to them. What differs from machine
to machine, the numbers of ports, is shown by a word.

## Main Definitions

* `Loopback.listen` — opens a host.
* `Loopback.proceedings` — what becomes of exchanges when nobody can connect.
* `Loopback.circumstances` — a run with listeners.
-/

namespace SumTree

namespace Loopback

/-- The host that no listener can use. -/
def foreignHost : String := "192.0.2.1"

/-- The word that stands for the number of a port. -/
def port : String := "PORT"

/-- Opens a host. -/
def listen {σ : Type} (host : String) : Action σ String :=
  if host == foreignHost then Action.fail (.system "OSError" "cannot assign requested address")
  else return (host ++ ":" ++ port)

/-- The name of the failure to connect. -/
def refusal : String := "ConnectError"

/-- What a worker's exchange gets. -/
def reply : Reply :=
  .disconnected refusal "All connection attempts failed"

/-- How an exchange ends: the request cannot be written, or else not be sent. -/
def outcome (x : Exchange) : Outcome :=
  match Wire.encodeEntries x.entries with
  | .error fault => .error (.value fault)
  | .ok _ => x.judge reply

/-- What becomes of exchanges when nobody can connect: all of them fail in one round. -/
def proceedings (xs : List Exchange) : Proceedings :=
  (Proceedings.mk (xs.map fun x => ⟨x, .ended (outcome x), []⟩) false []).after
    (.collects false false [])

/-- What a run with listeners meets with. -/
def circumstances (c : MockConfig) : Circumstances (Ledger Listening) :=
  ⟨(Listeners.provider c listen).spawning, false, .ok (), proceedings⟩

/-- A run with listeners. -/
def run (mock : MockConfig) (config : RunConfig) (entries : List Entry) (executors : Int) :
    Report (Ledger Listening) :=
  Orchestrator.idle.run (circumstances mock) config entries executors ⟨[], Listeners.start⟩

/-- An attempt to connect. -/
def probe {σ : Type} (_ : String) (_ : Int) (_ : Number) : Action σ Unit :=
  Action.fail (.system "ConnectionRefusedError" "connection refused")

end Loopback

end SumTree
