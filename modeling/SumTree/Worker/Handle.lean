/-!
# Worker handles

A handle names one running worker: where it is reached, who made it, and by which token whoever made
it takes it down again.

## Main Definitions

* `WorkerKind` — who makes workers.
* `Token` — what takes a worker down.
* `Handle` — a running worker.
-/

namespace SumTree

/-- Who makes workers. -/
inductive WorkerKind
  /-- Listeners in the running process, or workers given by their addresses. -/
  | mock
  /-- Containers of the local engine. -/
  | container
  /-- The replicas of a service of a cluster. -/
  | service
  deriving Repr, DecidableEq, Inhabited

/-- The name of a kind of worker. -/
def WorkerKind.name : WorkerKind → String
  | mock => "mock"
  | container => "local-container"
  | service => "cloud-service"

/-- What takes a worker down. Only the spawner that made the worker knows what it means. -/
inductive Token
  | number (n : Nat)
  | text (s : String)
  deriving Repr, DecidableEq, Inhabited

/-- A running worker. -/
structure Handle where
  /-- The base address that requests are sent to. -/
  address : String
  kind : WorkerKind
  token : Token
  /-- The position among the handles that were acquired together. -/
  index : Nat
  deriving Repr, DecidableEq, Inhabited

end SumTree
