import SumTree.Compose.Spec
import SumTree.Number.Basic
import SumTree.Spawner.Action

/-!
# Container engines

Spawners of containers and of services ask an engine for what they need. An engine is a record of
actions, so that a spawner can be run with any engine.

## Main Definitions

* `ContainerSpec`, `Deployment` — a container and a service that an engine is asked for.
* `Engine` — what an engine can be asked for.
* `Site` — what a spawner needs of the machine that it runs on.
* `Site.awaitAll` — waits until some workers can be reached.

## Design Notes

Workers are waited for at the same time, and a wait for one that has no endpoint ends at once while
others go on to be attempted. So the order of the workers does not tell which failure comes first, and
a site says it.
-/

namespace SumTree

/-- A container to be started, of which one port is published. -/
structure ContainerSpec where
  name : String
  image : String
  /-- The port inside the container. -/
  port : Int
  host : String
  /-- The port on the host. -/
  published : Int
  deriving Repr, DecidableEq, Inhabited

/-- A service to be created. -/
structure Deployment where
  name : String
  image : String
  replicas : Nat
  /-- The port mappings, one for each published port. -/
  ports : List PortMapping
  network? : Option String
  constraints : List String
  deriving Repr, DecidableEq, Inhabited

/-- What an engine can be asked for. Containers are known by the identifiers that the engine gives,
networks and services by their names. -/
structure Engine (σ : Type) where
  runContainer : ContainerSpec → Action σ String
  findContainer : String → Action σ Unit
  /-- Stops a container, which has some seconds to end by itself. -/
  stopContainer : String → Nat → Action σ Unit
  /-- Removes a container, running or not. -/
  removeContainer : String → Action σ Unit
  /-- Whether a network exists. -/
  hasNetwork : String → Action σ Bool
  /-- Creates a network, given its driver, that containers can join. -/
  createNetwork : String → String → Action σ Unit
  removeNetwork : String → Action σ Unit
  /-- The services whose names fit a name. -/
  findServices : String → Action σ (List String)
  createService : Deployment → Action σ Unit
  scaleService : String → Nat → Action σ Unit
  removeService : String → Action σ Unit
  /-- Fetches the present state of a service. -/
  refreshService : String → Action σ Unit
  /-- The states of the tasks of a service that should be running. -/
  tasks : String → Action σ (List (Option String))

/-- A worker that was waited for in vain. -/
structure Unreached where
  address : String
  failure : Failure

/-- What a spawner needs of the machine that it runs on. -/
structure Site (σ : Type) where
  /-- A port of a host that nobody listens on. -/
  freePort : String → Action σ Int
  /-- A mark that tells the workers of one acquisition from others. -/
  runTag : Action σ String
  /-- The content of a file, if it can be opened. -/
  content? : String → Action σ (Option (List UInt8))
  /-- What is said about a file that cannot be opened, or whose content does not parse. -/
  complaint : String → Option (List UInt8) → String
  /-- Waits until an address can be reached, given the patience and the pause between attempts. -/
  awaitReady : String → Number → Number → Action σ Unit
  /-- The worker that is given up before the others, of those that are waited for in vain. -/
  givenUpFirst (first : Unreached) (rest : List Unreached) : { u : Unreached // u ∈ first :: rest } :=
    ⟨first, List.mem_cons_self⟩

namespace Site

variable {σ : Type}

/-- Waits until a worker can be reached, if it can. -/
def reach? (site : Site σ) (timeout interval : Number) (h : Handle) :
    Action σ (Option Unreached) := do
  match ← Action.attempt (site.awaitReady h.address timeout interval) with
  | .ok () => return none
  | .error failure => return some ⟨h.address, failure⟩

/-- Waits until all workers can be reached. They are waited for at the same time; of those that cannot
be reached the one that is given up first counts. -/
def awaitAll (site : Site σ) (timeout interval : Number) (handles : List Handle) :
    Action σ Unit := do
  let results ← handles.mapM (site.reach? timeout interval)
  match results.filterMap id with
  | [] => return ()
  | first :: rest => Action.fail (site.givenUpFirst first rest).1.failure

end Site

end SumTree
