import SumTree.Compose.File
import SumTree.Config
import SumTree.Spawner.Engine
import SumTree.Spawner.Ledger
import SumTree.Spawner.Readiness

/-!
# Workers of a service

The workers are the replicas of a service that a cluster runs on prepared nodes; each node gives one
worker. Without a service the nodes are used as they are.

## Main Definitions

* `Hosted` — what a spawner holds of the cluster.
* `Service.provider` — the provider of such workers.

## Design Notes

A service that exists already is scaled, and scaled to zero when the last worker is released; one
that was created is then removed, and so is a network that was created for it. The same is done
after a failure, as far as things had got. Only failures of the engine are kept from getting out of
such a retreat.
-/

namespace SumTree

/-- What a spawner holds of the cluster, besides the world `σ` that it acts on. -/
structure Hosted (σ : Type) where
  service? : Option String
  /-- Whether the service was created rather than found. -/
  created : Bool
  /-- The network that was created. -/
  network? : Option String
  world : σ

namespace Service

variable {σ : Type}

/-- An action on the world. -/
def onWorld {α : Type} (a : Action σ α) : Action (Hosted σ) α :=
  Action.onPart Hosted.world (fun h w => { h with world := w }) a

/-- The definition of the service: that of the compose file, or one that publishes the port. -/
def definition (c : ServiceConfig) (site : Site σ) (name : String) :
    Action (Hosted σ) ServiceSpec := do
  match c.composePath?.filter fun path => !path.isEmpty with
  | some path =>
    match ServiceSpec.load path name (site.complaint path) (← onWorld (site.content? path)) with
    | .ok spec => return spec
    | .error failure => Action.fail failure
  | none => return ⟨name, c.image, [], [⟨c.port, Environment.workerPort⟩], name, "overlay"⟩

/-- Creates the network of a service unless it exists. -/
def ensureNetwork (engine : Engine σ) (spec : ServiceSpec) : Action (Hosted σ) Unit := do
  if spec.network.isEmpty then return ()
  else if ← onWorld (engine.hasNetwork spec.network) then return ()
  else
    Action.log .info ("Creating " ++ spec.networkDriver ++ " network " ++ spec.network)
    onWorld (engine.createNetwork spec.network spec.networkDriver)
    Action.change fun h => { h with network? := some spec.network }

/-- The port mappings, the last one for each published port. -/
def publications (ports : List PortMapping) : List PortMapping :=
  ports.foldl (fun done p =>
    if done.any (·.published == p.published) then
      done.map fun q => if q.published == p.published then p else q
    else done ++ [p]) []

/-- Scales the service to `count` replicas, or creates it with as many. -/
def deploy (engine : Engine σ) (spec : ServiceSpec) (count : Nat) : Action (Hosted σ) Unit := do
  ensureNetwork engine spec
  let found ← onWorld (engine.findServices spec.name)
  if found.contains spec.name then
    Action.change fun h => { h with service? := some spec.name, created := false }
    Action.log .info ("Scaling existing service " ++ spec.name ++ " to " ++ toString count
      ++ " replicas")
    onWorld (engine.scaleService spec.name count)
  else
    Action.log .info ("Creating service " ++ spec.name ++ " with " ++ toString count ++ " replicas")
    let network? := if spec.network.isEmpty then none else some spec.network
    onWorld (engine.createService
      ⟨spec.name, spec.image, count, publications spec.ports, network?, spec.constraints⟩)
    Action.change fun h => { h with service? := some spec.name, created := true }

/-- Fails unless `count` replicas of a service are running. -/
def checkReplicas (engine : Engine σ) (name : String) (count : Nat) : Action (Hosted σ) Unit := do
  onWorld (engine.refreshService name)
  let states ← onWorld (engine.tasks name)
  let running := states.countP (· == some "running")
  if running < count then Action.fail (.replicas running count) else return ()

/-- Checks the replicas until enough of them are running, as many times as are left. -/
def awaitReplicas (engine : Engine σ) (name : String) (count : Nat) : Nat → Action (Hosted σ) Unit
  | 0 => return ()
  | left + 1 => do
    match ← Action.attempt (checkReplicas engine name count) with
    | .ok () => return ()
    | .error (.replicas running wanted) =>
      if left = 0 then Action.fail (.replicas running wanted)
      else awaitReplicas engine name count left
    | .error failure => Action.fail failure

/-- Removes the network that was created. -/
def retireNetwork (engine : Engine σ) (logged : Bool) : Action (Hosted σ) Unit := do
  match (← Action.state).network? with
  | none => return ()
  | some network =>
    Action.change fun h => { h with network? := none }
    if logged then Action.log .info ("Removing network " ++ network)
    onWorld (engine.removeNetwork network)

/-- Removes the service if it was created, or scales it to zero, and removes the network. -/
def retire (engine : Engine σ) (name : String) : Action (Hosted σ) Unit := do
  Action.change fun h => { h with service? := none }
  if (← Action.state).created then
    Action.log .info ("Removing service " ++ name)
    onWorld (engine.removeService name)
  else
    Action.log .info ("Scaling service " ++ name ++ " to zero")
    onWorld (engine.scaleService name 0)
  retireNetwork engine true

/-- An action whose failures of the engine become a value; other failures are passed on. -/
def guarded (a : Action (Hosted σ) Unit) : Action (Hosted σ) (Option Failure) := do
  match ← Action.attempt a with
  | .ok () => return none
  | .error failure => if failure.isEngine then return some failure else Action.fail failure

/-- Undoes what was done for an acquisition that failed. -/
def retreat (engine : Engine σ) : Action (Hosted σ) Unit := do
  let undo := match (← Action.state).service? with
    | some name => retire engine name
    | none => retireNetwork engine false
  match ← guarded undo with
  | none => return ()
  | some failure =>
    Action.log .warning ("Cleanup after failed provisioning failed: " ++ failure.text)

/-- Whether a failure of an acquisition is reported as one of provisioning. -/
def isExpected : Failure → Bool
  | .compose _ | .replicas .. => true
  | failure => failure.isEngine || failure.isSystem

/-- Brings the service up, if there is one, and waits until all nodes are ready. -/
def bringUp (c : ServiceConfig) (engine : Engine σ) (site : Site σ) (handles : List Handle) :
    Action (Hosted σ) Unit := do
  let (timeout, interval) := (Number.real c.readinessTimeout, Number.real c.readinessInterval)
  match c.serviceName? with
  | some name =>
    let spec ← definition c site name
    deploy engine spec handles.length
    awaitReplicas engine name handles.length (Readiness.attempts timeout interval)
  | none => pure ()
  onWorld (site.awaitAll timeout interval handles)

/-- One worker for each node. -/
def provision (c : ServiceConfig) (engine : Engine σ) (site : Site σ) (count : Nat) :
    Action (Hosted σ) (List Handle) := do
  if c.nodes.length != count then
    Provider.refuse count (toString c.nodes.length ++ " worker node(s) configured")
  else
    let tag ← onWorld site.runTag
    let owner := c.serviceName?.getD "static"
    let handles := c.nodes.zipIdx.map fun (node, index) =>
      { address := "http://" ++ node ++ ":" ++ Decimal.render c.port
        kind := .service
        token := .text (owner ++ ":" ++ tag ++ ":" ++ toString index)
        index : Handle }
    match ← Action.attempt (bringUp c engine site handles) with
    | .ok () => return handles
    | .error failure =>
      if isExpected failure then
        if c.serviceName?.isSome then retreat engine
        Provider.refuse count failure.inFull
      else Action.fail failure

/-- Retires the service once no worker is live. -/
def finishRelease (engine : Engine σ) (live released : List Handle) :
    Action (Hosted σ) (List Leftover) := do
  match (← Action.state).service? with
  | none => return []
  | some name =>
    if !live.isEmpty then return []
    else
      match ← guarded (retire engine name) with
      | none => return []
      | some failure =>
        Action.log .warning ("Failed to retire service: " ++ failure.text)
        return released.map fun h => ⟨h, failure.inFull⟩

/-- The provider of workers of a service. -/
def provider (c : ServiceConfig) (engine : Engine σ) (site : Site σ) : Provider (Hosted σ) where
  kind := .service
  provision := provision c engine site
  teardown := fun _ => return ()
  finishRelease := finishRelease engine

/-- What a spawner holds at first. -/
def start (world : σ) : Hosted σ :=
  ⟨none, false, none, world⟩

end Service

end SumTree
