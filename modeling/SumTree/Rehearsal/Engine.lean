import SumTree.Rehearsal.Script
import SumTree.Spawner.Engine

/-!
# Scripted container engines

A scripted engine records what it is asked for and fails where its script says so. It keeps track of
containers and networks; services and the states of tasks come from the script.

## Main Definitions

* `EngineScript` — how a scripted engine answers.
* `EngineWorld` — a scripted engine, the machine around it, and the record of calls.
* `EngineWorld.engine`, `EngineWorld.site` — the engine and the machine.

## Design Notes

A call is recorded before it fails. Its failure is looked up by the name of the call, or else by the
name and the first argument. Of the states of tasks each poll takes the next ones, and the last ones
stay.
-/

namespace SumTree

/-- How a scripted engine answers. -/
structure EngineScript where
  services : List String
  /-- The failures of calls, by the calls. -/
  failures : List (String × Failure)

/-- A scripted engine and the machine around it. -/
structure EngineWorld where
  script : EngineScript
  networks : List String
  /-- The states of tasks that the polls to come find. -/
  polls : List (List (Option String))
  /-- How many containers were started. -/
  containers : Nat
  /-- How many ports were given out. -/
  ports : Nat
  /-- The addresses that cannot be reached. -/
  unreachable : List String
  /-- The content of every file. -/
  file? : Option (List UInt8)
  /-- The calls in order, each a list of its name and its arguments. -/
  calls : List Json

namespace EngineScript

/-- The script of a JSON value. -/
def ofJson (v : Json) : EngineScript where
  services := Script.texts v "services"
  failures := (Script.members v "errors").map fun m =>
    (m.1, Script.failure (Script.text m.2 "error" "") (Script.text m.2 "text" ""))

/-- The states of tasks in a script, if it has them. -/
def polls? (v : Json) : Option (List (List (Option String))) :=
  ((v.get? "tasks").bind Json.arr?).map fun polls =>
    polls.map fun poll => ((poll.arr?).getD []).map Json.str?

end EngineScript

namespace EngineWorld

/-- A scripted engine that was not asked for anything yet. -/
def start (v : Json) (unreachable : List String) (file? : Option (List UInt8)) : EngineWorld :=
  ⟨.ofJson v, Script.texts v "networks", (EngineScript.polls? v).getD [], 0, 0, unreachable, file?,
    []⟩

/-- A scripted engine with another script. Networks stay, and so do the states of tasks unless the
script has some. -/
def follow (w : EngineWorld) (v : Json) : EngineWorld :=
  { w with script := .ofJson v, polls := (EngineScript.polls? v).getD w.polls }

/-- Records a call. -/
def record (name : String) (arguments : List Json) : Action EngineWorld Unit :=
  Action.change fun w => { w with calls := w.calls ++ [.arr (.str name :: arguments)] }

/-- Records a call, which may fail. -/
def call (name : String) (arguments : List Json) : Action EngineWorld Unit := do
  record name arguments
  let failures := (← Action.state).script.failures
  let full := match arguments with
    | .str first :: _ => name ++ " " ++ first
    | _ => name
  match (failures.lookup name).orElse fun _ => failures.lookup full with
  | some failure => Action.fail failure
  | none => return ()

/-- Starts a container. -/
def runContainer (c : ContainerSpec) : Action EngineWorld String := do
  let port := Decimal.render c.port ++ "/tcp"
  call "containers.run" [.str c.name, .str c.image, .bool true,
    .arr [.arr [.str port, .str c.host, .int c.published]]]
  let started := (← Action.state).containers
  Action.change fun w => { w with containers := started + 1 }
  return "c" ++ toString started

/-- The port mappings in ascending order. -/
def sortedPorts (ports : List PortMapping) : List PortMapping :=
  ports.mergeSort fun p q => p.published ≤ q.published

/-- Creates a service. -/
def createService (d : Deployment) : Action EngineWorld Unit :=
  call "services.create" [.str d.name, .str d.image,
    .obj [("replicated", .obj [("Replicas", .nat d.replicas)])],
    .arr ((sortedPorts d.ports).map fun p => .arr [.int p.published, .int p.target]),
    match d.network? with
      | some network => .arr [.str network]
      | none => .null,
    if d.constraints.isEmpty then .null else .arr (d.constraints.map Json.str)]

/-- Polls the states of tasks. -/
def tasks (_ : String) : Action EngineWorld (List (Option String)) := do
  call "service.tasks" [.str "running"]
  match (← Action.state).polls with
  | [] => return []
  | [last] => return last
  | poll :: rest =>
    Action.change fun w => { w with polls := rest }
    return poll

/-- The scripted engine. -/
def engine : Engine EngineWorld where
  runContainer := runContainer
  findContainer id := call "containers.get" [.str id]
  stopContainer id grace := call "container.stop" [.str id, .nat grace]
  removeContainer id := call "container.remove" [.str id, .bool true]
  hasNetwork name := do
    call "networks.list" [.str name]
    return (← Action.state).networks.contains name
  createNetwork name driver := do
    call "networks.create" [.str name, .str driver, .bool true]
    Action.change fun w => { w with networks := w.networks ++ [name] }
  removeNetwork name := do
    call "network.remove" [.str name]
    Action.change fun w => { w with networks := w.networks.filter (· != name) }
  findServices name := do
    call "services.list" [.str name]
    return (← Action.state).script.services
  createService := createService
  scaleService name count := call "service.scale" [.str name, .nat count]
  removeService name := call "service.remove" [.str name]
  refreshService name := call "service.reload" [.str name]
  tasks := tasks

/-- The scripted machine. -/
def site : Site EngineWorld where
  freePort _ := do
    let given := (← Action.state).ports
    Action.change fun w => { w with ports := given + 1 }
    return 50000 + given
  runTag := return "deadbeef"
  content? _ := do
    return (← Action.state).file?
  complaint _ _ := ""
  awaitReady address timeout interval := do
    record "probe" [.str address, .str timeout.render, .str interval.render]
    if (← Action.state).unreachable.contains address then
      Action.fail (.system "TimeoutError" (address ++ " not reachable"))

end EngineWorld

end SumTree
