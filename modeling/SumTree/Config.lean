import SumTree.Run.Config
import SumTree.Schema.Collection
import SumTree.Worker.Handle

/-!
# Configuration

The settings of the three kinds of spawners come as documents that are checked, with defaults for
what they leave out. Some defaults can be set in the environment.

## Main Definitions

* `Environment` — the variables of the environment.
* `MockConfig`, `ContainerConfig`, `ServiceConfig` — the settings of the kinds of spawners.
* `Environment.requestTimeout`, `Environment.gracePeriod` — the defaults of a run's settings.
* `FailureMode` — how a mock worker is made to fail.
-/

namespace SumTree

/-- How a mock worker is made to fail at its first request. -/
inductive FailureMode
  | reject
  | malformed
  | hang
  deriving Repr, DecidableEq, Inhabited

namespace FailureMode

/-- The name of a way to fail. -/
def name : FailureMode → String
  | reject => "reject"
  | malformed => "malformed"
  | hang => "hang"

/-- The way to fail of a name. -/
def ofName? (s : String) : Option FailureMode :=
  [reject, malformed, hang].find? (·.name == s)

@[simp] theorem ofName?_name (m : FailureMode) : ofName? m.name = some m := by
  cases m <;> decide

end FailureMode

/-- The settings of a spawner of mock workers. -/
structure MockConfig where
  /-- Where listeners listen. -/
  host : String
  /-- The addresses of workers that are there already; then no listeners are started. -/
  addresses? : Option (List String)
  /-- The workers that fail at their first request, by their positions. -/
  failures : List (Int × FailureMode)
  policy : OddPolicy
  deriving Repr, DecidableEq

/-- The settings of a spawner of containers. -/
structure ContainerConfig where
  image : String
  /-- How the names of containers begin. -/
  namesFrom : String
  /-- The port that a worker listens on inside its container. -/
  port : Int
  host : String
  readinessTimeout : Float
  readinessInterval : Float

/-- The settings of a spawner that uses a service of a cluster. -/
structure ServiceConfig where
  nodes : List String
  port : Int
  /-- The service to create or scale; without one the nodes are used as they are. -/
  service? : Option String
  /-- The file that defines the service. -/
  composePath? : Option String
  image : String
  readinessTimeout : Float
  readinessInterval : Float

/-- The variables of the environment. -/
abbrev Environment := List (String × String)

namespace Environment

/-- The port that workers listen on. -/
def workerPort : Int := 4000

/-- The image of workers, unless the environment names another. -/
def workerImage (env : Environment) : String :=
  (env.lookup "MERKLE_AGG_WORKER_IMAGE").getD "merkle-aggregation-worker:latest"

/-- A number of the environment; an empty variable counts as absent. -/
def number (env : Environment) (name : String) (default : Float) : Except ValueFault Number :=
  match env.lookup name with
  | none => .ok (.real default)
  | some text =>
    if text.isEmpty then .ok (.real default)
    else match Real64.read? text with
      | some x => .ok (.real x)
      | none => .error (.environment name text)

/-- The seconds that a worker gets to answer. -/
def requestTimeout (env : Environment) : Except ValueFault Number :=
  env.number "MERKLE_AGG_REQUEST_TIMEOUT" 60.0

/-- The seconds that cancelled exchanges get to end. -/
def gracePeriod (env : Environment) : Except ValueFault Number :=
  env.number "MERKLE_AGG_GRACE_PERIOD" 5.0

end Environment

namespace MockConfig

/-- The settings when nothing is set. -/
def default : MockConfig :=
  ⟨"127.0.0.1", none, [], .carryUp⟩

/-- The check of a document of settings. -/
def check : Json → Checked MockConfig :=
  Check.record fun v =>
    let kind := Check.optional v "kind" () (Check.constant "mock")
    let host := Check.optional v "host" default.host Check.text
    let addresses := Check.optional v "addresses" none (Check.nullable (Check.list Check.text))
    let failures := Check.optional v "failures" [] (Check.map (Check.choice FailureMode.ofName?))
    let policy := Check.optional v "odd_node_policy" default.policy (Check.choice OddPolicy.ofName?)
    (Checked.both kind (Checked.both (Checked.both host addresses)
      (Checked.both failures policy))).map
      fun p => ⟨p.2.1.1, p.2.1.2, p.2.2.1, p.2.2.2⟩

end MockConfig

namespace ContainerConfig

/-- The settings when nothing is set. -/
def default (env : Environment) : ContainerConfig :=
  ⟨env.workerImage, "mini_tree", Environment.workerPort, "127.0.0.1", 30.0, 0.25⟩

/-- The check of a document of settings. -/
def check (env : Environment) : Json → Checked ContainerConfig :=
  Check.record fun v =>
    let d := default env
    let kind := Check.optional v "kind" () (Check.constant "local")
    let image := Check.optional v "image" d.image Check.text
    let namesFrom := Check.optional v "container_prefix" d.namesFrom Check.text
    let port := Check.optional v "container_port" d.port Check.integer
    let host := Check.optional v "host" d.host Check.text
    let timeout := Check.optional v "readiness_timeout" d.readinessTimeout Check.double
    let interval := Check.optional v "readiness_interval" d.readinessInterval Check.double
    (Checked.both (Checked.both kind (Checked.both image namesFrom))
      (Checked.both (Checked.both port host) (Checked.both timeout interval))).map
      fun p => ⟨p.1.2.1, p.1.2.2, p.2.1.1, p.2.1.2, p.2.2.1, p.2.2.2⟩

end ContainerConfig

namespace ServiceConfig

/-- The check of a document of settings. -/
def check (env : Environment) : Json → Checked ServiceConfig :=
  Check.record fun v =>
    let kind := Check.optional v "kind" () (Check.constant "cloud")
    let nodes := Check.required v "worker_nodes" (Check.list Check.text)
    let port := Check.optional v "port" Environment.workerPort Check.integer
    let service := Check.optional v "service_name" none (Check.nullable Check.text)
    let compose := Check.optional v "compose_path" none (Check.nullable Check.text)
    let image := Check.optional v "image" env.workerImage Check.text
    let timeout := Check.optional v "readiness_timeout" 120.0 Check.double
    let interval := Check.optional v "readiness_interval" 1.0 Check.double
    (Checked.both (Checked.both (Checked.both kind nodes) (Checked.both port service))
      (Checked.both (Checked.both compose image) (Checked.both timeout interval))).map
      fun p => ⟨p.1.1.2, p.1.2.1, p.1.2.2, p.2.1.1, p.2.1.2, p.2.2.1, p.2.2.2⟩

/-- The service to create or scale, where an empty name counts as none. -/
def serviceName? (c : ServiceConfig) : Option String :=
  c.service?.filter fun name => !name.isEmpty

end ServiceConfig

end SumTree
