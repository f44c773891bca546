import SumTree.CommandLine.Option
import SumTree.Console
import SumTree.Entry.Rows
import SumTree.Spawner.Containers
import SumTree.Spawner.Listeners
import SumTree.Spawner.Service

/-!
# Commands

The command line has two commands: one aggregates the entries of CSV files, the other one serves a
worker.

## Main Definitions

* `Command`, `Command.ofWords` — what a command line asks for.
* `Surroundings` — what a command needs of the machine that it runs on.
* `Command.perform` — what a command prints, and how it exits.

## Design Notes

Errors of a run, and failures of the system, are printed as one line and exit with 1. Words that are
not understood exit with 2. All other failures get out of the command.
-/

namespace SumTree

/-- What a run on the command line is told. -/
structure RunArguments where
  files : List String
  executors : Int
  spawner : String
  workers : List String
  image? : Option String
  service? : Option String
  compose? : Option String
  port : Int
  timeout? : Option Float
  grace? : Option Float
  policy : OddPolicy
  maxBytes? : Option Int

/-- What a command line asks for. -/
inductive Command
  | run (arguments : RunArguments)
  | serve (host : String) (port : Int) (policy : OddPolicy)
  /-- The help on the command line as a whole or on one of its commands, which was asked for or is given
  because there are no words. -/
  | help (command? : Option String) (asked : Bool)

namespace Command

/-- The switch that asks for help. -/
def helpSwitch : List String := ["--help"]

/-- What stands in front of a command. -/
def group : CommandSpec :=
  ⟨[], [["-v", "--verbose"], helpSwitch], none, false⟩

/-- The option for the odd-node policy. -/
def policyOption : OptionSpec :=
  ⟨["--odd-node-policy"], .choice (OddPolicy.all.map OddPolicy.name), none⟩

/-- What the aggregating command understands. -/
def runSpec : CommandSpec :=
  ⟨[⟨["-n", "--executors"], .integerFrom 1, none⟩,
    ⟨["--spawner"], .choice ["mock", "local", "cloud"], none⟩,
    ⟨["--worker"], .text, none⟩,
    ⟨["--image"], .text, some "MERKLE_AGG_WORKER_IMAGE"⟩,
    ⟨["--service-name"], .text, none⟩,
    ⟨["--compose"], .file, none⟩,
    ⟨["--port"], .integer, none⟩,
    ⟨["--timeout"], .real, some "MERKLE_AGG_REQUEST_TIMEOUT"⟩,
    ⟨["--grace"], .real, some "MERKLE_AGG_GRACE_PERIOD"⟩,
    policyOption,
    ⟨["--max-balance-bytes"], .integerFrom 1, none⟩],
    [helpSwitch], some "CSV_FILES...", true⟩

/-- What the serving command understands. -/
def serveSpec : CommandSpec :=
  ⟨[⟨["--host"], .text, none⟩,
    ⟨["--port"], .integer, some "MERKLE_AGG_WORKER_PORT"⟩,
    policyOption],
    [helpSwitch], none, true⟩

/-- The odd-node policy of some settings. -/
def policyOf (s : Settings) : OddPolicy :=
  ((s.text? "--odd-node-policy").bind OddPolicy.ofName?).getD .carryUp

/-- What the settings of the aggregating command say. -/
def ofRun (s : Settings) : RunArguments where
  files := s.arguments
  executors := (s.integer? "--executors").getD 1
  spawner := (s.text? "--spawner").getD "mock"
  workers := s.texts "--worker"
  image? := s.text? "--image"
  service? := s.text? "--service-name"
  compose? := s.text? "--compose"
  port := (s.integer? "--port").getD Environment.workerPort
  timeout? := s.real? "--timeout"
  grace? := s.real? "--grace"
  policy := policyOf s
  maxBytes? := s.integer? "--max-balance-bytes"

/-- What the settings of the serving command say. -/
def ofServe (s : Settings) : Command :=
  .serve ((s.text? "--host").getD "0.0.0.0")
    ((s.integer? "--port").getD Environment.workerPort) (policyOf s)

/-- The command of a name, of which the words are read. Asking for help counts before anything else
that the words say. -/
def ofName (name : String) (files : Files) (env : Environment) (words : List String) :
    Except UsageFault Command :=
  let read (spec : CommandSpec) (make : Settings → Command) : Except UsageFault Command := do
    let w ← spec.split words
    if w.switches.contains "--help" then return .help (some name) true
    return make (← spec.read ["--worker"] files env words)
  match name with
  | "run" => read runSpec fun s => .run (ofRun s)
  | "serve-worker" => read serveSpec ofServe
  | _ => .error (.noCommand name)

/-- What a command line asks for. -/
def ofWords (files : Files) (env : Environment) (words : List String) :
    Except UsageFault Command := do
  if words.isEmpty then return .help none false
  let w ← group.split words
  if w.switches.contains "--help" then return .help none true
  match w.arguments with
  | [] => throw .missingCommand
  | name :: rest => ofName name files env rest

end Command

/-- What a command needs of the machine that it runs on. -/
structure Surroundings where
  files : Files
  environment : Environment
  /-- What a run with listeners meets with. -/
  mock : MockConfig → Hasher → Circumstances (Ledger Listening)
  /-- Why there is no container engine. -/
  noEngine : Failure
  /-- What is said about a file that cannot be opened, or whose content does not parse. -/
  complaint : String → Option (List UInt8) → String

/-- What a command prints, and how it exits. -/
inductive Printed
  /-- The command ends, with these lines on the output. -/
  | ended (code : Nat) (lines : List String)
  /-- The words are not understood. -/
  | misused (fault : UsageFault)
  /-- A worker is to be served. -/
  | serving (host : String) (port : Int) (policy : OddPolicy)
  /-- Help is given, asked for or not. -/
  | helping (command? : Option String) (asked : Bool)
  /-- A failure gets out of the command. -/
  | escaped (failure : Failure)

namespace Surroundings

/-- An action that fails for want of an engine. -/
def refused {σ α : Type} (s : Surroundings) : Action σ α :=
  Action.fail s.noEngine

/-- An engine that is not there. -/
def engine (s : Surroundings) : Engine Unit where
  runContainer _ := s.refused
  findContainer _ := s.refused
  stopContainer _ _ := s.refused
  removeContainer _ := s.refused
  hasNetwork _ := s.refused
  createNetwork _ _ := s.refused
  removeNetwork _ := s.refused
  findServices _ := s.refused
  createService _ := s.refused
  scaleService _ _ := s.refused
  removeService _ := s.refused
  refreshService _ := s.refused
  tasks _ := s.refused

/-- A machine on which nothing can be reached. -/
def site (s : Surroundings) : Site Unit where
  freePort _ := return 0
  runTag := return "00000000"
  content? path :=
    return match s.files.lookup path with
      | some (.file bytes) => some bytes
      | _ => none
  complaint := s.complaint
  awaitReady address timeout _ :=
    Action.fail (.system "TimeoutError" (Readiness.unreachable address timeout))

/-- What a run meets with whose workers cannot be connected to. -/
def unconnected {σ : Type} (spawner : Spawning σ) : Circumstances σ :=
  .amid spawner false (.ok ()) fun _ => []

end Surroundings

namespace RunArguments

/-- The settings of a run. -/
def config (a : RunArguments) (env : Environment) : Except ValueFault RunConfig := do
  let timeout ← env.requestTimeout
  let grace ← env.gracePeriod
  return ⟨(a.timeout?.map Number.real).getD timeout, (a.grace?.map Number.real).getD grace, a.policy,
    a.maxBytes?, .sha256⟩

/-- The entries of all files, one after the other. -/
def entries (a : RunArguments) (files : Files) : Except Failure (List Entry) := do
  let parts ← a.files.mapM fun path =>
    match files.lookup path with
    | some (.file bytes) => Entry.load path bytes
    | some .directory => .error (.system "IsADirectoryError" "")
    | none => .error (.system "FileNotFoundError" "")
  return parts.flatten

/-- The outcome of a run over some entries. -/
def outcome (a : RunArguments) (s : Surroundings) (config : RunConfig) (entries : List Entry) :
    Except RunFailure RunResult :=
  let image := a.image?.getD s.environment.workerImage
  match a.spawner with
  | "local" =>
    let c := { ContainerConfig.default s.environment with image := image }
    (Orchestrator.idle.run (Surroundings.unconnected (Containers.provider c s.engine s.site).spawning)
      config entries a.executors ⟨[], ()⟩).outcome
  | "cloud" =>
    let c : ServiceConfig :=
      ⟨a.workers, a.port, a.service?, a.compose?, image, 120.0, 1.0⟩
    (Orchestrator.idle.run (Surroundings.unconnected (Service.provider c s.engine s.site).spawning)
      config entries a.executors ⟨[], Service.start ()⟩).outcome
  | _ =>
    let c : MockConfig :=
      { MockConfig.default with
        addresses? := if a.workers.isEmpty then none else some a.workers
        policy := a.policy }
    (Orchestrator.idle.run (s.mock c config.hasher) config entries a.executors
      ⟨[], Listeners.start⟩).outcome

/-- What is printed of the failure of a run. -/
def printFailure (f : RunFailure) : Printed :=
  let isShown := match f.failure with
    | .run _ => true
    | failure => failure.isSystem
  if isShown then
    .ended 1 (Console.error f.failure.text
      ++ ((f.cleanup?.map fun e => Console.warning e.message).getD []))
  else .escaped f.failure

/-- What a run prints. -/
def perform (a : RunArguments) (s : Surroundings) : Printed :=
  match a.config s.environment with
  | .error fault => .escaped (.value fault)
  | .ok config =>
    if a.spawner == "cloud" && a.workers.isEmpty then
      .misused (.other "--worker is required for the cloud spawner")
    else
      match a.entries s.files with
      | .error failure => printFailure ⟨failure, none⟩
      | .ok entries =>
        match a.outcome s config entries with
        | .error failure => printFailure failure
        | .ok result =>
          match Console.result result with
          | .ok lines => .ended 0 lines
          | .error fault => .escaped (.value fault)

end RunArguments

/-- What a command line prints. -/
def Command.perform (s : Surroundings) (words : List String) : Printed :=
  match ofWords s.files s.environment words with
  | .error fault => .misused fault
  | .ok (.run a) => a.perform s
  | .ok (.serve host port policy) => .serving host port policy
  | .ok (.help command? asked) => .helping command? asked

end SumTree
