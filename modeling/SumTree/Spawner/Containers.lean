import SumTree.Config
import SumTree.Spawner.Engine
import SumTree.Spawner.Ledger

/-!
# Workers in containers

Each worker is a container of the local engine, reached at a free port of the host. Its token is the
identifier that the engine gave it.

## Main Definitions

* `Containers.provider` — the provider of such workers.

## Design Notes

When a container cannot be started or does not become ready, those started so far are taken down.
Failures of other kinds than the engine's and the system's are passed on as they are.
-/

namespace SumTree

namespace Containers

variable {σ : Type}

/-- Starts the worker at a position. -/
def start (c : ContainerConfig) (engine : Engine σ) (site : Site σ) (tag : String) (index : Nat) :
    Action σ Handle := do
  let port ← site.freePort c.host
  let name := c.namesFrom ++ "_" ++ tag ++ "_" ++ toString index
  let id ← engine.runContainer ⟨name, c.image, c.port, c.host, port⟩
  return ⟨"http://" ++ c.host ++ ":" ++ Decimal.render port, .container, .text id, index⟩

/-- Starts `left` workers from the position `index` on, each behind those started before; gives all
that were started, and the failure that ended it. -/
def startFrom (c : ContainerConfig) (engine : Engine σ) (site : Site σ) (tag : String) :
    Nat → Nat → List Handle → Action σ (List Handle × Option Failure)
  | 0, _, started => return (started, none)
  | left + 1, index, started => do
    match ← Action.attempt (start c engine site tag index) with
    | .ok h => startFrom c engine site tag left (index + 1) (started ++ [h])
    | .error failure => return (started, some failure)

/-- Takes a container down. -/
def teardown (engine : Engine σ) (h : Handle) : Action σ Unit :=
  match h.token with
  | .text id => do
    engine.findContainer id
    engine.stopContainer id 5
    engine.removeContainer id
  | .number _ => return ()

/-- The provider without its provisioning. -/
def base (engine : Engine σ) : Provider σ where
  kind := .container
  provision := fun _ => return []
  teardown := teardown engine
  finishRelease := fun _ _ => return []

/-- Starts `count` workers and waits until all of them are ready. -/
def provision (c : ContainerConfig) (engine : Engine σ) (site : Site σ) (count : Nat) :
    Action σ (List Handle) := do
  let tag ← site.runTag
  let (handles, failure?) ← startFrom c engine site tag count 0 []
  let failure? ← match failure? with
    | some failure => pure (some failure)
    | none => do
      match ← Action.attempt (site.awaitAll (.real c.readinessTimeout) (.real c.readinessInterval)
        handles) with
      | .ok () => pure none
      | .error failure => pure (some failure)
  match failure? with
  | none => return handles
  | some failure =>
    if failure.isEngine || failure.isSystem then
      Action.log .warning ("Provisioning failed after " ++ toString handles.length
        ++ " container(s), cleaning up")
      (base engine).discard handles
      Provider.refuse count failure.inFull
    else Action.fail failure

/-- The provider of workers in containers. -/
def provider (c : ContainerConfig) (engine : Engine σ) (site : Site σ) : Provider σ :=
  { base engine with provision := provision c engine site }

end Containers

end SumTree
