import SumTree.Rehearsal.Script
import SumTree.Spawner.Ledger

/-!
# Scripted spawners

A scripted spawner hands out handles of workers that nobody started, numbered over its life, and fails
where its script says so. It remembers what it took down.

## Main Definitions

* `SpawnerScript` — where a scripted spawner fails.
* `Pool` — a scripted spawner's state.
* `Pool.provider`, `Pool.spawning` — the scripted spawner.
-/

namespace SumTree

/-- Where a scripted spawner fails. -/
structure SpawnerScript where
  /-- How many handles are made besides those asked for. -/
  extra : Int
  /-- The name and the text of the failure to make handles. -/
  provisioning? : Option (String × String)
  /-- The failures to take handles down, by the positions of the handles. -/
  teardowns : List (String × String)
  /-- What fails after handles were taken down. -/
  finish? : Option String
  /-- The failure of releasing as a whole. -/
  release? : Option String

/-- A scripted spawner's state. -/
structure Pool where
  script : SpawnerScript
  /-- The number of the next handle. -/
  serial : Nat
  /-- The tokens of the handles that were to be taken down, in order. -/
  torn : List Token

namespace SpawnerScript

/-- The script of a JSON value. -/
def ofJson (v : Json) : SpawnerScript where
  extra := Script.integer v "extra" 0
  provisioning? := (Script.member? v "provision_error").map fun e =>
    (Script.text e "kind" "", Script.text e "text" "")
  teardowns := (Script.members v "teardown_errors").filterMap fun m => m.2.str?.map (m.1, ·)
  finish? := (Script.member? v "finish_error").bind Json.str?
  release? := (Script.member? v "release_error").bind Json.str?

end SpawnerScript

namespace Pool

/-- The state of a new scripted spawner. -/
def start (s : SpawnerScript) : Pool :=
  ⟨s, 0, []⟩

/-- Makes handles. -/
def provision (count : Nat) : Action Pool (List Handle) := do
  let pool ← Action.state
  match pool.script.provisioning? with
  | some ("ProvisioningError", text) => Provider.refuse count text
  | some (name, text) => Action.fail (Script.failure name text)
  | none =>
    let made := ((count : Int) + pool.script.extra).toNat
    Action.change fun p => { p with serial := p.serial + made }
    return (List.range made).map fun i =>
      ⟨"http://worker-" ++ toString i ++ ":4000", .mock, .number (pool.serial + i), i⟩

/-- Takes a handle down. -/
def teardown (h : Handle) : Action Pool Unit := do
  Action.change fun p => { p with torn := p.torn ++ [h.token] }
  match (← Action.state).script.teardowns.lookup (toString h.index) with
  | some text => Action.fail (Script.failure "RuntimeError" text)
  | none => return ()

/-- What remains to be done after handles were taken down. -/
def finishRelease (_ released : List Handle) : Action Pool (List Leftover) := do
  match (← Action.state).script.finish? with
  | some text => return released.map fun h => ⟨h, text⟩
  | none => return []

/-- The scripted provider. -/
def provider : Provider Pool :=
  ⟨.mock, provision, teardown, finishRelease⟩

/-- Gives handles back. -/
def release (handles : List Handle) : Action (Ledger Pool) Unit := do
  match (← Action.state).inner.script.release? with
  | some text => Action.fail (Script.failure "RuntimeError" text)
  | none => provider.release handles

/-- The scripted spawner. -/
def spawning : Spawning (Ledger Pool) :=
  ⟨provider.acquire, release⟩

end Pool

end SumTree
