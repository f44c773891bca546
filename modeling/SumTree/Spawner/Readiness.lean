import SumTree.Number.Basic
import SumTree.Spawner.Action
import SumTree.Worker.Address

/-!
# Waiting for workers

A worker that has been started is ready when a connection to its endpoint succeeds. Until then the
connection is attempted again after a pause, as long as the patience lasts.

## Main Definitions

* `Readiness.wait` — waits until an address can be reached.
* `Readiness.attempts` — how many attempts the patience allows.
* `Readiness.unreachable` — the text of giving up, up to its cause.
-/

namespace SumTree

namespace Readiness

variable {σ : Type}

/-- How many attempts there are within `timeout` seconds with pauses of `interval` seconds between
them; the first one is always made. -/
def attempts (timeout interval : Number) : Nat :=
  let shortest := if interval.toFloat < 0.001 then 0.001 else interval.toFloat
  if timeout.toFloat ≤ 0.0 then 1 else (timeout.toFloat / shortest).ceil.toUInt64.toNat + 1

/-- The seconds that one attempt may take: a pause, but at least one second. -/
def attemptLimit (interval : Number) : Number :=
  if interval.toFloat < 1.0 then .real 1.0 else interval

/-- The text of giving up, up to its cause. -/
def unreachable (address : String) (timeout : Number) : String :=
  address ++ " not reachable after " ++ timeout.render ++ "s"

/-- Makes an attempt and, when the system refuses it, as many more as are left; gives the last
refusal. -/
def persist (attempt : Action σ Unit) : Nat → Action σ (Option Failure)
  | 0 => return none
  | left + 1 => do
    match ← Action.attempt attempt with
    | .ok () => return none
    | .error failure =>
      if !failure.isSystem then Action.fail failure
      else if left = 0 then return some failure
      else persist attempt left

/-- The endpoint of an address as an action. -/
def endpoint (address : String) : Action σ (String × Int) :=
  match Address.endpoint address with
  | .ok e => return e
  | .error .notAUrl => Action.fail (.elsewhere "InvalidURL" "")
  | .error (.value fault) => Action.fail (.value fault)

/-- Waits until an address can be reached, where `probe` attempts a connection to a host and a port
within some seconds. -/
def wait (probe : String → Int → Number → Action σ Unit) (address : String)
    (timeout interval : Number) : Action σ Unit := do
  let (host, port) ← endpoint address
  let limit := attemptLimit interval
  match ← persist (probe host port limit) (attempts timeout interval) with
  | none => return ()
  | some failure =>
    Action.fail (.system "TimeoutError" (unreachable address timeout ++ ": " ++ failure.text))

end Readiness

end SumTree
