import SumTree.Spawner.Action

/-!
# Spawners

A spawner makes workers and takes them down again. What kinds of spawners differ in is their
*provider*; the rest is one ledger of the handles that are live: acquired and not yet taken down.

## Main Definitions

* `Provider` — how workers of one kind are made and taken down.
* `Ledger` — the live handles, and the provider's own state.
* `Provider.acquire`, `Provider.release` — the two operations of a spawner.
* `Provider.discard` — takes down handles that never became live.
* `Spawning` — what a run needs of a spawner.

## Design Notes

Live handles are found by their tokens, in the order of acquisition; a handle whose token is live
already takes the place of the one that has it. Release attempts every handle that it is given and
reports all that fail in one error.
-/

namespace SumTree

/-- How workers of one kind are made and taken down. -/
structure Provider (σ : Type) where
  kind : WorkerKind
  /-- Makes workers. When it fails it has cleaned up after itself. -/
  provision : Nat → Action σ (List Handle)
  /-- Takes one worker down. -/
  teardown : Handle → Action σ Unit
  /-- What remains to be done after handles were taken down, given those still live; what fails is
  reported for the handles. -/
  finishRelease : List Handle → List Handle → Action σ (List Leftover)

/-- The live handles of a spawner, and its provider's own state. -/
structure Ledger (σ : Type) where
  live : List Handle
  inner : σ

namespace Ledger

/-- Enters a handle, in the place of the live one with its token if there is one. -/
def enter (live : List Handle) (h : Handle) : List Handle :=
  if live.any (·.token == h.token) then live.map fun l => if l.token == h.token then h else l
  else live ++ [h]

/-- Strikes the live handle with a token. -/
def strike (live : List Handle) (t : Token) : List Handle :=
  live.filter (·.token != t)

theorem mem_strike {live : List Handle} {t : Token} {h : Handle} :
    h ∈ strike live t ↔ h ∈ live ∧ h.token ≠ t := by
  simp [strike]

/-- The live handle with a token. -/
def find? (live : List Handle) (t : Token) : Option Handle :=
  live.find? (·.token == t)

end Ledger

namespace Provider

variable {σ : Type}

/-- An action of the provider on the ledger. -/
def onInner {α : Type} (a : Action σ α) : Action (Ledger σ) α :=
  Action.onPart Ledger.inner (fun l s => { l with inner := s }) a

/-- Takes down handles that never became live, one after the other whatever fails. -/
def discard (p : Provider σ) : List Handle → Action σ Unit
  | [] => return ()
  | h :: rest => do
    match ← Action.attempt (p.teardown h) with
    | .ok () => pure ()
    | .error failure =>
      Action.log .warning ("Failed to clean up worker " ++ h.address ++ " after provisioning error: "
        ++ failure.text)
    p.discard rest

/-- The failure of an acquisition. -/
def refuse {τ α : Type} (count : Int) (reason : String) : Action τ α :=
  Action.fail (.run (.provisioning count reason))

/-- Makes `count` workers, which become live together. -/
def acquire (p : Provider σ) (count : Int) : Action (Ledger σ) (List Handle) := do
  if count < 1 then refuse count "worker count must be at least 1"
  else
    Action.log .info ("Provisioning " ++ Decimal.render count ++ " " ++ p.kind.name ++ " worker(s)")
    let handles ← onInner (p.provision count.toNat)
    if (handles.length : Int) != count then
      onInner (p.discard handles)
      refuse count ("spawner produced " ++ toString handles.length ++ " handle(s)")
    else
      Action.change fun l => { l with live := handles.foldl Ledger.enter l.live }
      return handles

/-- What a release has done so far: what failed, and what was taken down, each in order. -/
structure Released where
  failures : List Leftover
  released : List Handle

/-- Takes down one handle, if it is live. -/
def releaseOne (p : Provider σ) (done : Released) (h : Handle) : Action (Ledger σ) Released := do
  if Ledger.find? (← Action.state).live h.token != some h then
    return { done with failures := done.failures ++ [⟨h, "not live (already released or unknown)"⟩] }
  else
    match ← Action.attempt (onInner (p.teardown h)) with
    | .error failure =>
      Action.log .warning ("Failed to tear down worker " ++ h.address ++ ": " ++ failure.text)
      return { done with failures := done.failures ++ [⟨h, failure.inFull⟩] }
    | .ok () =>
      Action.change fun l => { l with live := Ledger.strike l.live h.token }
      return { done with released := done.released ++ [h] }

/-- Takes down handles, each of them whatever fails before it. -/
def release (p : Provider σ) (handles : List Handle) : Action (Ledger σ) Unit := do
  let done ← handles.foldlM p.releaseOne ⟨[], []⟩
  let late ←
    if done.released.isEmpty then pure []
    else do
      let live := (← Action.state).live
      onInner (p.finishRelease live done.released)
  let failures := done.failures ++ late
  Action.log .info ("Released " ++ toString done.released.length ++ " of "
    ++ toString handles.length ++ " worker(s)")
  if failures.isEmpty then return () else Action.fail (.run (.cleanup ⟨failures⟩))

end Provider

/-- What a run needs of a spawner. -/
structure Spawning (σ : Type) where
  acquire : Int → Action σ (List Handle)
  release : List Handle → Action σ Unit

/-- The spawner of a provider. -/
def Provider.spawning {σ : Type} (p : Provider σ) : Spawning (Ledger σ) :=
  ⟨p.acquire, p.release⟩

end SumTree
