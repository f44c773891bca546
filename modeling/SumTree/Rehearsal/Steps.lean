import SumTree.Spawner.Ledger

/-!
# Rehearsing a spawner

The steps of a sequence acquire and release workers. A step names the handles to be released by the
order in which they were acquired, or names one that was never acquired.

## Main Definitions

* `Stage` — a spawner and the handles that it gave so far.
* `Stage.acquire`, `Stage.release` — the steps.
* `Stage.on` — any action on the spawner as a step.
-/

namespace SumTree

/-- A spawner, the handles that it gave so far, and the journal. -/
structure Stage (σ : Type) where
  ledger : Ledger σ
  acquired : List Handle
  journal : List LogRecord

/-- A handle that a step names. -/
inductive HandleName
  /-- The handle at a position in the order of acquisition, from the end for one below zero. -/
  | position (n : Int)
  | stranger

namespace Stage

variable {σ : Type}

/-- A spawner that gave no handles yet. -/
def start (inner : σ) : Stage σ :=
  ⟨⟨[], inner⟩, [], []⟩

/-- An action on the spawner as a step. -/
def on {α : Type} (a : Action (Ledger σ) α) (s : Stage σ) : Except Failure α × Stage σ :=
  let (result, after) := a.perform ⟨s.ledger, s.journal⟩
  (result, { s with ledger := after.state, journal := after.journal })

/-- A change of the provider's own state as a step. -/
def change (f : σ → σ) (s : Stage σ) : Stage σ :=
  { s with ledger := { s.ledger with inner := f s.ledger.inner } }

/-- Acquires workers. -/
def acquire (sp : Spawning (Ledger σ)) (count : Int) (s : Stage σ) :
    Except Failure (List Handle) × Stage σ :=
  let (result, s) := s.on (sp.acquire count)
  match result with
  | .ok handles => (result, { s with acquired := s.acquired ++ handles })
  | .error _ => (result, s)

/-- A handle that was never acquired. -/
def stranger : Handle :=
  ⟨"http://nowhere:1", .mock, .text "stranger", 0⟩

/-- The handle that a step names. -/
def handle? (s : Stage σ) : HandleName → Option Handle
  | .stranger => some stranger
  | .position n =>
    let i := if n < 0 then n + s.acquired.length else n
    if i < 0 then none else s.acquired[i.toNat]?

/-- The handle that a step names, or the failure that there is none. -/
def handle (s : Stage σ) (name : HandleName) : Except Failure Handle :=
  match s.handle? name with
  | some h => .ok h
  | none => .error (.elsewhere "IndexError" "list index out of range")

/-- Releases the handles that are named, and says how many they are. -/
def release (sp : Spawning (Ledger σ)) (names : List HandleName) (s : Stage σ) :
    Except Failure Nat × Stage σ :=
  match names.mapM s.handle with
  | .error failure => (.error failure, s)
  | .ok handles =>
    let (result, s) := s.on (sp.release handles)
    (result.map fun () => handles.length, s)

/-- The tokens of the live handles, in order. -/
def live (s : Stage σ) : List Token :=
  s.ledger.live.map Handle.token

end Stage

end SumTree
