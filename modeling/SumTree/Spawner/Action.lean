import SumTree.Failure

/-!
# Actions

What works on the world outside — starts workers, calls the container engine — is written as an
action on a state. An action may fail, and what it did to the state until then stays done. It also
leaves records in a journal.

## Main Definitions

* `LogLevel`, `LogRecord` — a record of the journal.
* `Logged` — a state with its journal.
* `Action` — an action on a state.
* `Action.attempt` — an action whose failure is a value.
-/

namespace SumTree

/-- How much a record of the journal matters. -/
inductive LogLevel
  | info
  | warning
  | error
  deriving Repr, DecidableEq, Inhabited

/-- The name of a level. -/
def LogLevel.name : LogLevel → String
  | info => "INFO"
  | warning => "WARNING"
  | error => "ERROR"

/-- A record of the journal. -/
structure LogRecord where
  level : LogLevel
  text : String
  deriving Repr, DecidableEq, Inhabited

/-- A state with the journal of what was done to it. -/
structure Logged (σ : Type) where
  state : σ
  journal : List LogRecord

/-- An action on a state: it gives a value or fails, and in both cases changes the state. -/
abbrev Action (σ α : Type) := ExceptT Failure (StateM (Logged σ)) α

namespace Action

variable {σ τ α : Type}

/-- Runs an action on a state with its journal. -/
def perform (a : Action σ α) (s : Logged σ) : Except Failure α × Logged σ :=
  a.run s

/-- The state. -/
def state : Action σ σ := do
  return (← get).state

/-- Puts another state in the place of the state. -/
def setState (s : σ) : Action σ Unit :=
  modify fun w => { w with state := s }

/-- Changes the state. -/
def change (f : σ → σ) : Action σ Unit :=
  modify fun w => { w with state := f w.state }

/-- Leaves a record in the journal. -/
def log (level : LogLevel) (text : String) : Action σ Unit :=
  modify fun w => { w with journal := w.journal ++ [⟨level, text⟩] }

/-- Fails. -/
def fail (failure : Failure) : Action σ α :=
  throw failure

/-- An action whose failure is a value. -/
def attempt (a : Action σ α) : Action σ (Except Failure α) :=
  ExceptT.lift a.run

/-- An action on a part of a state. -/
def onPart (part : σ → τ) (put : σ → τ → σ) (a : Action τ α) : Action σ α :=
  ExceptT.mk fun w =>
    let (result, inner) := a.run ⟨part w.state, w.journal⟩
    (result, ⟨put w.state inner.state, inner.journal⟩)

end Action

end SumTree
