import SumTree.Fault

/-!
# States of a run

A run starts idle, gets its workers, hands out its chunks, waits for the answers and aggregates them.
It ends completed, failed or cancelled.

## Main Definitions

* `RunState` — the states.
* `RunState.name`, `RunState.ofName` — their names.
* `RunState.isTerminal` — whether a run has ended.
-/

namespace SumTree

/-- The states of a run. -/
inductive RunState
  | idle
  | provisioning
  | distributing
  | awaiting
  | aggregating
  | completed
  | failed
  | cancelled
  deriving Repr, DecidableEq, Inhabited

namespace RunState

/-- The name of a state. -/
def name : RunState → String
  | idle => "idle"
  | provisioning => "provisioning"
  | distributing => "distributing"
  | awaiting => "awaiting"
  | aggregating => "aggregating"
  | completed => "completed"
  | failed => "failed"
  | cancelled => "cancelled"

/-- The states in the order in which a run can enter them. -/
def all : List RunState :=
  [idle, provisioning, distributing, awaiting, aggregating, completed, failed, cancelled]

/-- The state of a name, refused when there is none. -/
def ofName (s : String) : Except ValueFault RunState :=
  match all.find? (·.name == s) with
  | some state => .ok state
  | none => .error (.stateName s)

@[simp] theorem ofName_name (s : RunState) : ofName s.name = .ok s := by
  cases s <;> rfl

/-- Whether a run in this state has ended. -/
def isTerminal : RunState → Bool
  | completed | failed | cancelled => true
  | _ => false

end RunState

end SumTree
