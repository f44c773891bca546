import SumTree.Compose.Fault
import SumTree.Run.Error

/-!
# Failures

A failure is whatever can end an operation early: an error of a run, an unusable value, an unusable
service definition, too few replicas, or a failure of something outside this library, which is known
only by its name and its text.

## Main Definitions

* `Origin`, `Outside` — a failure of something outside.
* `Failure` — any failure.
* `Failure.kind`, `Failure.text` — its name and its text.
* `Failure.inFull` — both, as reports join them.
-/

namespace SumTree

/-- Where a failure from outside comes from. -/
inductive Origin
  /-- The operating system, the network included. -/
  | system
  /-- The container engine. -/
  | engine
  /-- Anything else. -/
  | elsewhere
  deriving Repr, DecidableEq, Inhabited

/-- A failure of something outside this library. -/
structure Outside where
  origin : Origin
  name : String
  text : String
  deriving Repr, DecidableEq, Inhabited

/-- Whatever can end an operation early. -/
inductive Failure
  | run (e : RunError)
  | value (fault : ValueFault)
  | compose (fault : ComposeFault)
  /-- Of the replicas that a service should have, only some are running. -/
  | replicas (running wanted : Nat)
  | outside (o : Outside)
  deriving Repr, DecidableEq, Inhabited

namespace Failure

/-- A failure of the operating system or the network. -/
def system (name text : String) : Failure :=
  .outside ⟨.system, name, text⟩

/-- A failure of anything else. -/
def elsewhere (name text : String) : Failure :=
  .outside ⟨.elsewhere, name, text⟩

/-- The name of a failure. -/
def kind : Failure → String
  | run e => e.kind
  | value _ => "ValueError"
  | compose _ => "ComposeSpecError"
  | replicas .. => "ReplicasPendingError"
  | outside o => o.name

/-- The text of a failure. -/
def text : Failure → String
  | run e => e.message
  | value fault => fault.message
  | compose fault => fault.message
  | replicas running wanted =>
    toString running ++ " of " ++ toString wanted ++ " replicas running"
  | outside o => o.text

/-- The name and the text of a failure. -/
def inFull (f : Failure) : String :=
  f.kind ++ ": " ++ f.text

/-- Whether a failure comes from the operating system or the network. -/
def isSystem : Failure → Bool
  | outside o => o.origin == .system
  | _ => false

/-- Whether a failure comes from the container engine. -/
def isEngine : Failure → Bool
  | outside o => o.origin == .engine
  | _ => false

end Failure

end SumTree
