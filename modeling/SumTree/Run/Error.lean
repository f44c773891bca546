import SumTree.Fault
import SumTree.Worker.Handle

/-!
# Errors of a run

Why a run, or a step of it, fails: the entries or the request are unusable, the workers cannot be
had, an exchange with a worker goes wrong, the roots do not fit together, or workers cannot be given
back. Each reason is a cause with one text.

## Main Definitions

* `EntryFault`, `AggregationFault` — unusable entries and roots that do not fit together.
* `ExchangeFault`, `ExchangeError` — what goes wrong between a run and one worker.
* `CleanupError` — the workers that could not be given back.
* `RunError` — any of these, with `RunError.message` as its text.
-/

namespace SumTree

/-- Why the entries or the request of a run are unusable. -/
inductive EntryFault
  /-- Fewer than one executor was asked for. -/
  | executorCount (count : Int)
  /-- There are no entries. -/
  | emptySet
  /-- An entry has another number of columns than the first. -/
  | width (position : Nat) (username : String) (found expected : Nat)
  /-- A row lacks its name or its balances. -/
  | missingCell (source : String) (line : Nat)
  /-- A row's balances are no plain numerals. -/
  | badBalances (source : String) (line : Nat) (text : String)
  /-- A table lacks columns. -/
  | missingColumns (source : String) (columns : List String)
  /-- A reason from elsewhere. -/
  | other (text : String)
  deriving Repr, DecidableEq, Inhabited

/-- The text of an `EntryFault`. -/
def EntryFault.message : EntryFault → String
  | executorCount count => "Executor count must be at least 1, got " ++ Decimal.render count
  | emptySet => "Cannot aggregate an empty entry set"
  | width position username found expected =>
    "Entry " ++ toString position ++ " ('" ++ username ++ "') has " ++ toString found
      ++ " balance columns, expected " ++ toString expected
  | missingCell source line =>
    source ++ ":" ++ toString line ++ ": missing username or balances"
  | badBalances source line text =>
    source ++ ":" ++ toString line ++ ": balances must be non-negative integers, got "
      ++ Quoted.quote text
  | missingColumns source columns =>
    source ++ ": missing column(s) " ++ ", ".intercalate columns
  | other text => text

/-- Why the roots of mini-trees do not make an aggregate tree. -/
inductive AggregationFault
  /-- There are no roots. -/
  | noRoots
  /-- The mini-trees are not as many as the roots. -/
  | treeCount (trees roots : Nat)
  /-- A root has another number of columns than the first. -/
  | rootWidth (chunk found expected : Nat)
  /-- A root has another number of columns than the entries of its chunk. -/
  | entryWidth (chunk found expected : Nat)
  /-- A total does not fit into the number of bytes allowed. -/
  | outOfRange (column : Nat) (bytes : Int) (balance : Int)
  /-- The builder of levels refuses. -/
  | levels (fault : ValueFault)
  /-- A reason from elsewhere. -/
  | other (text : String)
  deriving Repr, DecidableEq, Inhabited

/-- The text of an `AggregationFault`. -/
def AggregationFault.message : AggregationFault → String
  | noRoots => "Cannot aggregate zero chunk roots"
  | treeCount trees roots =>
    "Got " ++ toString trees ++ " mini-trees for " ++ toString roots ++ " chunk roots"
  | rootWidth chunk found expected =>
    "Chunk " ++ toString chunk ++ " root has " ++ toString found ++ " balance columns, expected "
      ++ toString expected
  | entryWidth chunk found expected =>
    "Chunk " ++ toString chunk ++ " root has " ++ toString found
      ++ " balance columns, its entries have " ++ toString expected
  | outOfRange column bytes balance =>
    "Accumulated balance in column " ++ toString column ++ " exceeds " ++ Decimal.render bytes
      ++ " bytes: " ++ Decimal.render balance
  | levels fault => fault.message
  | other text => text

/-- What goes wrong between a run and one worker. -/
inductive ExchangeFault
  /-- Something else than the worker's own failures. -/
  | failed
  /-- The worker is not reached, or does not answer in time. -/
  | unreachable
  /-- The worker answers that it did not succeed. -/
  | rejected (status? : Option Int) (body : String)
  /-- The worker answers that it succeeded, with a body that cannot be used. -/
  | malformed (status? : Option Int) (body : String)
  /-- The exchange was given up, because another failed or the caller asked for it. -/
  | cancelled
  deriving Repr, DecidableEq, Inhabited

/-- A failed exchange: what went wrong, at which chunk and at which worker. -/
structure ExchangeError where
  fault : ExchangeFault
  reason : String
  chunk? : Option Int
  address? : Option String
  deriving Repr, DecidableEq, Inhabited

/-- The text of a failed exchange: the chunk and the address in front of the reason, as far as they
are known. -/
def ExchangeError.message (e : ExchangeError) : String :=
  match e.chunk?, e.address? with
  | none, _ => e.reason
  | some chunk, none => "Chunk " ++ Decimal.render chunk ++ ": " ++ e.reason
  | some chunk, some address =>
    "Chunk " ++ Decimal.render chunk
      ++ (if address.isEmpty then "" else " (" ++ address ++ ")") ++ ": " ++ e.reason

/-- A worker that could not be given back, and why. -/
structure Leftover where
  handle : Handle
  reason : String
  deriving Repr, DecidableEq, Inhabited

/-- The workers that could not be given back. -/
structure CleanupError where
  failures : List Leftover
  deriving Repr, DecidableEq, Inhabited

namespace CleanupError

/-- How many failures the text names one by one. -/
def shown : Nat := 5

/-- The text of a `CleanupError`: the first failures one by one, the others by their number. -/
def message (e : CleanupError) : String :=
  let count := e.failures.length
  let named := (e.failures.take shown).map fun f => f.handle.address ++ ": " ++ f.reason
  let more := if count > shown then "; ... (" ++ toString (count - shown) ++ " more)" else ""
  "Failed to release " ++ toString count ++ " worker(s): " ++ "; ".intercalate named ++ more

end CleanupError

/-- Why a run, or a step of it, fails. -/
inductive RunError
  /-- The run was used in a way that it does not allow. -/
  | misuse (text : String)
  | entries (fault : EntryFault)
  /-- The workers cannot be had. -/
  | provisioning (requested : Int) (reason : String)
  | exchange (e : ExchangeError)
  | aggregation (fault : AggregationFault)
  | cleanup (e : CleanupError)
  deriving Repr, DecidableEq, Inhabited

namespace RunError

/-- The text of a `RunError`. -/
def message : RunError → String
  | misuse text => text
  | entries fault => fault.message
  | provisioning requested reason =>
    "Could not provision " ++ Decimal.render requested ++ " worker(s): " ++ reason
  | exchange e => e.message
  | aggregation fault => fault.message
  | cleanup e => e.message

/-- The names under which an error is reported, from its own kind to the most general one. -/
def kinds : RunError → List String
  | misuse _ => ["OrchestrationError"]
  | entries _ => ["EntryValidationError", "OrchestrationError"]
  | provisioning .. => ["ProvisioningError", "OrchestrationError"]
  | aggregation _ => ["AggregationError", "OrchestrationError"]
  | cleanup _ => ["CleanupError", "OrchestrationError"]
  | exchange e =>
    (match e.fault with
      | .failed => []
      | .unreachable => ["WorkerUnreachableError"]
      | .rejected .. => ["WorkerRejectedError"]
      | .malformed .. => ["MalformedResponseError", "WorkerRejectedError"]
      | .cancelled => ["RunCancelledError"]) ++ ["ExecutorError", "OrchestrationError"]

/-- The name of an error's own kind. -/
def kind (e : RunError) : String :=
  e.kinds.headD ""

/-- Whether the error says that the run was cancelled. -/
def isCancellation : RunError → Bool
  | exchange e => e.fault == .cancelled
  | _ => false

end RunError

end SumTree
