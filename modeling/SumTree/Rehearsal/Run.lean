import SumTree.Rehearsal.Exchange
import SumTree.Rehearsal.Spawner
import SumTree.Run.Orchestrator

/-!
# Rehearsing a run

A run with scripted workers, which may be cancelled or stopped after some turns. A worker is known by
the number in the name of its host, so two handles of one host share a worker.

## Main Definitions

* `RunScript` — the scripts of a run's workers, and its interruption.
* `RunScript.happenings` — what happens to the exchanges of a run.
* `RunScript.rehearse` — several runs of one orchestrator.
* `Report.requestCounts`, `Report.entered`, `Report.journal` — what reports show of events.
-/

namespace SumTree

/-- The scripts of a run's workers, and its interruption. -/
structure RunScript where
  workers : List WorkerScript
  interruption : Interruption

namespace RunScript

/-- The number in the name of a host. -/
def numberIn (host : String) : Nat :=
  Decimal.ofDigits (host.toList.filter Digit.isAscii)

/-- The script of the worker at an address. -/
def workerAt (s : RunScript) (address : String) : WorkerScript :=
  let host := ((Address.base? address).map Address.host).getD ""
  (s.workers[numberIn host]?).getD (.ofJson (.obj []))

/-- The schedule of some exchanges. -/
def schedule (s : RunScript) (xs : List Exchange) : Schedule :=
  let scripts := xs.map fun x => s.workerAt x.handle.address
  let horizon := s.interruption.horizon (scripts.map WorkerScript.turn)
  ⟨scripts.zipWith (fun script x => script.course horizon x) xs,
    s.interruption.cancelAt?, s.interruption.stopAt?⟩

/-- What happens to some exchanges. -/
def happenings (s : RunScript) (xs : List Exchange) : List Happening :=
  (s.schedule xs).happenings

/-- Runs an orchestrator several times with a spawner. -/
def rehearse {σ : Type} (s : RunScript) (spawner : Spawning σ) (config : RunConfig)
    (entries : List Entry) (count : Count) : Nat → Orchestrator → σ → List (Report σ)
  | 0, _, _ => []
  | times + 1, o, state =>
    let c := Circumstances.amid spawner false (.ok ()) s.happenings
    let report := o.runFor c config entries count state
    report :: rehearse s spawner config entries count times report.orchestrator report.spawner

/-- The orchestrator that a rehearsal begins with. -/
def orchestrator (s : RunScript) : Orchestrator :=
  if s.interruption.cancelledBefore then Orchestrator.idle.cancel else .idle

end RunScript

namespace Report

variable {σ : Type}

/-- The states that a run entered, in order. -/
def entered (r : Report σ) : List RunState :=
  r.events.filterMap fun e => match e with
    | .entered s => some s
    | _ => none

/-- The records that a run left in the journal. -/
def journal (r : Report σ) : List LogRecord :=
  r.events.filterMap fun e => match e with
    | .logged record => some record
    | _ => none

/-- How many connections a run opened. -/
def connections (r : Report σ) : Nat :=
  r.events.countP fun e => match e with
    | .connected => true
    | _ => false

/-- The numbers of the workers that a run sent requests to, in order. -/
def receivers (r : Report σ) : List Nat :=
  r.events.filterMap fun e => match e with
    | .sent _ url _ => some (RunScript.numberIn url.host)
    | _ => none

end Report

/-- How often each number occurs, ascending. -/
def occurrences (numbers : List Nat) : List (Nat × Nat) :=
  (numbers.foldr Schedule.addMoment []).map fun n => (n, numbers.count n)

end SumTree
