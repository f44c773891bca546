import SumTree.Partition
import SumTree.Run.Config
import SumTree.Run.Proceedings
import SumTree.Run.State
import SumTree.Spawner.Ledger

/-!
# Runs

A run cuts the entries into chunks, acquires one worker for each, exchanges every chunk with its
worker at the same time, aggregates the roots in the order of the chunks, and gives the workers back.
The first failure cancels what is still under way; cancelled exchanges get a grace period to end, and
those still running after it are aborted. Workers are given back once, whatever the outcome, and only
after every exchange has ended.

## Main Definitions

* `Event` — what happens in a run.
* `RunResult`, `RunFailure` — how a run ends.
* `Orchestrator` — the state of a run, and whether its cancellation was asked for.
* `Circumstances` — what a run meets with: the spawner, the connection, the exchanges.
* `Circumstances.amid` — those in which the exchanges meet with some happenings.
* `Orchestrator.run` — a run, with all its events.
* `Orchestrator.runFor` — a run for a number of executors as a caller gives it.
* `Orchestrator.cancel` — the request to cancel.

## Design Notes

What workers do enters as proceedings, which are computed from the exchanges that the run sets up. So
a run is a function, and a statement about every behaviour of the workers is one about all proceedings
that some happenings lead to.

An error of a run found while the workers are held is reported with what went wrong when they were
given back. Another failure — of the aggregator or of the connection, or the lack of a worker for some
chunk — leaves the run where it is, with the workers still held.

A run that is stopped during the grace period gives its workers back at once, and leaves alone the
exchanges that resist.
-/

namespace SumTree

/-- What happens in a run. -/
inductive Event
  | entered (s : RunState)
  | logged (r : LogRecord)
  | acquired (handles : List Handle)
  /-- The connection that the exchanges share is opened. -/
  | connected
  /-- The request of a chunk is sent to a URL. -/
  | sent (chunk : Nat) (url : Address) (body : List WireEntry)
  /-- The exchanges are told to end. -/
  | signalled
  /-- The exchange of a chunk is aborted. -/
  | aborted (chunk : Nat)
  /-- The exchange of a chunk has ended. -/
  | ended (chunk : Nat)
  | released (handles : List Handle)

/-- The result of a run. -/
structure RunResult where
  tree : AggregateTree
  /-- The number of chunks and so of workers. -/
  chunkCount : Nat
  cleanup? : Option CleanupError
  deriving Repr, DecidableEq

/-- The failure of a run, with what went wrong when the workers were given back. -/
structure RunFailure where
  failure : Failure
  cleanup? : Option CleanupError
  deriving Repr, DecidableEq

/-- The state of a run, and whether its cancellation was asked for. -/
structure Orchestrator where
  state : RunState
  cancelRequested : Bool
  deriving Repr, DecidableEq

/-- What a run meets with. -/
structure Circumstances (σ : Type) where
  spawner : Spawning σ
  /-- Whether the caller asks to cancel while the workers are acquired. -/
  cancelledEarly : Bool
  /-- The failure to open the connection, if it fails. -/
  connection : Except Failure Unit
  /-- What becomes of the exchanges. -/
  proceedings : List Exchange → Proceedings

/-- What a run meets with whose exchanges meet with some happenings. -/
def Circumstances.amid {σ : Type} (spawner : Spawning σ) (cancelledEarly : Bool)
    (connection : Except Failure Unit) (happenings : List Exchange → List Happening) :
    Circumstances σ :=
  ⟨spawner, cancelledEarly, connection, fun xs => Proceedings.play xs (happenings xs)⟩

/-- How a run went. -/
structure Report (σ : Type) where
  outcome : Except RunFailure RunResult
  events : List Event
  orchestrator : Orchestrator
  spawner : σ

namespace Orchestrator

/-- A run that has not begun. -/
def idle : Orchestrator :=
  ⟨.idle, false⟩

/-- The request to cancel, which an ended run ignores. -/
def cancel (o : Orchestrator) : Orchestrator :=
  if o.state.isTerminal then o else { o with cancelRequested := true }

@[simp] theorem cancel_state (o : Orchestrator) : o.cancel.state = o.state := by
  unfold cancel
  split <;> rfl

/-- An ended run ignores the request to cancel. -/
theorem cancel_of_isTerminal {o : Orchestrator} (h : o.state.isTerminal) : o.cancel = o :=
  if_pos h

/-- The exchanges of chunks with the workers of handles. -/
def exchanges (config : RunConfig) (chunks : List (List Entry)) (handles : List Handle) :
    List Exchange :=
  (List.range chunks.length).zipWith (fun i p => ⟨i, p.2, config.requestTimeout, p.1⟩)
    (chunks.zip handles)

/-- The requests that exchanges have sent, in the order of the chunks. -/
def requests (p : Proceedings) : List Event :=
  p.progress.flatMap fun x => x.sent.map fun sent => .sent x.exchange.chunk sent.1 sent.2

/-- A warning. -/
def warning (text : String) : Event :=
  .logged ⟨.warning, text⟩

/-- An error in the journal. -/
def errorLine (text : String) : Event :=
  .logged ⟨.error, text⟩

/-- The announcement that pending exchanges are told to end. -/
def announcement (e : RunError) (pending : List Nat) : Event :=
  warning ("Cancelling " ++ toString pending.length ++ " executor(s) after: " ++ e.message)

/-- Whether cancelled exchanges get time to end. -/
def hasGrace (grace : Number) : Bool :=
  !(grace.toFloat ≤ 0.0)

/-- What is done to the exchanges that are pending when a run fails. Without a grace period all of
them count as still running. -/
def drain (grace : Number) (e : RunError) (pending resisting : List Nat) : List Event :=
  if pending.isEmpty then []
  else
    let stragglers := if hasGrace grace then resisting else pending
    let ends (chunks : List Nat) : List Event := chunks.map .ended
    if stragglers.isEmpty then announcement e pending :: ends pending
    else
      announcement e pending :: (ends (pending.filter fun chunk => !stragglers.contains chunk)
        ++ warning (toString stragglers.length ++ " executor(s) still running after "
            ++ Real64.fixed1 grace.toFloat ++ "s, aborting them")
          :: (stragglers.map .aborted ++ ends stragglers))

/-- What is done to the exchanges that are pending when a run fails and is then stopped during the
grace period: those that resist are left alone. -/
def interruptedDrain (e : RunError) (pending resisting : List Nat) : List Event :=
  announcement e pending ::
    (pending.filter fun chunk => !resisting.contains chunk).map .ended

/-- The chunks that are not pending, in order. -/
def settled (count : Nat) (pending : List Nat) : List Event :=
  ((List.range count).filter fun chunk => !pending.contains chunk).map .ended

/-- How the part of a run ends during which it holds workers. -/
inductive Held
  | tree (t : AggregateTree)
  /-- An error of a run. -/
  | error (e : RunError)
  /-- A failure that the run does not handle. -/
  | escape (failure : Failure)
  /-- The run is stopped from outside. -/
  | stopped
  /-- The exchanges never end. -/
  | unfinished

/-- How a failure ends that part: the run handles its own errors only. -/
def Held.ofFailure : Failure → Held
  | .run e => .error e
  | failure => .escape failure

/-- The part of a run during which it holds workers: how it ends, its events, and the state that it
leaves the run in. -/
structure Holding where
  held : Held
  events : List Event
  state : RunState

/-- The failure of the aggregator to find the tree of a chunk that no worker was there for. -/
def missingTree : Failure :=
  .elsewhere "AttributeError" "'NoneType' object has no attribute 'entries'"

/-- The aggregation of the trees that the workers brought, where the last `missing` chunks had no
worker. -/
def aggregate (config : RunConfig) (missing : Nat) (trees : List MiniTree) : Held :=
  if 0 < missing then
    match Aggregator.firstUnlike 0 trees with
    | some fault => .error (.aggregation fault)
    | none => .escape missingTree
  else
    match config.aggregator.buildFromTrees trees with
    | .ok t => .tree t
    | .error failure => .ofFailure failure

/-- The exchanges of a run and what becomes of their trees. -/
def exchangeAll (config : RunConfig) (missing : Nat) (p : Proceedings) : Holding :=
  let count := p.progress.length
  let begun := [.connected, .entered .awaiting] ++ requests p
  match p.ending with
  | .complete trees =>
    ⟨aggregate config missing trees, begun ++ settled count [] ++ [.entered .aggregating],
      .aggregating⟩
  | .failed e pending resisting stoppedLater =>
    let signalled := begun ++ settled count pending ++ [.signalled]
    if stoppedLater && hasGrace config.gracePeriod && !resisting.isEmpty then
      ⟨.stopped, signalled ++ interruptedDrain e pending resisting, .awaiting⟩
    else ⟨.error e, signalled ++ drain config.gracePeriod e pending resisting, .awaiting⟩
  | .stopped pending =>
    ⟨.stopped, begun ++ settled count pending ++ .signalled ::
      (pending.map .aborted ++ pending.map .ended), .awaiting⟩
  | .unfinished => ⟨.unfinished, begun, .awaiting⟩

/-- The part of a run during which it holds the workers of `handles`. -/
def hold {σ : Type} (c : Circumstances σ) (config : RunConfig) (cancelled : Bool)
    (chunks : List (List Entry)) (handles : List Handle) : Holding :=
  if cancelled then
    ⟨.error (.exchange ⟨.cancelled, "Run cancelled before distribution", none, none⟩), [],
      .provisioning⟩
  else
    match c.connection with
    | .error failure => ⟨.ofFailure failure, [.entered .distributing], .distributing⟩
    | .ok () =>
      let xs := exchanges config chunks handles
      let h := exchangeAll config (chunks.length - xs.length) (c.proceedings xs)
      { h with events := .entered .distributing :: h.events }

/-- What giving the workers back leads to: what went wrong, the events, and the spawner. -/
def giveBack {σ : Type} (c : Circumstances σ) (handles : List Handle) (s : σ) :
    Option CleanupError × List Event × σ :=
  let (result, after) := (c.spawner.release handles).perform ⟨s, []⟩
  let events := .released handles :: after.journal.map .logged
  match result with
  | .ok () => (none, events, after.state)
  | .error (.run (.cleanup e)) => (some e, events ++ [warning e.message], after.state)
  | .error failure =>
    (some ⟨handles.map fun h => ⟨h, failure.inFull⟩⟩,
      events ++ [warning ("Worker release failed: " ++ failure.text)], after.state)

/-- The end of a run that holds workers. -/
def conclude {σ : Type} (o : Orchestrator) (c : Circumstances σ) (handles : List Handle)
    (chunkCount : Nat) (before : List Event) (h : Holding) (s : σ) : Report σ :=
  let events := before ++ h.events
  match h.held with
  | .tree t =>
    let (cleanup?, released, s) := giveBack c handles s
    ⟨.ok ⟨t, chunkCount, cleanup?⟩, events ++ released ++ [.entered .completed],
      { o with state := .completed }, s⟩
  | .error e =>
    let (cleanup?, released, s) := giveBack c handles s
    let final := if e.isCancellation then RunState.cancelled else RunState.failed
    ⟨.error ⟨.run e, cleanup?⟩,
      events ++ released ++ [.entered final, errorLine ("Run failed: " ++ e.message)],
      { o with state := final }, s⟩
  | .stopped =>
    let (_, released, s) := giveBack c handles s
    ⟨.error ⟨Exchange.stopped, none⟩, events ++ .entered .cancelled :: released,
      { o with state := .cancelled }, s⟩
  | .escape failure => ⟨.error ⟨failure, none⟩, events, { o with state := h.state }, s⟩
  | .unfinished =>
    ⟨.error ⟨.elsewhere "Unfinished" "", none⟩, events, { o with state := h.state }, s⟩

/-- A run over entries with a number of executors. -/
def run {σ : Type} (o : Orchestrator) (c : Circumstances σ) (config : RunConfig)
    (entries : List Entry) (executors : Int) (s : σ) : Report σ :=
  let fail (failure : Failure) (events : List Event) (state : RunState) (s : σ) : Report σ :=
    ⟨.error ⟨failure, none⟩, events, { o with state := state }, s⟩
  if o.state != .idle then
    fail (.run (.misuse ("Orchestrator already used (state: " ++ o.state.name ++ ")"))) [] o.state s
  else
    match Partition.chunks entries executors with
    | .error (.run e) => fail (.run e) [.entered .failed] .failed s
    | .error failure => fail failure [] .idle s
    | .ok chunks =>
      let warned := (Partition.warning? entries executors).toList.map warning
      let begun := warned ++ [.entered .provisioning]
      let (acquired, after) := (c.spawner.acquire chunks.length).perform ⟨s, []⟩
      let events := begun ++ after.journal.map .logged
      match acquired with
      | .error failure =>
        let e := match failure with
          | .run e => e
          | failure => .provisioning chunks.length failure.inFull
        fail (.run e) (events ++ [.entered .failed, errorLine ("Run failed: " ++ e.message)]) .failed
          after.state
      | .ok handles =>
        let cancelled := o.cancelRequested || c.cancelledEarly
        conclude o c handles chunks.length (events ++ [.acquired handles])
          (hold c config cancelled chunks handles) after.state

/-- A run over entries for a number of executors as a caller gives it. A value that is no integer is
found when the entries are to be cut into chunks, by a failure that the run does not handle. -/
def runFor {σ : Type} (o : Orchestrator) (c : Circumstances σ) (config : RunConfig)
    (entries : List Entry) (count : Count) (s : σ) : Report σ :=
  match count with
  | .int executors => o.run c config entries executors s
  | .other type =>
    let failure :=
      if o.state != .idle then
        .run (.misuse ("Orchestrator already used (state: " ++ o.state.name ++ ")"))
      else Count.incomparable type
    ⟨.error ⟨failure, none⟩, [], o, s⟩

end Orchestrator

end SumTree
