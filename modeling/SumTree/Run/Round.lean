import SumTree.Run.Exchange

/-!
# Waiting for exchanges

A run waits for its exchanges in rounds. A round brings the exchanges that finished since the round
before, and perhaps the signal to cancel. The first round with a failure or the signal decides how
the wait ends; without such a round it ends when every exchange has brought its tree.

## Main Definitions

* `Round` — what one round brings.
* `Ending`, `Ending.isBroken` — how the wait ends, and whether it breaks off.
* `Waiting` — the exchanges that are pending, and the trees so far.
* `Waiting.collect` — the ending that some rounds lead to.

## Design Notes

Among several failures of one round that of the lowest chunk counts, and a failure counts more than
the signal. The order in which a round lists its exchanges makes no difference, nor do exchanges that
finished before.
-/

namespace SumTree

/-- How an exchange ended. -/
abbrev Outcome := Except Failure MiniTree

/-- What one round brings. -/
structure Round where
  /-- The exchanges that finished, by their chunks. -/
  finished : List (Nat × Outcome)
  /-- Whether the caller has asked to cancel. -/
  cancelled : Bool
  /-- Whether the run is stopped from outside. -/
  stopped : Bool
  /-- The chunks whose exchanges would not end at a first request to do so. -/
  resisting : List Nat

/-- How the wait for some exchanges ends. -/
inductive Ending
  /-- Every exchange brought its tree; these are the trees in the order of their chunks. -/
  | complete (trees : List MiniTree)
  /-- The run fails while these exchanges are pending, some of them resisting; it may be stopped later
  on, while it waits for those. -/
  | failed (e : RunError) (pending resisting : List Nat) (stoppedLater : Bool)
  /-- The run is stopped while these exchanges are pending. -/
  | stopped (pending : List Nat)
  /-- The rounds end before the exchanges do. -/
  | unfinished
  deriving Repr, DecidableEq

/-- Whether the run ends before its exchanges do, so that it tells them to end. -/
def Ending.isBroken : Ending → Bool
  | .failed .. | .stopped _ => true
  | .complete _ | .unfinished => false

/-- An error of the exchange of a chunk, with the chunk and its worker unless the failure is an error
of a run already. -/
def asRunError (chunk : Nat) (address : String) : Failure → RunError
  | .run e => e
  | failure => .exchange ⟨.failed, failure.inFull, some chunk, some address⟩

/-- The exchanges that are pending, and the trees of those that are not. -/
structure Waiting where
  /-- The addresses of the workers in the order of the chunks. -/
  addresses : List String
  /-- The pending chunks, ascending. -/
  pending : List Nat
  trees : List (Nat × MiniTree)

namespace Waiting

/-- The error that an outcome is, if it is one. -/
def errorOf? (w : Waiting) (chunk : Nat) : Outcome → Option RunError
  | .ok _ => none
  | .error failure => some (asRunError chunk ((w.addresses[chunk]?).getD "") failure)

/-- The pending exchanges that a round brings to their end, in the order of their chunks. -/
def arrivals (w : Waiting) (r : Round) : List (Nat × Outcome) :=
  w.pending.filterMap fun chunk => (r.finished.lookup chunk).map (chunk, ·)

/-- The wait after a round. -/
def after (w : Waiting) (r : Round) : Waiting :=
  { w with
    pending := w.pending.filter fun chunk => (r.finished.lookup chunk).isNone
    trees := w.trees ++ (w.arrivals r).filterMap fun a => a.2.toOption.map (a.1, ·) }

/-- What a round decides, if it decides anything: the failure of the lowest chunk, or else the
cancellation. -/
def verdict? (w : Waiting) (r : Round) : Option RunError :=
  match (w.arrivals r).findSome? fun a => w.errorOf? a.1 a.2 with
  | some e => some e
  | none =>
    if r.cancelled then
      some (.exchange ⟨.cancelled, "Run cancelled by caller", none, none⟩)
    else none

/-- The trees in the order of the chunks. -/
def inOrder (w : Waiting) : List MiniTree :=
  (List.range w.addresses.length).filterMap fun chunk => w.trees.lookup chunk

/-- The ending that some rounds lead to. -/
def collect (w : Waiting) : List Round → Ending
  | [] => if w.pending.isEmpty then .complete w.inOrder else .unfinished
  | r :: rest =>
    if w.pending.isEmpty then .complete w.inOrder
    else
      let next := w.after r
      match w.verdict? r with
      | some e =>
        .failed e next.pending (next.pending.filter r.resisting.contains) (rest.any (·.stopped))
      | none => if r.stopped then .stopped next.pending else next.collect rest

end Waiting

/-- The ending of the wait for exchanges with the workers at these addresses. -/
def distribute (addresses : List String) (rounds : List Round) : Ending :=
  Waiting.collect ⟨addresses, List.range addresses.length, []⟩ rounds

end SumTree
