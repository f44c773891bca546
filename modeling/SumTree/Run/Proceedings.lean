import SumTree.Run.Round

/-!
# Exchanges that go on at the same time

The exchanges of a run go on at the same time and share one signal to end. What happens to them
comes one thing after the other: an exchange begins, a reply comes in, an exchange wakes, the caller
asks to cancel, the run collects what has finished. A run that fails or is stopped sets the signal.

## Main Definitions

* `Standing`, `Progress` — where an exchange stands and what it has sent.
* `Happening` — what can happen.
* `Proceedings` — the exchanges of a run, the signal, and the rounds so far.
* `Proceedings.after`, `Proceedings.play` — the proceedings after one happening and after several.

## Design Notes

Replies and their order are given by the happenings, so that a statement about every list of them is
one about every behaviour of the workers and every order of the steps. A happening that does not fit
where an exchange stands changes nothing.

An exchange begins and sends its request in one step. Between the two it looks at nothing that the
others could change, so nothing that happens there could be told from what happens afterwards.
-/

namespace SumTree

/-- Where an exchange stands. -/
inductive Standing
  /-- It has not begun. -/
  | waiting
  /-- Its request is sent; perhaps a reply has come in. -/
  | underway (reply? : Option Reply)
  | ended (outcome : Outcome)

/-- An exchange, where it stands, and what it has sent. -/
structure Progress where
  exchange : Exchange
  standing : Standing
  sent : List (Address × List WireEntry)

namespace Progress

/-- An exchange that has not begun. -/
def start (x : Exchange) : Progress :=
  ⟨x, .waiting, []⟩

/-- How the exchange ended, if it has. -/
def outcome? (p : Progress) : Option Outcome :=
  match p.standing with
  | .ended outcome => some outcome
  | _ => none

/-- The exchange begins. -/
def begin (p : Progress) (signalled : Bool) : Progress :=
  match p.standing with
  | .waiting =>
    let played := p.exchange.play signalled []
    let standing : Standing := match played.outcome? with
      | some outcome => .ended outcome
      | none => .underway none
    { p with standing := standing, sent := p.sent ++ played.sent }
  | _ => p

/-- A reply comes in; only the first one counts. -/
def receive (p : Progress) (reply : Reply) : Progress :=
  match p.standing with
  | .underway none => { p with standing := .underway (some reply) }
  | _ => p

/-- The exchange wakes. -/
def wake (p : Progress) (signalled : Bool) : Progress :=
  match p.standing with
  | .underway reply? =>
    match p.exchange.await [⟨reply?, signalled, false⟩] with
    | some outcome => { p with standing := .ended outcome }
    | none => p
  | _ => p

end Progress

/-- What can happen while the exchanges of a run go on. -/
inductive Happening
  | begins (chunk : Nat)
  | replies (chunk : Nat) (reply : Reply)
  | wakes (chunk : Nat)
  /-- The caller asks to cancel. -/
  | cancels
  /-- The run collects what has finished: whether it sees the signal at once, whether it is stopped
  from outside, and the chunks whose exchanges would not end at a first request to do so. -/
  | collects (seesSignal stopped : Bool) (resisting : List Nat)

/-- The exchanges of a run in the order of their chunks, the signal to end, and the rounds so far. -/
structure Proceedings where
  progress : List Progress
  signalled : Bool
  rounds : List Round

namespace Proceedings

/-- The exchanges before anything happens. -/
def start (xs : List Exchange) : Proceedings :=
  ⟨xs.map Progress.start, false, []⟩

/-- The addresses of the workers in the order of the chunks. -/
def addresses (p : Proceedings) : List String :=
  p.progress.map fun x => x.exchange.handle.address

/-- The ending that the rounds so far lead to. -/
def ending (p : Proceedings) : Ending :=
  distribute p.addresses p.rounds

/-- The exchanges that have ended, by their chunks, with their outcomes. -/
def finished (p : Proceedings) : List (Nat × Outcome) :=
  (List.range p.progress.length).filterMap fun chunk =>
    (p.progress[chunk]?.bind Progress.outcome?).map (chunk, ·)

/-- One exchange goes on. -/
def advance (p : Proceedings) (chunk : Nat) (f : Progress → Progress) : Proceedings :=
  { p with progress := p.progress.modify chunk f }

/-- A round is collected, which may lead the run to set the signal. -/
def collect (p : Proceedings) (r : Round) : Proceedings :=
  let next := { p with rounds := p.rounds ++ [r] }
  { next with signalled := p.signalled || next.ending.isBroken }

/-- The proceedings after something has happened. -/
def after (p : Proceedings) : Happening → Proceedings
  | .begins chunk => p.advance chunk (·.begin p.signalled)
  | .replies chunk reply => p.advance chunk (·.receive reply)
  | .wakes chunk => p.advance chunk (·.wake p.signalled)
  | .cancels => { p with signalled := true }
  | .collects seesSignal stopped resisting =>
    p.collect ⟨p.finished, p.signalled && seesSignal, stopped, resisting⟩

/-- The proceedings of some exchanges to which all this happens. -/
def play (xs : List Exchange) (happenings : List Happening) : Proceedings :=
  happenings.foldl after (start xs)

end Proceedings

end SumTree
