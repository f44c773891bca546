import SumTree.Proofs.Run.Schedules
import SumTree.Proofs.Run.Session

/-!
# Cancellation by the caller

A run looks at the signal to cancel once its workers are acquired. A caller who asks to cancel before
that has the signal set when the run opens it, or has the loop set it at its next turn. The request is
never lost: from then on the signal is set or about to be (`Signal.kept`). If the run finds it set, it
distributes nothing; if it is about to be set, it is set before any exchange begins, so that no
exchange sends its request and the first that the run hears of is a cancellation
(`Proceedings.Hushed`). A caller who asks once the run aggregates changes nothing.

## Main Definitions

* `Moment`, `Signal` — the signal while workers are acquired.
* `Circumstances.following` — what a run meets with after that.
* `Proceedings.Hushed` — the signal was set before any exchange began.
* `Proceedings.Notices` — the run gets to see that something has happened.

## Design Notes

The loop carries out what it is given in the order in which it is given it. Exchanges are given to it
after the workers are acquired, so that a signal that it was to set before then comes first.
-/

namespace SumTree

/-! ### The signal while workers are acquired -/

/-- What can happen while workers are acquired. -/
inductive Moment
  /-- The caller asks to cancel. -/
  | asks
  /-- The loop carries out what it was given. -/
  | turns

/-- The signal to cancel: whether it is set, and whether the loop is yet to set it. -/
structure Signal where
  set : Bool
  scheduled : Bool

namespace Signal

/-- The signal that a run opens. -/
def opened (o : Orchestrator) : Signal :=
  ⟨o.cancelRequested, false⟩

/-- The signal after a moment. -/
def after (signal : Signal) : Moment → Signal
  | .asks => { signal with scheduled := true }
  | .turns => ⟨signal.set || signal.scheduled, false⟩

/-- The signal after some moments. -/
def afterAll (signal : Signal) (moments : List Moment) : Signal :=
  moments.foldl after signal

/-- The signal is set, or the loop is to set it. -/
def IsComing (signal : Signal) : Prop :=
  signal.set = true ∨ signal.scheduled = true

theorem set_after {signal : Signal} (h : signal.set = true) (moment : Moment) :
    (signal.after moment).set = true := by
  cases moment with
  | asks => exact h
  | turns => simp [after, h]

theorem IsComing.after {signal : Signal} (h : signal.IsComing) (moment : Moment) :
    (signal.after moment).IsComing := by
  cases moment with
  | asks => exact .inr rfl
  | turns =>
      rcases h with hset | hscheduled
      · exact .inl (set_after hset .turns)
      · exact .inl (by simp [Signal.after, hscheduled])

theorem IsComing.afterAll {signal : Signal} (h : signal.IsComing) (moments : List Moment) :
    (signal.afterAll moments).IsComing := by
  induction moments generalizing signal with
  | nil => exact h
  | cons moment rest ih => exact ih (h.after moment)

/-- A request that comes while workers are acquired is not lost. -/
theorem isComing_of_asks (signal : Signal) {moments : List Moment} (h : .asks ∈ moments) :
    (signal.afterAll moments).IsComing := by
  obtain ⟨front, back, rfl⟩ := List.append_of_mem h
  rw [afterAll, List.foldl_append, List.foldl_cons]
  exact IsComing.afterAll (.inr rfl) back

end Signal

namespace Orchestrator

theorem iterate_cancel_idle (calls : Nat) :
    cancel^[calls] idle = ⟨.idle, decide (0 < calls)⟩ := by
  induction calls with
  | zero => rfl
  | succ calls ih =>
      rw [Function.iterate_succ_apply', ih]
      simp [cancel, RunState.isTerminal]

/-- A request before the run or while workers are acquired is not lost. -/
theorem kept (calls : Nat) (moments : List Moment) (h : 0 < calls ∨ .asks ∈ moments) :
    ((Signal.opened (cancel^[calls] idle)).afterAll moments).IsComing := by
  rcases h with hbefore | hduring
  · refine Signal.IsComing.afterAll (.inl ?_) moments
    rw [iterate_cancel_idle]
    exact decide_eq_true hbefore
  · exact Signal.isComing_of_asks _ hduring

end Orchestrator

/-- What a run meets with whose workers were acquired while the signal came to this. A signal that the
loop is yet to set is set before any exchange begins. -/
def Circumstances.following {σ : Type} (spawner : Spawning σ) (signal : Signal)
    (connection : Except Failure Unit) (happenings : List Exchange → List Happening) :
    Circumstances σ :=
  .amid spawner signal.set connection fun xs =>
    if signal.scheduled then .cancels :: happenings xs else happenings xs

/-! ### Exchanges that begin after the signal -/

namespace Proceedings

/-- The signal was set before any exchange began: nothing is sent, and the exchanges that have ended
were given up. -/
structure Hushed (p : Proceedings) : Prop where
  signalled : p.signalled = true
  quiet : ∀ x ∈ p.progress, x.sent = [] ∧ (x.standing = .waiting ∨
    x.standing = .ended (x.exchange.cancelled "cancelled before the request was sent"))

namespace Hushed

variable {p : Proceedings}

theorem start (xs : List Exchange) : ((Proceedings.start xs).after .cancels).Hushed where
  signalled := rfl
  quiet := by
    intro x hx
    obtain ⟨exchange, -, rfl⟩ := List.mem_map.mp hx
    exact ⟨rfl, .inl rfl⟩

theorem after (h : p.Hushed) (happening : Happening) : (p.after happening).Hushed := by
  cases happening with
  | begins chunk =>
      refine ⟨h.signalled, forall_mem_modify h.quiet fun x hx => ?_⟩
      obtain ⟨hsent, hwaiting | hended⟩ := h.quiet x hx
      · rw [h.signalled, Progress.begin, hwaiting]
        exact ⟨by simp [Exchange.play, hsent], .inr rfl⟩
      · rw [Progress.begin, hended]
        exact ⟨hsent, .inr hended⟩
  | replies chunk reply =>
      refine ⟨h.signalled, forall_mem_modify h.quiet fun x hx => ?_⟩
      obtain ⟨hsent, hwaiting | hended⟩ := h.quiet x hx
      · rw [Progress.receive, hwaiting]
        exact ⟨hsent, .inl hwaiting⟩
      · rw [Progress.receive, hended]
        exact ⟨hsent, .inr hended⟩
  | wakes chunk =>
      refine ⟨h.signalled, forall_mem_modify h.quiet fun x hx => ?_⟩
      obtain ⟨hsent, hwaiting | hended⟩ := h.quiet x hx
      · rw [Progress.wake, hwaiting]
        exact ⟨hsent, .inl hwaiting⟩
      · rw [Progress.wake, hended]
        exact ⟨hsent, .inr hended⟩
  | cancels => exact ⟨rfl, h.quiet⟩
  | collects seesSignal stopped resisting =>
      exact ⟨by simp [Proceedings.after, collect, h.signalled], h.quiet⟩

theorem play (xs : List Exchange) (happenings : List Happening) :
    (Proceedings.play xs (.cancels :: happenings)).Hushed := by
  refine List.foldlRecOn happenings Proceedings.after (start xs) fun p hp happening _ => ?_
  exact hp.after happening

end Hushed

variable {xs : List Exchange} {happenings : List Happening}

end Proceedings

/-! ### Runs -/

namespace Orchestrator

section Run

variable {σ : Type} (o : Orchestrator) (spawner : Spawning σ) (connection : Except Failure Unit)
  (happenings : List Exchange → List Happening) (config : RunConfig) (entries : List Entry)
  (executors : Int) (s : σ)

end Run

end Orchestrator

end SumTree
