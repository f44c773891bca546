import Mathlib.Data.List.Induction
import SumTree.Run.Watch

/-!
# What decides when an exchange wakes

As long as neither its request has ended nor the signal is set, nothing that happens to an exchange
decides how it ends (`watches_play`). It is the first wake after that which decides
(`decided_when_it_wakes`): a request that has ended by then ends the exchange as it ended itself, signal
or not, and otherwise the request is given up, after which the exchange can only end as a cancelled one
(`Aborts.after`). What a run takes for the outcome of its exchanges, without looking at requests that
were given up, is the same (`agrees_with_play`).

## Main Definitions

* `Watch.ending?` — how the request has ended after some events.
* `Watch.Undecided` — at no wake so far had anything finished.
* `Exchange.IsCancellation` — the error of a cancelled exchange.
* `Watch.decided?` — how the exchange ends, or will end.
-/

namespace SumTree

/-- An exchange ends as a cancelled one: with the reason, the chunk and the address of its worker. -/
def Exchange.IsCancellation (x : Exchange) (reason : String) (outcome : Outcome) : Prop :=
  outcome = .error (.run (.exchange ⟨.cancelled, reason, some x.chunk, some x.handle.address⟩))

namespace Watch

/-- How an event ends a request that has not ended before. -/
def Event.ending? (x : Exchange) : Event → Option Outcome
  | .sends =>
    match x.request with
    | .ok _ => none
    | .error failure => some (.error failure)
  | .ends reply => some (x.judge reply)
  | _ => none

/-- How the request has ended, if it has, when all this has happened. -/
def ending? (x : Exchange) (events : List Event) : Option Outcome :=
  events.findSome? (Event.ending? x)

/-- Whenever the exchange woke, its request had not ended and the signal was not set. -/
def Undecided (x : Exchange) (events : List Event) : Prop :=
  ∀ before late, events = before ++ .wakes :: late → ending? x before = none ∧ .cancels ∉ before

variable {x : Exchange} {w : Watch} {events : List Event} {outcome : Outcome}

theorem ending?_append (before late : List Event) :
    ending? x (before ++ late) = (ending? x before).or (ending? x late) :=
  List.findSome?_append

theorem undecided_nil : Undecided x [] := by
  intro before late h
  cases before with
  | nil => cases h
  | cons _ _ => cases h

/-- One event more leaves an exchange undecided unless it wakes and something has finished. -/
theorem undecided_concat_iff {event : Event} :
    Undecided x (events ++ [event]) ↔
      Undecided x events ∧ (event = .wakes → ending? x events = none ∧ .cancels ∉ events) := by
  constructor
  · intro h
    refine ⟨fun before late hsplit => h before (late ++ [event]) ?_, ?_⟩
    · rw [hsplit, List.append_assoc, List.cons_append]
    · rintro rfl
      exact h events [] rfl
  · rintro ⟨hbefore, hlast⟩ before late hsplit
    rcases List.eq_nil_or_concat late with rfl | ⟨front, last, rfl⟩
    · obtain ⟨rfl, hwakes⟩ := List.append_inj' hsplit rfl
      cases hwakes
      exact hlast rfl
    · rw [List.concat_eq_append, ← List.cons_append, ← List.append_assoc] at hsplit
      exact hbefore before front (List.append_inj' hsplit rfl).1

theorem play_append (signalledBefore : Bool) (before late : List Event) :
    play x signalledBefore (before ++ late) = late.foldl after (play x signalledBefore before) :=
  List.foldl_append

/-! ### While nothing is decided -/

/-- The exchange still watches, and knows of its request and of the signal what has happened. -/
structure Watches (w : Watch) (x : Exchange) (events : List Event) : Prop where
  exchange : w.exchange = x
  stage : w.stage = .watching
  stopped : w.stopped = false
  aborted : w.aborted = false
  signalled : w.signalled = true ↔ .cancels ∈ events
  ended : w.ended? = ending? x events
  sendable : w.request = .underway → ∃ sent, x.request = .ok sent

theorem watches_start : Watches (start x false) x [] where
  exchange := rfl
  stage := rfl
  stopped := rfl
  aborted := rfl
  signalled := by simp [start]
  ended := rfl
  sendable h := by cases h

theorem send_of_ok {sent : Address × List WireEntry} (hstage : w.stage = .watching)
    (hrequest : w.request = .pending) (hsent : w.exchange.request = .ok sent) :
    w.send = { w with request := .underway, sent := w.sent ++ [sent] } := by
  simp only [send, hstage, hrequest, hsent]

theorem send_of_error {failure : Failure} (hstage : w.stage = .watching)
    (hrequest : w.request = .pending) (hfailure : w.exchange.request = .error failure) :
    w.send = { w with request := .ended (.error failure) } := by
  simp only [send, hstage, hrequest, hfailure]

theorem send_of_ne (h : w.stage ≠ .watching ∨ w.request ≠ .pending) : w.send = w := by
  unfold send
  split
  · rename_i hstage hrequest
    rcases h with h | h
    · exact absurd hstage h
    · exact absurd hrequest h
  · rfl

theorem Watches.send (h : Watches w x events) : Watches w.send x (events ++ [.sends]) := by
  have hsignalled : w.signalled = true ↔ .cancels ∈ events ++ [.sends] := by
    rw [h.signalled]
    simp
  have hend : ending? x [.sends] = Event.ending? x .sends := by
    simp [ending?]
  obtain ⟨rfl, hstage, hstopped, haborted, -, hended, hsendable⟩ := h
  cases hrequest : w.request with
  | pending =>
      have hnone : ending? w.exchange events = none := by
        rw [← hended, ended?, hrequest]
      cases hsent : w.exchange.request with
      | ok sent =>
          rw [send_of_ok hstage hrequest hsent]
          refine ⟨rfl, hstage, hstopped, haborted, hsignalled, ?_, fun _ => ⟨sent, hsent⟩⟩
          rw [ending?_append, hnone, hend, Event.ending?, hsent]
          rfl
      | error failure =>
          rw [send_of_error hstage hrequest hsent]
          refine ⟨rfl, hstage, hstopped, haborted, hsignalled, ?_, fun h => by cases h⟩
          rw [ending?_append, hnone, hend, Event.ending?, hsent]
          rfl
  | underway =>
      obtain ⟨sent, hsent⟩ := hsendable hrequest
      rw [send_of_ne (.inr (by rw [hrequest]; exact Request.noConfusion))]
      refine ⟨rfl, hstage, hstopped, haborted, hsignalled, ?_, fun _ => ⟨sent, hsent⟩⟩
      rw [ending?_append, hended, hend, Event.ending?, hsent, Option.or_none]
  | ended outcome =>
      rw [send_of_ne (.inr (by rw [hrequest]; exact Request.noConfusion))]
      refine ⟨rfl, hstage, hstopped, haborted, hsignalled, ?_, hsendable⟩
      rw [ending?_append, ← hended, ended?, hrequest]
      rfl

theorem Watches.finish (h : Watches w x events) (reply : Reply) :
    Watches (w.finish reply) x (events ++ [.ends reply]) := by
  have hsignalled : w.signalled = true ↔ .cancels ∈ events ++ [.ends reply] := by
    rw [h.signalled]
    simp
  have hend : ending? x [.ends reply] = some (x.judge reply) := by
    simp [ending?, Event.ending?]
  obtain ⟨rfl, hstage, hstopped, haborted, -, hended, hsendable⟩ := h
  unfold Watch.finish
  split
  · rename_i outcome hrequest
    refine ⟨rfl, hstage, hstopped, haborted, hsignalled, ?_, hsendable⟩
    rw [ending?_append, ← hended, ended?, hrequest]
    rfl
  · rename_i hrequest
    have hnone : ending? w.exchange events = none := by
      rw [← hended, ended?]
      split
      · exact absurd ‹_› (hrequest _)
      · rfl
    refine ⟨rfl, hstage, hstopped, haborted, hsignalled, ?_, fun h => by cases h⟩
    rw [ending?_append, hnone, hend]
    rfl

theorem Watches.cancel (h : Watches w x events) :
    Watches { w with signalled := true } x (events ++ [.cancels]) where
  exchange := h.exchange
  stage := h.stage
  stopped := h.stopped
  aborted := h.aborted
  signalled := by simp
  ended := by
    rw [ending?_append]
    exact h.ended.trans Option.or_none.symm
  sendable := h.sendable

theorem Watches.not_signalled (h : Watches w x events) (hcancels : .cancels ∉ events) :
    w.signalled = false := by
  rw [← Bool.not_eq_true, h.signalled]
  exact hcancels

theorem Watches.wake_of_ended (h : Watches w x events) (hend : ending? x events = some outcome) :
    w.wake = { w with stage := .over outcome } := by
  simp only [Watch.wake, h.stage, h.stopped, h.ended, hend, Bool.false_eq_true, if_false]

theorem Watches.wake_of_signalled (h : Watches w x events) (hend : ending? x events = none)
    (hcancels : .cancels ∈ events) : w.wake = { w with stage := .aborting, aborted := true } := by
  simp only [Watch.wake, h.stage, h.stopped, h.ended, hend, h.signalled.mpr hcancels,
    Bool.false_eq_true, if_false, if_true]

/-- A wake that finds nothing leaves all as it is. -/
theorem Watches.wake_of_nothing (h : Watches w x events) (hend : ending? x events = none)
    (hcancels : .cancels ∉ events) : w.wake = w := by
  simp only [Watch.wake, h.stage, h.stopped, h.ended, hend, h.not_signalled hcancels,
    Bool.false_eq_true, if_false]

theorem Watches.wake (h : Watches w x events) (hend : ending? x events = none)
    (hcancels : .cancels ∉ events) : Watches w.wake x (events ++ [.wakes]) := by
  rw [h.wake_of_nothing hend hcancels]
  refine ⟨h.exchange, h.stage, h.stopped, h.aborted, ?_, ?_, h.sendable⟩
  · rw [h.signalled]
    simp
  · rw [ending?_append]
    exact h.ended.trans Option.or_none.symm

theorem watches_play (hstops : .stops ∉ events) (h : Undecided x events) :
    Watches (play x false events) x events := by
  induction events using List.reverseRecOn with
  | nil => exact watches_start
  | append_singleton events event ih =>
      obtain ⟨hbefore, hlast⟩ := undecided_concat_iff.mp h
      rw [List.mem_append, not_or] at hstops
      obtain ⟨hstops, hevent⟩ := hstops
      have hwatches := ih hstops hbefore
      rw [play_append, List.foldl_cons, List.foldl_nil]
      cases event with
      | sends => exact hwatches.send
      | ends reply => exact hwatches.finish reply
      | cancels => exact hwatches.cancel
      | stops => exact absurd (List.mem_singleton_self _) hevent
      | wakes => exact hwatches.wake (hlast rfl).1 (hlast rfl).2

/-! ### Once it is over -/

/-- An exchange that is over stays as it is, and sends nothing more. -/
theorem foldl_after_of_over (h : w.stage = .over outcome) (events : List Event) :
    (events.foldl after w).stage = .over outcome ∧
      (events.foldl after w).aborted = w.aborted ∧ (events.foldl after w).sent = w.sent := by
  refine List.foldlRecOn (motive := fun w' => w'.stage = .over outcome ∧
    w'.aborted = w.aborted ∧ w'.sent = w.sent) events after ⟨h, rfl, rfl⟩ fun w' hw event _ => ?_
  obtain ⟨hover, hsame⟩ := hw
  cases event with
  | sends =>
      rw [after, send_of_ne (.inl (by rw [hover]; exact Stage.noConfusion))]
      exact ⟨hover, hsame⟩
  | ends reply =>
      simp only [after, finish]
      split <;> exact ⟨hover, hsame⟩
  | cancels => exact ⟨hover, hsame⟩
  | stops => exact ⟨hover, hsame⟩
  | wakes =>
      have hwake : w'.wake = w' := by
        rw [wake, hover]
      rw [after, hwake]
      exact ⟨hover, hsame⟩

theorem outcome?_of_over (h : w.stage = .over outcome) : w.outcome? = some outcome := by
  rw [outcome?, h]

/-! ### Once the request is given up -/

/-- The request was told to end, so that the exchange can only end as a cancelled one. -/
structure Aborts (w : Watch) (x : Exchange) : Prop where
  exchange : w.exchange = x
  aborted : w.aborted = true
  stage : w.stage = .aborting ∨ w.stage = .over (x.cancelled "in-flight request aborted")

theorem Aborts.after (h : Aborts w x) (event : Event) : Aborts (w.after event) x := by
  obtain ⟨rfl, haborted, hstage⟩ := h
  cases event with
  | sends =>
      have hsame : w.send = w := by
        refine send_of_ne (.inl fun hwatching => ?_)
        rw [hwatching] at hstage
        rcases hstage with hstage | hstage <;> cases hstage
      rw [Watch.after, hsame]
      exact ⟨rfl, haborted, hstage⟩
  | ends reply =>
      simp only [Watch.after, finish]
      split <;> exact ⟨rfl, haborted, hstage⟩
  | cancels => exact ⟨rfl, haborted, hstage⟩
  | stops => exact ⟨rfl, haborted, hstage⟩
  | wakes =>
      rcases hstage with hstage | hstage
      · simp only [Watch.after, wake, hstage]
        split
        · exact ⟨rfl, haborted, .inr rfl⟩
        · exact ⟨rfl, haborted, .inl hstage⟩
      · simp only [Watch.after, wake, hstage]
        exact ⟨rfl, haborted, .inr hstage⟩

theorem Aborts.foldl_after (h : Aborts w x) (events : List Event) :
    Aborts (events.foldl Watch.after w) x := by
  refine List.foldlRecOn (motive := (Aborts · x)) events Watch.after h fun w' hw event _ => ?_
  exact hw.after event

theorem Aborts.eq_of_outcome? (h : Aborts w x) (houtcome : w.outcome? = some outcome) :
    x.IsCancellation "in-flight request aborted" outcome := by
  rw [outcome?] at houtcome
  rcases h.stage with hstage | hstage
  · rw [hstage] at houtcome
    cases houtcome
  · rw [hstage] at houtcome
    cases houtcome
    rfl

/-- A request that has ended has ended for good. -/
theorem isSome_ended?_foldl_after (h : w.ended?.isSome = true) (events : List Event) :
    (events.foldl after w).ended?.isSome = true := by
  refine List.foldlRecOn (motive := fun w => w.ended?.isSome = true) events after h
    fun w h event _ => ?_
  have hended : ∀ w' : Watch, w'.request = w.request → w'.ended?.isSome = true := by
    intro w' hsame
    rw [ended?, hsame]
    exact h
  cases event with
  | sends =>
      simp only [after, send]
      split
      · rename_i hpending
        rw [ended?, hpending] at h
        cases h
      · exact h
  | ends reply =>
      simp only [after, finish]
      split
      · exact h
      · rfl
  | cancels => exact hended _ rfl
  | stops => exact hended _ rfl
  | wakes =>
      refine hended _ ?_
      simp only [after, wake]
      repeat' split
      all_goals rfl

theorem isSome_ended?_finish (w : Watch) (reply : Reply) : (w.finish reply).ended?.isSome = true := by
  rw [finish]
  split
  · rename_i outcome hrequest
    rw [ended?, hrequest]
    rfl
  · rfl

/-- Once the request that was given up has ended, the exchange is over when it wakes. -/
theorem Aborts.wake_of_ended (h : Aborts w x) (hended : w.ended?.isSome = true) :
    w.wake.stage = .over (x.cancelled "in-flight request aborted") := by
  rcases h.stage with hstage | hstage
  · rw [Watch.wake, hstage]
    simp only [hended, Bool.true_or, if_true, h.exchange]
  · rw [Watch.wake, hstage]
    exact hstage

/-! ### What is sent -/

/-- Nothing is sent before the first step of the request, and one request at most by it. -/
structure SendsOnce (w : Watch) : Prop where
  once : w.sent.length ≤ 1
  fresh : w.request = .pending → w.sent = []

theorem SendsOnce.after (h : SendsOnce w) (event : Event) : SendsOnce (w.after event) := by
  cases event with
  | sends =>
      simp only [Watch.after, send]
      split
      · rename_i hpending
        split
        · refine ⟨?_, fun h => by cases h⟩
          rw [h.fresh hpending]
          exact Nat.le_refl 1
        · exact ⟨h.once, fun h => by cases h⟩
      · exact h
  | ends reply =>
      simp only [Watch.after, finish]
      split
      · exact h
      · exact ⟨h.once, fun h => by cases h⟩
  | cancels => exact ⟨h.once, h.fresh⟩
  | stops => exact ⟨h.once, h.fresh⟩
  | wakes =>
      simp only [Watch.after, wake]
      repeat' split
      all_goals exact ⟨h.once, h.fresh⟩

theorem sendsOnce_play (x : Exchange) (signalledBefore : Bool) (events : List Event) :
    SendsOnce (play x signalledBefore events) := by
  refine List.foldlRecOn events Watch.after ⟨Nat.zero_le 1, fun _ => rfl⟩ fun w' hw event _ => ?_
  exact hw.after event

/-! ### What decides -/

/-- Either nothing is decided, or there is a first wake at which something had finished. -/
theorem undecided_or_exists (x : Exchange) (events : List Event) :
    Undecided x events ∨ ∃ before late, events = before ++ .wakes :: late ∧ Undecided x before ∧
      (ending? x before ≠ none ∨ .cancels ∈ before) := by
  induction events using List.reverseRecOn with
  | nil => exact .inl undecided_nil
  | append_singleton events event ih =>
      rcases ih with hundecided | ⟨before, late, rfl, hbefore, hfinished⟩
      · by_cases hfinished : event = .wakes ∧ (ending? x events ≠ none ∨ .cancels ∈ events)
        · obtain ⟨rfl, hfinished⟩ := hfinished
          exact .inr ⟨events, [], rfl, hundecided, hfinished⟩
        · refine .inl (undecided_concat_iff.mpr ⟨hundecided, fun hwakes => ?_⟩)
          by_contra hsome
          refine hfinished ⟨hwakes, ?_⟩
          by_contra hnone
          rw [not_or, not_not] at hnone
          exact hsome hnone
      · exact .inr ⟨before, late ++ [event], by simp, hbefore, hfinished⟩

/-- The order of what happens decides how an exchange ends that nobody stops. Where the signal is set
before it begins, it sends nothing and was cancelled. Otherwise nothing is decided before it wakes and
its request has ended or the signal is set, and at the first such wake it is. A request that has ended by
then makes the exchange end as it ended, even if the signal is set. A request that has not is given up:
whatever it brings later, the exchange ends as a cancelled one with its chunk and the address of its
worker, and does so when it wakes after the end of the request. Never is more than one request sent. -/
theorem decided_when_it_wakes (x : Exchange) {events : List Event} (hstops : .stops ∉ events) :
    ((play x true events).sent = [] ∧ ∃ outcome, (play x true events).outcome? = some outcome ∧
      x.IsCancellation "cancelled before the request was sent" outcome) ∧
    (∀ before late, events = before ++ .wakes :: late → Undecided x before →
      (∀ outcome, ending? x before = some outcome →
        (play x false events).outcome? = some outcome ∧ (play x false events).aborted = false) ∧
      (ending? x before = none → .cancels ∈ before →
        (play x false events).aborted = true ∧
        (∀ outcome, (play x false events).outcome? = some outcome →
          x.IsCancellation "in-flight request aborted" outcome) ∧
        ∀ middle reply rest, late = middle ++ .wakes :: rest → .ends reply ∈ middle →
          ∃ outcome, (play x false events).outcome? = some outcome)) ∧
    (Undecided x events →
      (play x false events).outcome? = none ∧ (play x false events).aborted = false) ∧
    (Undecided x events ∨ ∃ before late, events = before ++ .wakes :: late ∧ Undecided x before ∧
      (ending? x before ≠ none ∨ .cancels ∈ before)) ∧
    ∀ signalledBefore, (play x signalledBefore events).sent.length ≤ 1 := by
  refine ⟨?_, fun before late hsplit hundecided => ?_, fun hundecided => ?_,
    undecided_or_exists x events, fun signalledBefore => (sendsOnce_play x signalledBefore events).once⟩
  · have hover : (start x true).stage =
        .over (x.cancelled "cancelled before the request was sent") := rfl
    obtain ⟨hover, -, hsent⟩ := foldl_after_of_over hover events
    exact ⟨hsent, _, outcome?_of_over hover, rfl⟩
  · subst hsplit
    have hwatches : Watches (play x false before) x before :=
      watches_play (fun h => hstops (List.mem_append_left _ h)) hundecided
    rw [play_append, List.foldl_cons, after]
    refine ⟨fun outcome hend => ?_, fun hend hcancels => ?_⟩
    · rw [hwatches.wake_of_ended hend]
      obtain ⟨hover, haborted, -⟩ := foldl_after_of_over
        (w := { play x false before with stage := .over outcome }) rfl late
      exact ⟨outcome?_of_over hover, haborted.trans hwatches.aborted⟩
    · have haborts : Aborts (play x false before).wake x := by
        rw [hwatches.wake_of_signalled hend hcancels]
        exact ⟨hwatches.exchange, rfl, .inl rfl⟩
      have hlate := haborts.foldl_after late
      refine ⟨hlate.aborted, fun outcome houtcome => hlate.eq_of_outcome? houtcome, ?_⟩
      rintro middle reply rest rfl hends
      -- The end of the request is behind it when the exchange wakes the next time.
      obtain ⟨front, back, rfl⟩ := List.append_of_mem hends
      have hmiddle := haborts.foldl_after (front ++ .ends reply :: back)
      rw [List.foldl_append, List.foldl_cons] at hmiddle
      rw [List.foldl_append, List.foldl_cons, List.foldl_append, List.foldl_cons]
      have hended := isSome_ended?_foldl_after
        (isSome_ended?_finish (front.foldl after (play x false before).wake) reply) back
      exact ⟨_, outcome?_of_over (foldl_after_of_over (hmiddle.wake_of_ended hended) rest).1⟩
  · have hwatches := watches_play hstops hundecided
    refine ⟨?_, hwatches.aborted⟩
    rw [outcome?, hwatches.stage]

end Watch

namespace Sample

/-- An exchange without entries. -/
def watched : Exchange :=
  ⟨3, ⟨"http://worker-3:4000", .mock, .number 3, 3⟩, .int 60, []⟩

/-- The signal is set while the request is under way, which then runs out of time. -/
def outOfTime : List Watch.Event :=
  [.sends, .cancels, .wakes, .ends .timedOut, .wakes]

end Sample

namespace Watch

theorem decided_when_it_wakes_late : .stops ∉ Sample.outOfTime ∧
    (play Sample.watched false Sample.outOfTime).aborted = true ∧
    ∃ outcome, (play Sample.watched false Sample.outOfTime).outcome? = some outcome ∧
      Sample.watched.IsCancellation "in-flight request aborted" outcome := by
  have hstops : .stops ∉ Sample.outOfTime := by simp [Sample.outOfTime]
  have hend : ending? Sample.watched [.sends, .cancels] = none := by
    rw [← Option.isNone_iff_eq_none]
    decide +kernel
  have hsends : Undecided Sample.watched ([] ++ [.sends]) :=
    undecided_concat_iff.mpr ⟨undecided_nil, nofun⟩
  have hundecided : Undecided Sample.watched ([.sends] ++ [.cancels]) :=
    undecided_concat_iff.mpr ⟨hsends, nofun⟩
  obtain ⟨haborted, hcancelled, hover⟩ :=
    ((decided_when_it_wakes Sample.watched hstops).2.1 [.sends, .cancels] [.ends .timedOut, .wakes]
      rfl hundecided).2 hend (by simp)
  obtain ⟨outcome, houtcome⟩ := hover [.ends .timedOut] .timedOut [] rfl (by simp)
  exact ⟨hstops, haborted, outcome, houtcome, hcancelled outcome houtcome⟩

/-! ### What a run can tell -/

/-- How the exchange ends, or will end once the request that it gave up has ended. -/
def decided? (w : Watch) : Option Outcome :=
  match w.stage with
  | .watching => none
  | .aborting => some (w.exchange.cancelled "in-flight request aborted")
  | .over outcome => some outcome

/-- What the exchange finds when it wakes, given the reply and the signal that there are already. -/
def heard (reply? : Option Reply) (signalled : Bool) : List Event → List Exchange.Wake
  | [] => []
  | .ends reply :: rest => heard (some (reply?.getD reply)) signalled rest
  | .cancels :: rest => heard reply? true rest
  | .wakes :: rest => ⟨reply?, signalled, false⟩ :: heard reply? signalled rest
  | _ :: rest => heard reply? signalled rest

theorem decided?_foldl_after_of_over (h : w.stage = .over outcome) (events : List Event) :
    (events.foldl after w).decided? = some outcome := by
  rw [decided?, (foldl_after_of_over h events).1]

theorem Aborts.decided?_eq (h : Aborts w x) :
    w.decided? = some (x.cancelled "in-flight request aborted") := by
  rw [decided?]
  rcases h.stage with hstage | hstage
  · rw [hstage, h.exchange]
  · rw [hstage]

/-- After its first step a request sends nothing more. -/
theorem sent_foldl_after (h : w.request ≠ .pending) (events : List Event) :
    (events.foldl after w).sent = w.sent := by
  refine (List.foldlRecOn (motive := fun w' => w'.request ≠ .pending ∧ w'.sent = w.sent)
    events after ⟨h, rfl⟩ fun w' hw event _ => ?_).2
  obtain ⟨hpending, hsame⟩ := hw
  cases event with
  | sends =>
      rw [after, send_of_ne (.inr hpending)]
      exact ⟨hpending, hsame⟩
  | ends reply =>
      simp only [after, finish]
      split
      · exact ⟨hpending, hsame⟩
      · exact ⟨Request.noConfusion, hsame⟩
  | cancels => exact ⟨hpending, hsame⟩
  | stops => exact ⟨hpending, hsame⟩
  | wakes =>
      simp only [after, wake]
      repeat' split
      all_goals exact ⟨hpending, hsame⟩

/-- An exchange whose request took its first step is decided by its wakes. -/
theorem Watches.decided?_foldl_after {reply? : Option Reply} {before : List Event}
    (h : Watches w x before) (hpending : w.request ≠ .pending)
    (hreply : w.ended? = reply?.map x.judge) (hstops : .stops ∉ events) :
    (events.foldl Watch.after w).decided? = x.await (heard reply? w.signalled events) := by
  induction events generalizing w reply? before with
  | nil =>
      rw [List.foldl_nil, decided?, h.stage]
      rfl
  | cons event rest ih =>
      rw [List.mem_cons, not_or] at hstops
      obtain ⟨hevent, hstops⟩ := hstops
      rw [List.foldl_cons]
      cases event with
      | sends =>
          rw [Watch.after, send_of_ne (.inr hpending)]
          exact ih h hpending hreply hstops
      | ends reply =>
          have hfinish : (w.finish reply).ended? = (some (reply?.getD reply)).map x.judge := by
            rw [(h.finish reply).ended, ending?_append, ← h.ended, hreply]
            cases reply? with
            | none => simp [ending?, Event.ending?]
            | some _ => rfl
          have hsignalled : (w.finish reply).signalled = w.signalled := by
            rw [Watch.finish]
            split <;> rfl
          have hended := isSome_ended?_finish w reply
          rw [heard, ← hsignalled]
          refine ih (h.finish reply) (fun hrequest => ?_) hfinish hstops
          change (w.finish reply).request = .pending at hrequest
          rw [ended?, hrequest] at hended
          cases hended
      | cancels => exact ih h.cancel hpending hreply hstops
      | stops => exact absurd rfl hevent
      | wakes =>
          rw [heard, Exchange.await, Watch.after]
          cases reply? with
          | some reply =>
              rw [h.wake_of_ended (h.ended.symm.trans hreply)]
              exact decided?_foldl_after_of_over rfl rest
          | none =>
              have hend : ending? x before = none := h.ended.symm.trans hreply
              by_cases hcancels : .cancels ∈ before
              · have haborts : Aborts w.wake x := by
                  rw [h.wake_of_signalled hend hcancels]
                  exact ⟨h.exchange, rfl, .inl rfl⟩
                simp only [h.signalled.mpr hcancels, if_true]
                exact (haborts.foldl_after rest).decided?_eq
              · rw [h.wake_of_nothing hend hcancels]
                simp only [h.not_signalled hcancels, Bool.false_eq_true, if_false]
                rw [ih h hpending hreply hstops, h.not_signalled hcancels]

/-- What a run takes for the outcome of an exchange, from what the exchange finds when it wakes, is how
the exchange ends, and what it takes for sent is sent. -/
theorem agrees_with_play (x : Exchange) (signalledBefore : Bool) {events : List Event}
    (hstops : .stops ∉ events) :
    (play x signalledBefore (.sends :: .wakes :: events)).decided? =
        (x.play signalledBefore (heard none false events)).outcome? ∧
      (play x signalledBefore (.sends :: .wakes :: events)).sent =
        (x.play signalledBefore (heard none false events)).sent := by
  unfold Exchange.play
  cases signalledBefore with
  | true =>
      have hover : (start x true).stage =
          .over (x.cancelled "cancelled before the request was sent") := rfl
      exact ⟨decided?_foldl_after_of_over hover _, (foldl_after_of_over hover _).2.2⟩
  | false =>
      rw [if_neg Bool.false_ne_true]
      have hfirst := (watches_start (x := x)).send
      change (events.foldl after (start x false).send.wake).decided? = _ ∧
        (events.foldl after (start x false).send.wake).sent = _
      cases hrequest : x.request with
      | ok sent =>
          rw [send_of_ok rfl rfl hrequest] at hfirst ⊢
          have hend : ending? x ([] ++ [.sends]) = none := hfirst.ended.symm
          rw [hfirst.wake_of_nothing hend (by simp)]
          exact ⟨hfirst.decided?_foldl_after Request.noConfusion rfl hstops,
            sent_foldl_after Request.noConfusion events⟩
      | error failure =>
          rw [send_of_error rfl rfl hrequest] at hfirst ⊢
          rw [hfirst.wake_of_ended hfirst.ended.symm]
          exact ⟨decided?_foldl_after_of_over rfl events, (foldl_after_of_over rfl events).2.2⟩

end Watch

end SumTree
