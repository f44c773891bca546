import SumTree.Proofs.Run.States
import SumTree.Proofs.Run.Winding

/-!
# Exchanges that end before the workers are given back

A run gives its workers back when each of its exchanges has ended, whatever the workers answer, whenever
the caller cancels, and in whatever way the wait ends. There are two such ways. Either all exchanges have
ended by themselves, or the run has chosen a failure while some are pending. It has done so when it
collected, and at that moment the pending exchanges are those that are running
(`exists_moment_of_failed`), so that what follows is a course of `Winding` from there.

## Main Definitions

* `Event.ofExchanges` — whether an event belongs to the exchanges of a run.
* `WoundUp` — how the exchanges of a run have come to their end.
-/

namespace SumTree

open Orchestrator

/-! ### The moment of a failure -/

namespace Proceedings

variable {xs : List Exchange} {happenings : List Happening}

/-- Every round was added by a collection. -/
theorem exists_collects {front back : List Round} {r : Round}
    (h : (play xs happenings).rounds = front ++ r :: back) :
    ∃ early seesSignal stopped resisting late,
      happenings = early ++ .collects seesSignal stopped resisting :: late ∧
        (play xs early).rounds = front ∧
        r = ⟨(play xs early).finished, (play xs early).signalled && seesSignal, stopped,
          resisting⟩ := by
  induction happenings using List.reverseRecOn generalizing back with
  | nil => exact absurd h (by simp [play, start])
  | append_singleton earlier last ih =>
      rw [play_append, List.foldl_cons, List.foldl_nil] at h
      have hbefore : ∀ {back : List Round}, (play xs earlier).rounds = front ++ r :: back →
          ∃ early seesSignal stopped resisting late,
            earlier ++ [last] = early ++ .collects seesSignal stopped resisting :: late ∧
              (play xs early).rounds = front ∧
              r = ⟨(play xs early).finished, (play xs early).signalled && seesSignal, stopped,
                resisting⟩ := by
        intro back h
        obtain ⟨early, seesSignal, stopped, resisting, late, hsplit, hrest⟩ := ih h
        refine ⟨early, seesSignal, stopped, resisting, late ++ [last], ?_, hrest⟩
        rw [hsplit, List.append_assoc, List.cons_append]
      cases last with
      | collects seesSignal stopped resisting =>
          rcases List.eq_nil_or_concat back with rfl | ⟨more, other, rfl⟩
          · obtain ⟨hfront, hr⟩ := List.append_inj' h rfl
            cases hr
            exact ⟨earlier, seesSignal, stopped, resisting, [], rfl, hfront, rfl⟩
          · rw [List.concat_eq_append, ← List.cons_append, ← List.append_assoc] at h
            exact hbefore (List.append_inj' h rfl).1
      | _ => exact hbefore h

/-- When the last round brings all that have ended, those that no round has brought are running. -/
theorem pending_eq_running {replied : Nat → Reply → Prop} {p : Proceedings} (h : p.Sound xs replied)
    {r : Round} (hr : r ∈ p.rounds) (hfinished : r.finished = p.finished) :
    ((Waiting.start p.addresses).afterAll p.rounds).pending = p.running := by
  rw [Waiting.afterAll_pending, running, Progress.running, Waiting.start, addresses, List.length_map]
  refine List.filter_congr fun chunk _ => ?_
  refine congrArg Option.isNone (?_ : firstOutcome p.rounds chunk = _)
  cases hfirst : firstOutcome p.rounds chunk with
  | none =>
      rw [firstOutcome_eq_none_iff] at hfirst
      rw [← lookup_finished, ← hfinished, hfirst r hr]
  | some outcome =>
      obtain ⟨round, hround, hlookup⟩ := exists_round_of_firstOutcome hfirst
      exact (h.brought round hround chunk outcome hlookup).symm

/-- The moment at which the wait fails: the run collects, and at once chooses its failure and sets the
signal. The exchanges that are pending then are those that are running. -/
theorem exists_moment_of_failed {e : RunError} {pending resisting : List Nat} {stoppedLater : Bool}
    (h : (play xs happenings).ending = .failed e pending resisting stoppedLater) :
    ∃ early seesSignal stopped resists late,
      happenings = early ++ .collects seesSignal stopped resists :: late ∧
        (play xs early).ending = .unfinished ∧
        let p := play xs (early ++ [.collects seesSignal stopped resists])
        p.ending.error? = some e ∧ p.signalled = true ∧ p.running = pending ∧
          resisting = pending.filter resists.contains := by
  have haddresses : ∀ happenings, (play xs happenings).addresses = xs.map fun x => x.handle.address :=
    fun happenings => (sound_play xs happenings).addresses
  rw [ending, Waiting.distribute_eq, haddresses] at h
  obtain ⟨front, r, back, hrounds, hundecided, hpending, hverdict⟩ :=
    Waiting.exists_of_error?_collect (congrArg Ending.error? h)
  obtain ⟨early, seesSignal, stopped, resists, late, hsplit, hfront, hr⟩ := exists_collects hrounds
  refine ⟨early, seesSignal, stopped, resists, late, hsplit, ?_, ?_⟩
  · rw [ending, Waiting.distribute_eq, haddresses, hfront]
    exact Waiting.collect_of_lasts hundecided hpending
  intro p
  have hp : p = (play xs early).collect r := by
    rw [hr]
    exact play_append xs early _
  have hnow : p.rounds = front ++ [r] := by
    rw [hp, ← hfront]
    rfl
  have hfails : p.ending = .failed e
      ((Waiting.start p.addresses).afterAll (front ++ [r])).pending
      (((Waiting.start p.addresses).afterAll (front ++ [r])).pending.filter r.resisting.contains)
      false := by
    rw [ending, hnow, Waiting.distribute_eq, haddresses]
    exact Waiting.collect_append_of_verdict hundecided hpending hverdict []
  have hrunning : ((Waiting.start p.addresses).afterAll (front ++ [r])).pending = p.running := by
    rw [← hnow]
    refine pending_eq_running (sound_play xs _) (r := r) (by simp [hnow]) ?_
    rw [hr, hp]
    rfl
  rw [hrounds, Waiting.collect_append_of_verdict hundecided hpending hverdict,
    ← haddresses (early ++ [.collects seesSignal stopped resists])] at h
  obtain ⟨-, rfl, rfl, -⟩ := Ending.failed.inj h
  refine ⟨congrArg Ending.error? hfails, ?_, hrunning.symm, ?_⟩
  · have hbroken : p.signalled = ((play xs early).signalled || p.ending.isBroken) := by
      rw [hp]
      rfl
    rw [hbroken, hfails, Ending.isBroken, Bool.or_true]
  · rw [hr]

end Proceedings

/-! ### Events of the exchanges -/

/-- Whether an event belongs to the exchanges of a run. -/
def Event.ofExchanges : Event → Bool
  | .connected | .sent .. | .signalled | .aborted _ | .ended _ => true
  | .entered _ | .logged _ | .acquired _ | .released _ => false

/-- No exchange ends in events that do not belong to the exchanges. -/
theorem ended_of_apart {events : List Event} (h : ∀ event ∈ events, event.ofExchanges = false) :
    events.filterMap Event.ended? = [] := by
  refine List.filterMap_eq_nil_iff.mpr fun event hevent => ?_
  cases event with
  | ended chunk => cases h _ hevent
  | _ => rfl

namespace Orchestrator

theorem ended_requests (p : Proceedings) : (requests p).filterMap Event.ended? = [] := by
  refine List.filterMap_eq_nil_iff.mpr fun event hevent => ?_
  obtain ⟨x, -, hevent⟩ := List.mem_flatMap.mp hevent
  obtain ⟨sent, -, rfl⟩ := List.mem_map.mp hevent
  rfl

theorem apart_begun (entries : List Entry) (executors : Int) (journal : List LogRecord)
    (handles : List Handle) :
    ∀ event ∈ begun entries executors ++ journal.map .logged ++ [.acquired handles],
      event.ofExchanges = false := by
  intro event hevent
  simp only [begun, List.mem_append, List.mem_map, List.mem_singleton] at hevent
  rcases hevent with ((⟨text, -, rfl⟩ | rfl) | ⟨record, -, rfl⟩) | rfl <;> rfl

/-- Workers are given back in one event, after which there are only lines of the journal. -/
theorem exists_events_giveBack {σ : Type} (c : Circumstances σ) (handles : List Handle) (s : σ) :
    ∃ records : List LogRecord,
      (giveBack c handles s).2.1 = .released handles :: records.map .logged := by
  rw [giveBack]
  generalize (c.spawner.release handles).perform ⟨s, []⟩ = performed
  obtain ⟨result, after⟩ := performed
  dsimp only
  split
  · exact ⟨after.journal, rfl⟩
  · rename_i e
    refine ⟨after.journal ++ [⟨.warning, e.message⟩], ?_⟩
    rw [List.map_append]
    rfl
  · rename_i failure _
    refine ⟨after.journal ++ [⟨.warning, "Worker release failed: " ++ failure.text⟩], ?_⟩
    rw [List.map_append]
    rfl

/-- A run that is not stopped gives its workers back right after it has held them, if at all, and what
comes later does not belong to the exchanges. -/
theorem events_conclude_unstopped {σ : Type} {h : Holding} (hheld : h.held ≠ .stopped) (o : Orchestrator)
    (c : Circumstances σ) (handles : List Handle) (chunkCount : Nat) (opening : List Event) (s : σ) :
    if h.held.handsBack then
      ∃ closing, (∀ event ∈ closing, event.released? = none ∧ event.ofExchanges = false) ∧
        (conclude o c handles chunkCount opening h s).events =
          opening ++ h.events ++ .released handles :: closing
    else (conclude o c handles chunkCount opening h s).events = opening ++ h.events := by
  obtain ⟨records, hback⟩ := exists_events_giveBack c handles s
  have hquiet : ∀ rest : List Event,
      (∀ event ∈ rest, event.released? = none ∧ event.ofExchanges = false) →
      ∀ event ∈ records.map Event.logged ++ rest,
        event.released? = none ∧ event.ofExchanges = false := by
    intro rest hrest event hevent
    rcases List.mem_append.mp hevent with hlogged | hlate
    · obtain ⟨record, -, rfl⟩ := List.mem_map.mp hlogged
      exact ⟨rfl, rfl⟩
    · exact hrest event hlate
  rw [conclude]
  generalize giveBack c handles s = given at hback
  obtain ⟨cleanup?, released, next⟩ := given
  dsimp only at hback
  subst hback
  cases hend : h.held with
  | tree t =>
      refine ⟨_, hquiet [.entered .completed] ?_, ?_⟩
      · simp [Event.released?, Event.ofExchanges]
      · simp only [List.append_assoc, List.cons_append]
  | error e =>
      refine ⟨_, hquiet [.entered (if e.isCancellation then .cancelled else .failed),
        errorLine ("Run failed: " ++ e.message)] ?_, ?_⟩
      · simp [errorLine, Event.released?, Event.ofExchanges]
      · simp only [List.append_assoc, List.cons_append]
  | stopped => exact absurd hend hheld
  | escape failure => rfl
  | unfinished => rfl

/-- The only place at which such a run gives workers back. -/
theorem of_split_conclude {σ : Type} {o : Orchestrator} {c : Circumstances σ} {handles : List Handle}
    {chunkCount : Nat} {opening : List Event} {h : Holding} {s : σ} {before after : List Event}
    {handles' : List Handle} (hheld : h.held ≠ .stopped)
    (hquiet : (opening ++ h.events).filterMap Event.released? = [])
    (hsplit : (conclude o c handles chunkCount opening h s).events =
      before ++ .released handles' :: after) :
    h.held.handsBack = true ∧ handles = handles' ∧ opening ++ h.events = before ∧
      ∀ event ∈ after, event.ofExchanges = false := by
  have hnone : ∀ {events : List Event}, events.filterMap Event.released? = [] →
      .released handles' ∉ events := by
    intro events hnil hmem
    cases List.filterMap_eq_nil_iff.mp hnil _ hmem
  have hevents := events_conclude_unstopped hheld o c handles chunkCount opening s
  rw [hsplit] at hevents
  cases hback : h.held.handsBack with
  | false =>
      rw [hback, if_neg Bool.false_ne_true] at hevents
      refine absurd ?_ (hnone hquiet)
      exact hevents ▸ List.mem_append_right before List.mem_cons_self
  | true =>
      rw [hback, if_pos rfl] at hevents
      obtain ⟨closing, hclosing, hevents⟩ := hevents
      have hlate : closing.filterMap Event.released? = [] :=
        List.filterMap_eq_nil_iff.mpr fun event hevent => (hclosing event hevent).1
      obtain ⟨hbefore, hhandles, rfl⟩ :=
        (List.append_cons_inj_of_notMem (hnone hquiet) (hnone hlate)).mp hevents.symm
      exact ⟨rfl, Event.released.inj hhandles, hbefore, fun event hevent => (hclosing event hevent).2⟩

end Orchestrator

/-! ### How exchanges come to their end -/

/-- How the exchanges `xs`, to which some things have happened, have come to their end, by what the run
has recorded when it gives its workers back. -/
inductive WoundUp (grace : Number) (xs : List Exchange) (happenings : List Happening)
    (before : List Event) : Prop
  /-- All of them have ended by themselves, and the run has told none of them to end. -/
  | undisturbed (none : (Proceedings.play xs happenings).running = [])
      (ended : before.filterMap Event.ended? = List.range xs.length)
      (unsignalled : .signalled ∉ before) (unaborted : ∀ chunk, .aborted chunk ∉ before)
  /-- The run has chosen a failure as soon as it collected one, and has set the signal. It has waited
  from there for the exchanges that were running, and has aborted those that resisted until the end of
  the grace period. -/
  | brokenOff (early late : List Happening) (seesSignal : Bool) (resists : List Nat) (e : RunError)
      (p : Proceedings) (turns : List Winding.Turn) (front : List Event)
      (split : happenings = early ++ .collects seesSignal false resists :: late)
      (undecided : (Proceedings.play xs early).ending = .unfinished)
      (moment : p = Proceedings.play xs (early ++ [.collects seesSignal false resists]))
      (failed : p.ending.error? = some e) (signalled : p.signalled = true)
      (ended : front.filterMap Event.ended? =
        (List.range xs.length).filter fun chunk => !p.running.contains chunk)
      (spared : ∀ chunk, .aborted chunk ∉ front)
      (finished : (Winding.course grace e p turns).stage = .over)
      (stragglers : (Winding.course grace e p turns).stragglers =
        if hasGrace grace then p.running.filter resists.contains else p.running)
      (events : before = front ++ .signalled :: (Winding.course grace e p turns).events)

namespace WoundUp

variable {grace : Number} {xs : List Exchange} {happenings : List Happening} {before : List Event}

/-- Each exchange has ended, and has done so once. -/
theorem perm_ended (h : WoundUp grace xs happenings before) :
    (before.filterMap Event.ended?).Perm (List.range xs.length) := by
  cases h with
  | undisturbed none ended unsignalled unaborted => exact .of_eq ended
  | brokenOff early late seesSignal resists e p turns front split undecided moment failed signalled
      ended spared finished stragglers events =>
      have hlength : p.progress.length = xs.length := by
        rw [moment]
        exact (Proceedings.sound_play xs _).length_progress
      have hrunning : (List.range xs.length).filter p.running.contains = p.running := by
        rw [← hlength]
        refine List.filter_congr fun chunk hchunk => ?_
        rw [Bool.eq_iff_iff, List.contains_iff_mem, Proceedings.running, Progress.mem_running,
          Option.isNone_iff_eq_none]
        exact and_iff_right (List.mem_range.mp hchunk)
      have hlate : (Event.signalled :: (Winding.course grace e p turns).events).filterMap
          Event.ended? = (Winding.course grace e p turns).events.filterMap Event.ended? := rfl
      rw [events, List.filterMap_append, ended, hlate]
      refine ((Winding.perm_ended_of_over finished).append_left _).trans ?_
      nth_rewrite 2 [← hrunning]
      exact List.perm_append_comm.trans (List.filter_append_perm _ _)

/-- An exchange is aborted after the signal was set, and has not ended by then. -/
theorem exists_split_of_aborted (h : WoundUp grace xs happenings before) {chunk : Nat}
    (haborted : .aborted chunk ∈ before) :
    ∃ front middle back, before = front ++ .signalled :: (middle ++ .aborted chunk :: back) ∧
      .ended chunk ∉ front ∧ .ended chunk ∉ middle ∧ .ended chunk ∈ back := by
  cases h with
  | undisturbed none ended unsignalled unaborted => exact absurd haborted (unaborted chunk)
  | brokenOff early late seesSignal resists e p turns front split undecided moment failed signalled
      ended spared finished stragglers events =>
      have hmem : chunk ∈ (Winding.course grace e p turns).stragglers := by
        rw [events] at haborted
        rcases List.mem_append.mp haborted with hfront | hback
        · exact absurd hfront (spared chunk)
        · rcases List.mem_cons.mp hback with hsignal | hcourse
          · cases hsignal
          · exact Winding.mem_stragglers_iff.mp hcourse
      have hrunning : chunk ∈ p.running := by
        rw [stragglers] at hmem
        split at hmem
        · exact (List.mem_filter.mp hmem).1
        · exact hmem
      obtain ⟨middle, back, hsplit, hmiddle, hback⟩ := Winding.exists_split_of_straggler finished hmem
      refine ⟨front, middle, back, by rw [events, hsplit], fun hended => ?_, hmiddle, hback⟩
      rw [← Event.mem_ended_iff, ended] at hended
      simpa [hrunning] using (List.mem_filter.mp hended).2

end WoundUp

namespace Orchestrator

theorem connected_mem_exchangeAll (config : RunConfig) (missing : Nat) (p : Proceedings) :
    .connected ∈ (exchangeAll config missing p).events := by
  rw [exchangeAll]
  cases p.ending with
  | failed e pending resisting stoppedLater =>
      dsimp only
      split <;> exact List.mem_cons_self
  | _ => exact List.mem_cons_self

/-- What happens until the wait of a run ends while some exchanges are pending. -/
def awaited (opening : List Event) (p : Proceedings) (pending : List Nat) : List Event :=
  opening ++ .entered .distributing :: ([.connected, .entered .awaiting] ++ requests p ++
    settled p.progress.length pending)

section Exchanges

variable {opening : List Event} (hopening : ∀ event ∈ opening, event.ofExchanges = false)
  (p : Proceedings) (pending : List Nat)

include hopening

/-- Until the wait ends, the exchanges that are not pending end. -/
theorem ended_awaited : (awaited opening p pending).filterMap Event.ended? =
    (List.range p.progress.length).filter fun chunk => !pending.contains chunk := by
  have hquiet : ∀ rest : List Event, (Event.entered .distributing ::
      ([.connected, .entered .awaiting] ++ rest)).filterMap Event.ended? =
      rest.filterMap Event.ended? := fun _ => rfl
  rw [awaited, List.append_assoc, List.filterMap_append, ended_of_apart hopening, hquiet,
    List.filterMap_append, ended_requests, settled, Event.ended_map_ended]
  rfl

/-- Until the wait ends, no exchange is told to end. -/
theorem spared_awaited : ∀ event ∈ awaited opening p pending,
    event ≠ .signalled ∧ ∀ chunk, event ≠ .aborted chunk := by
  intro event hevent
  rcases List.mem_append.mp hevent with hopen | hevent
  · refine ⟨?_, fun chunk => ?_⟩ <;>
      (rintro rfl; cases hopening _ hopen)
  · simp only [settled, requests, List.mem_cons, List.mem_append, List.mem_flatMap, List.mem_map,
      List.not_mem_nil, or_false] at hevent
    rcases hevent with rfl | ((rfl | rfl) | ⟨x, -, sent, -, rfl⟩) | ⟨ended, -, rfl⟩ <;>
      exact ⟨Event.noConfusion, fun chunk => Event.noConfusion⟩

variable {xs : List Exchange} {happenings : List Happening} (config : RunConfig) (missing : Nat)

/-- Exchanges that all bring their trees have ended by themselves. -/
theorem woundUp_of_complete {trees : List MiniTree}
    (hcomplete : (Proceedings.play xs happenings).ending = .complete trees) :
    WoundUp config.gracePeriod xs happenings (opening ++ .entered .distributing ::
      (exchangeAll config missing (Proceedings.play xs happenings)).events) := by
  have hlength : (Proceedings.play xs happenings).progress.length = xs.length :=
    (Proceedings.sound_play xs happenings).length_progress
  have hevents : opening ++ .entered .distributing ::
      (exchangeAll config missing (Proceedings.play xs happenings)).events =
        awaited opening (Proceedings.play xs happenings) [] ++ [.entered .aggregating] := by
    rw [exchangeAll, hcomplete, awaited, ← List.cons_append, ← List.append_assoc]
  have hspared : ∀ event ∈ awaited opening (Proceedings.play xs happenings) [] ++
      [.entered .aggregating], event ≠ .signalled ∧ ∀ chunk, event ≠ .aborted chunk := by
    intro event hevent
    rcases List.mem_append.mp hevent with hfront | hlast
    · exact spared_awaited hopening _ [] event hfront
    · rw [List.mem_singleton.mp hlast]
      exact ⟨Event.noConfusion, fun chunk => Event.noConfusion⟩
  rw [hevents]
  refine .undisturbed ?_ ?_ (fun hmem => (hspared _ hmem).1 rfl)
    fun chunk hmem => (hspared _ hmem).2 chunk rfl
  · refine Progress.running_eq_nil_iff.mpr fun x hx => ?_
    obtain ⟨outcome, houtcome⟩ := Proceedings.ended_of_complete hcomplete x hx
    exact ⟨outcome, by rw [Progress.outcome?, houtcome]⟩
  · have hall : (List.range xs.length).filter (fun chunk => !([] : List Nat).contains chunk) =
        List.range xs.length := List.filter_eq_self.mpr fun _ _ => rfl
    rw [List.filterMap_append, ended_awaited hopening, hlength, hall]
    exact List.append_nil _

/-- Exchanges of a run that fails have come to their end by what it does to the pending ones. -/
theorem woundUp_of_failed (hunstopped : Proceedings.Unstopped happenings) {e : RunError}
    {pending resisting : List Nat} {stoppedLater : Bool}
    (hfailed : (Proceedings.play xs happenings).ending =
      .failed e pending resisting stoppedLater) :
    WoundUp config.gracePeriod xs happenings (opening ++ .entered .distributing ::
      (exchangeAll config missing (Proceedings.play xs happenings)).events) := by
  have hlength : (Proceedings.play xs happenings).progress.length = xs.length :=
    (Proceedings.sound_play xs happenings).length_progress
  obtain ⟨early, seesSignal, stopped, resists, late, hsplit, hundecided, herror, hsignalled, hrunning,
    hresisting⟩ := Proceedings.exists_moment_of_failed hfailed
  have hgoing : stopped = false := by
    refine Bool.eq_false_iff.mpr fun hstopped => hunstopped seesSignal resists ?_
    rw [hsplit, hstopped]
    exact List.mem_append_right _ List.mem_cons_self
  rw [hgoing] at hsplit herror hsignalled hrunning
  have hlater : stoppedLater = false := Waiting.not_stoppedLater
    (fun r hr => Proceedings.unstopped_round hunstopped hr) hfailed
  have hevents : opening ++ .entered .distributing ::
      (exchangeAll config missing (Proceedings.play xs happenings)).events =
        awaited opening (Proceedings.play xs happenings) pending ++
          .signalled :: drain config.gracePeriod e pending resisting := by
    rw [exchangeAll, hfailed, hlater, awaited]
    simp
  obtain ⟨turns, hover, hcourse, hstragglers⟩ := Winding.exists_course_of_drain config.gracePeriod e
    (Proceedings.play xs (early ++ [.collects seesSignal false resists])) resists.contains
  refine .brokenOff early late seesSignal resists e _ turns
    (awaited opening (Proceedings.play xs happenings) pending) hsplit hundecided rfl herror hsignalled
    ?_ ?_ hover hstragglers ?_
  · rw [ended_awaited hopening, hlength, hrunning]
  · exact fun chunk hmem => (spared_awaited hopening _ pending _ hmem).2 chunk rfl
  · rw [hevents, hcourse, hrunning, hresisting]

end Exchanges

/-- Without a stop, a run is not stopped while it holds its workers. -/
theorem held_ne_stopped {σ : Type} {spawner : Spawning σ} {cancelledEarly : Bool}
    {connection : Except Failure Unit} {happenings : List Exchange → List Happening}
    (hunstopped : ∀ xs, Proceedings.Unstopped (happenings xs)) (config : RunConfig)
    (cancelled : Bool) (chunks : List (List Entry)) (handles : List Handle) :
    (hold (.amid spawner cancelledEarly connection happenings) config cancelled chunks
      handles).held ≠ .stopped := by
  intro hstopped
  cases cancelled with
  | true => cases hstopped
  | false =>
      cases hconnection : connection with
      | error failure =>
          rw [hold_of_unconnected config chunks handles hconnection] at hstopped
          cases failure <;> cases hstopped
      | ok opened =>
          rw [hold_of_connected config chunks handles hconnection] at hstopped
          rw [Circumstances.amid] at hstopped
          dsimp only at hstopped
          generalize exchanges config chunks handles = xs at hstopped
          cases hending : (Proceedings.play xs (happenings xs)).ending with
          | complete trees =>
              rw [exchangeAll, hending] at hstopped
              exact aggregate_ne_stopped _ _ _ hstopped
          | failed e pending resisting stoppedLater =>
              rw [Proceedings.held_of_error? (hunstopped xs) (congrArg Ending.error? hending)]
                at hstopped
              cases hstopped
          | stopped pending =>
              exact absurd hending (Proceedings.ending_ne_stopped (hunstopped xs) pending)
          | unfinished =>
              rw [exchangeAll, hending] at hstopped
              cases hstopped

/-- A run that gives workers back has got them for its chunks and has held them, with nothing of the
exchanges before or after that. -/
theorem exists_of_split_run {σ : Type} {o : Orchestrator} {c : Circumstances σ} {config : RunConfig}
    {entries : List Entry} {executors : Int} {s : σ} {before after : List Event}
    {handles : List Handle}
    (hheld : ∀ cancelled chunks handles, (hold c config cancelled chunks handles).held ≠ .stopped)
    (hsplit : (o.run c config entries executors s).events = before ++ .released handles :: after) :
    ∃ chunks opening, Partition.chunks entries executors = .ok chunks ∧
      (acquisition c.spawner chunks s).1 = .ok handles ∧
      (∀ event ∈ opening, event.ofExchanges = false) ∧
      let held := hold c config (o.cancelRequested || c.cancelledEarly) chunks handles
      held.held.handsBack = true ∧ opening ++ held.events = before ∧
        ∀ event ∈ after, event.ofExchanges = false := by
  have hsome : (o.run c config entries executors s).released ≠ [] := by
    intro hnone
    rw [Report.released, hsplit, List.filterMap_append] at hnone
    cases (List.append_eq_nil_iff.mp hnone).2
  have hidle : o.state = .idle := by
    by_contra hused
    rw [run_of_used o c config entries executors s hused] at hsome
    exact hsome rfl
  cases hchunks : Partition.chunks entries executors with
  | error failure =>
      exact absurd (run_of_invalid o c config entries executors s hidle hchunks).2.1 hsome
  | ok chunks =>
      cases hacquired : (acquisition c.spawner chunks s).1 with
      | error failure =>
          exact absurd (run_of_unacquired o c config entries executors s hidle hchunks hacquired).2.1
            hsome
      | ok acquired =>
          rw [run_of_provided o c config entries executors s hidle hchunks hacquired] at hsplit
          have hlast : ∀ event ∈ [Event.acquired acquired], event.IsPlain :=
            plain_cons ⟨rfl, rfl⟩ plain_nil
          have hplain := released_of_plain (plain_append
            (plain_opening entries executors (acquisition c.spawner chunks s).2.journal) hlast)
          obtain ⟨hback, rfl, hbefore, hafter⟩ := of_split_conclude (hheld _ chunks acquired)
            (by rw [List.filterMap_append, hplain, (events_hold config chunks acquired c _).1,
              List.append_nil]) hsplit
          exact ⟨chunks, _, rfl, hacquired, apart_begun entries executors _ acquired, hback, hbefore,
            hafter⟩

/-- When a run that is not stopped from outside gives its workers back, nothing of its exchanges comes
later, and each exchange that it has begun has ended. It has begun none, or it has one for each chunk
with a worker: then these have ended by themselves with their trees, or the run has chosen a failure
and set the signal first, has waited for the exchanges that were running as long as the grace period
lasts, and has aborted those that were still running after it, each of which has ended since. -/
theorem exchanges_ended_before_release {σ : Type} (o : Orchestrator) (spawner : Spawning σ)
    (cancelledEarly : Bool) (connection : Except Failure Unit)
    (happenings : List Exchange → List Happening) (config : RunConfig) (entries : List Entry)
    (executors : Int) (s : σ) (before after : List Event) (handles : List Handle)
    (hunstopped : ∀ xs, Proceedings.Unstopped (happenings xs))
    (hreleased : (o.run (.amid spawner cancelledEarly connection happenings) config entries executors
      s).events = before ++ .released handles :: after) :
    (∀ event ∈ after, event.ofExchanges = false) ∧
      ((∀ event ∈ before, event.ofExchanges = false) ∨
        ∃ chunks, Partition.chunks entries executors = .ok chunks ∧
          (acquisition spawner chunks s).1 = .ok handles ∧
          let xs := exchanges config chunks handles
          WoundUp config.gracePeriod xs (happenings xs) before ∧
            (before.filterMap Event.ended?).Perm (List.range xs.length) ∧
            ∀ chunk, .aborted chunk ∈ before →
              ∃ front middle back, before = front ++ .signalled :: (middle ++ .aborted chunk :: back) ∧
                .ended chunk ∉ front ∧ .ended chunk ∉ middle ∧ .ended chunk ∈ back) := by
  obtain ⟨chunks, opening, hchunks, hacquired, hopening, hback, hbefore, hafter⟩ :=
    exists_of_split_run (held_ne_stopped hunstopped config) hreleased
  refine ⟨hafter, ?_⟩
  generalize hcancelled : (o.cancelRequested ||
    (Circumstances.amid spawner cancelledEarly connection happenings).cancelledEarly) = cancelled
    at hback hbefore
  cases cancelled with
  | true =>
      -- The run was asked to cancel before it distributes.
      refine .inl (hbefore ▸ fun event hevent => hopening event ?_)
      exact List.append_nil opening ▸ hevent
  | false =>
      cases connection with
      | error failure =>
          rw [hold_of_unconnected config chunks handles rfl] at hbefore
          refine .inl (hbefore ▸ fun event hevent => ?_)
          rcases List.mem_append.mp hevent with hopen | hdistributing
          · exact hopening event hopen
          · rw [List.mem_singleton.mp hdistributing]
            rfl
      | ok opened =>
          rw [hold_of_connected config chunks handles rfl] at hback hbefore
          refine .inr ⟨chunks, hchunks, hacquired, ?_⟩
          intro xs
          have hends : (Proceedings.play xs (happenings xs)).ending ≠ .unfinished := by
            intro hunfinished
            have hheld : (exchangeAll config (chunks.length - xs.length)
                (Proceedings.play xs (happenings xs))).held.handsBack = true := hback
            rw [exchangeAll, hunfinished] at hheld
            cases hheld
          have hwound : WoundUp config.gracePeriod xs (happenings xs) before := by
            rw [← hbefore]
            cases hending : (Proceedings.play xs (happenings xs)).ending with
            | complete trees => exact woundUp_of_complete hopening config _ hending
            | failed e pending resisting stoppedLater =>
                exact woundUp_of_failed hopening config _ (hunstopped xs) hending
            | stopped pending =>
                exact absurd hending (Proceedings.ending_ne_stopped (hunstopped xs) pending)
            | unfinished => exact absurd hending hends
          exact ⟨hwound, hwound.perm_ended, fun chunk => hwound.exists_split_of_aborted⟩

end Orchestrator

namespace Sample

/-- The first of two workers does not answer, and the exchange with the second one resists. -/
def resisted : List Happening :=
  [.begins 0, .begins 1, .replies 0 .timedOut, .wakes 0, .collects true false [1]]

/-- What a run meets with to whose exchanges this happens. -/
def resisting : Circumstances Unit :=
  .amid pair false (.ok ()) fun _ => resisted

end Sample

namespace Orchestrator

theorem exchanges_ended_before_release_resisting :
    ∃ before after, (idle.run Sample.resisting Sample.config Sample.entries 2 ()).events =
        before ++ .released Sample.handles :: after ∧
      (∀ event ∈ after, event.ofExchanges = false) ∧
      WoundUp Sample.config.gracePeriod Sample.exchanges Sample.resisted before ∧
      (before.filterMap Event.ended?).Perm [0, 1] := by
  have hunstopped : ∀ xs : List Exchange, Proceedings.Unstopped ((fun _ => Sample.resisted) xs) := by
    intro xs seesSignal resisting hmem
    simp [Sample.resisted] at hmem
  generalize hh : hold Sample.resisting Sample.config false Sample.chunks Sample.handles = h
  have hheld : h.held ≠ .stopped := hh ▸ held_ne_stopped hunstopped Sample.config false _ _
  have hback : h.held.handsBack = true := by
    rw [← hh]
    decide +kernel
  have hconnected : .connected ∈ h.events := by
    rw [← hh, hold_of_connected Sample.config Sample.chunks Sample.handles rfl]
    exact List.mem_cons_of_mem _ (connected_mem_exchangeAll _ _ _)
  have hevents := events_conclude_unstopped hheld idle Sample.resisting Sample.handles
    Sample.chunks.length (begun Sample.entries 2 ++ [] ++ [.acquired Sample.handles]) ()
  rw [if_pos hback] at hevents
  obtain ⟨closing, -, hevents⟩ := hevents
  have hacquired : (acquisition Sample.resisting.spawner Sample.chunks ()).1 = .ok Sample.handles := rfl
  have hsplit := (congrArg Report.events (run_of_provided idle Sample.resisting Sample.config
    Sample.entries 2 () rfl Sample.chunks_entries hacquired)).trans (hh ▸ hevents)
  obtain ⟨hafter, hnone | ⟨chunks, hchunks, -, hwound, hended, -⟩⟩ :=
    exchanges_ended_before_release idle Sample.pair false (.ok ()) (fun _ => Sample.resisted)
      Sample.config Sample.entries 2 () _ closing Sample.handles hunstopped hsplit
  · cases hnone .connected (List.mem_append_right _ (hh ▸ hconnected))
  · rw [Sample.chunks_entries] at hchunks
    cases hchunks
    exact ⟨_, closing, hsplit, hafter, hwound, hended⟩

end Orchestrator

end SumTree
