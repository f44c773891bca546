import SumTree.Proofs.Run.Precedence
import SumTree.Proofs.Run.Release
import SumTree.Rehearsal.Run

/-!
# States of a run

The states that a run enters form a path of the documented machine (`path_run`), and the state in
which it answers tells what it answers (`answers_run`). The part of a run during which it holds its
workers carries the weight: the path that it takes from provisioning, and that the machine allows the
final state where it is left, are one invariant (`Holding.Follows`), shown for each way the holding can
go. A run aggregates only after every exchange has ended with a tree (`trees_of_aggregating`). What is
shown for a number of executors holds for whatever a caller gives in its place (`path_runFor`,
`answers_runFor`), since a run for something that is no integer does nothing.

## Main Definitions

* `RunState.LeadsTo` — the transitions of the documented machine.
* `RunState.Path` — a path of that machine.
* `Event.entered?` — the state of an event that enters one.
* `Orchestrator.Held.final?` — the final state that a holding leads to.
* `Report.Answers` — what a run answers fits the state in which it answers.
-/

namespace SumTree

/-! ### The machine -/

namespace RunState

/-- The states that the documented machine allows after a state. -/
def successors : RunState → List RunState
  | idle => [provisioning, failed]
  | provisioning => [distributing, failed, cancelled]
  | distributing => [awaiting, failed, cancelled]
  | awaiting => [aggregating, failed, cancelled]
  | aggregating => [completed, failed]
  | completed | failed | cancelled => []

/-- The documented machine has a transition from a state to another. -/
def LeadsTo (s t : RunState) : Prop :=
  t ∈ s.successors

instance (s t : RunState) : Decidable (s.LeadsTo t) :=
  inferInstanceAs (Decidable (t ∈ s.successors))

/-- How far a state is from the start. -/
def rank : RunState → Nat
  | idle => 0
  | provisioning => 1
  | distributing => 2
  | awaiting => 3
  | aggregating => 4
  | completed | failed | cancelled => 5

theorem LeadsTo.rank_lt {s t : RunState} (h : s.LeadsTo t) : s.rank < t.rank := by
  revert h
  cases s <;> cases t <;> decide

theorem LeadsTo.ne_idle {s t : RunState} (h : s.LeadsTo t) : t ≠ .idle := by
  revert h
  cases s <;> cases t <;> decide

theorem not_leadsTo_of_isTerminal {s : RunState} (h : s.isTerminal = true) (t : RunState) :
    ¬ s.LeadsTo t := by
  revert h
  cases s <;> cases t <;> decide

/-- A path of the machine from a state through some states to the last of them. -/
inductive Path : RunState → List RunState → RunState → Prop
  | stay (s : RunState) : Path s [] s
  | go {s t u : RunState} {rest : List RunState} (step : s.LeadsTo t) (onward : Path t rest u) :
      Path s (t :: rest) u

namespace Path

variable {s t u : RunState} {steps more : List RunState}

theorem single (h : s.LeadsTo t) : Path s [t] t :=
  .go h (.stay t)

theorem eq_of_nil (h : Path s [] u) : u = s := by
  cases h
  rfl

theorem append (first : Path s steps t) (second : Path t more u) : Path s (steps ++ more) u := by
  induction first with
  | stay s => exact second
  | go step onward ih => exact .go step (ih second)

/-- Every state on a path is farther from the start than the first one. -/
theorem rank_lt_of_mem (h : Path s steps u) : ∀ t ∈ steps, s.rank < t.rank := by
  induction h with
  | stay s =>
      intro t ht
      cases ht
  | go step onward ih =>
      intro t ht
      rcases List.mem_cons.mp ht with rfl | hmem
      · exact step.rank_lt
      · exact step.rank_lt.trans (ih t hmem)

/-- No state on a path is farther from the start than the last one. -/
theorem rank_le_of_mem (h : Path s steps u) : ∀ t ∈ s :: steps, t.rank ≤ u.rank := by
  induction h with
  | stay s =>
      intro t ht
      rw [List.mem_singleton.mp ht]
  | go step onward ih =>
      intro t ht
      rcases List.mem_cons.mp ht with rfl | hmem
      · exact step.rank_lt.le.trans (ih _ List.mem_cons_self)
      · exact ih t hmem

/-- No state comes twice on a path. -/
theorem nodup (h : Path s steps u) : (s :: steps).Nodup := by
  induction h with
  | stay s => exact List.nodup_singleton s
  | go step onward ih =>
      refine List.nodup_cons.mpr ⟨fun hmem => ?_, ih⟩
      exact absurd ((Path.go step onward).rank_lt_of_mem _ hmem) (Nat.lt_irrefl _)

/-- No path leaves a state in which a run has ended. -/
theorem eq_of_isTerminal (h : Path s steps u) (hterminal : s.isTerminal = true) :
    steps = [] ∧ u = s := by
  cases h with
  | stay s => exact ⟨rfl, rfl⟩
  | go step onward => exact absurd step (not_leadsTo_of_isTerminal hterminal _)

end Path

end RunState

/-! ### The states that events enter -/

/-- The state of an event that enters one. -/
def Event.entered? : Event → Option RunState
  | .entered s => some s
  | _ => none

theorem Report.entered_eq {σ : Type} (r : Report σ) :
    r.entered = r.events.filterMap Event.entered? := by
  refine congrArg (fun f => r.events.filterMap f) (funext fun e => ?_)
  cases e <;> rfl

/-- Events made by a constructor that enters no state enter none. -/
theorem entered_map {α : Type} (f : α → Event) (hf : ∀ a, (f a).entered? = none) (items : List α) :
    (items.map f).filterMap Event.entered? = [] := by
  refine List.filterMap_eq_nil_iff.mpr fun e he => ?_
  obtain ⟨a, -, rfl⟩ := List.mem_map.mp he
  exact hf a

theorem entered_cons (s : RunState) (rest : List Event) :
    (Event.entered s :: rest).filterMap Event.entered? = s :: rest.filterMap Event.entered? :=
  rfl

/-- The states entered are those of the events that enter one. -/
theorem mem_entered_iff {events : List Event} {s : RunState} :
    s ∈ events.filterMap Event.entered? ↔ .entered s ∈ events := by
  refine List.mem_filterMap.trans ⟨?_, fun h => ⟨_, h, rfl⟩⟩
  rintro ⟨event, hevent, hentered⟩
  cases event with
  | entered state =>
      cases hentered
      exact hevent
  | _ => cases hentered

/-- The state in which a run answers tells what it answers: a result in the completed state alone
and, once there are workers, a cancellation in the cancelled state alone and any other error of a run
in the failed state alone. -/
structure Report.Answers {σ : Type} (r : Report σ) (state : RunState) : Prop where
  result : ∀ result, r.outcome = .ok result → state = .completed
  error : ∀ handles, .acquired handles ∈ r.events → ∀ e cleanup?,
    r.outcome = .error ⟨.run e, cleanup?⟩ →
      state = if e.isCancellation then .cancelled else .failed

namespace Orchestrator

/-- The final state that the end of a holding leads to. -/
def Held.final? : Held → Option RunState
  | .tree _ => some .completed
  | .error e => some (if e.isCancellation then .cancelled else .failed)
  | .stopped => some .cancelled
  | .escape _ | .unfinished => none

theorem Held.isTerminal_final {h : Held} {state : RunState} (hfinal : h.final? = some state) :
    state.isTerminal = true := by
  cases h with
  | error e =>
      cases hfinal
      split <;> rfl
  | _ => cases hfinal <;> rfl

theorem entered_begun (entries : List Entry) (executors : Int) (journal : List LogRecord) :
    (begun entries executors ++ journal.map Event.logged).filterMap Event.entered? =
      [.provisioning] := by
  have hwarned := entered_map warning (fun _ => rfl) (Partition.warning? entries executors).toList
  have hlogged := entered_map Event.logged (fun _ => rfl) journal
  rw [List.filterMap_append, hlogged, begun, List.filterMap_append, hwarned]
  rfl

theorem entered_requests (p : Proceedings) : (requests p).filterMap Event.entered? = [] := by
  refine List.filterMap_eq_nil_iff.mpr fun e he => ?_
  obtain ⟨x, -, he⟩ := List.mem_flatMap.mp he
  obtain ⟨sent, -, rfl⟩ := List.mem_map.mp he
  rfl

theorem entered_ended (chunks : List Nat) :
    (chunks.map Event.ended).filterMap Event.entered? = [] :=
  entered_map _ (fun _ => rfl) chunks

theorem entered_aborted (chunks : List Nat) :
    (chunks.map Event.aborted).filterMap Event.entered? = [] :=
  entered_map _ (fun _ => rfl) chunks

theorem entered_settled (count : Nat) (pending : List Nat) :
    (settled count pending).filterMap Event.entered? = [] :=
  entered_ended _

theorem entered_interruptedDrain (e : RunError) (pending resisting : List Nat) :
    (interruptedDrain e pending resisting).filterMap Event.entered? = [] :=
  entered_ended _

theorem entered_drain (grace : Number) (e : RunError) (pending resisting : List Nat) :
    (drain grace e pending resisting).filterMap Event.entered? = [] := by
  have hwarned : ∀ (text : String) (rest : List Event),
      (warning text :: rest).filterMap Event.entered? = rest.filterMap Event.entered? :=
    fun _ _ => rfl
  rw [drain]
  split
  · rfl
  · dsimp only
    generalize (if hasGrace grace = true then resisting else pending) = stragglers
    split
    · rw [announcement, hwarned, entered_ended]
    · rw [announcement, hwarned, List.filterMap_append, hwarned, List.filterMap_append,
        entered_ended, entered_aborted, entered_ended]
      rfl

theorem entered_giveBack {σ : Type} (c : Circumstances σ) (handles : List Handle) (s : σ) :
    (giveBack c handles s).2.1.filterMap Event.entered? = [] := by
  generalize hperformed : (c.spawner.release handles).perform ⟨s, []⟩ = performed
  obtain ⟨result, after⟩ := performed
  have hlogged := entered_map Event.logged (fun _ => rfl) after.journal
  have hwarned : ∀ text, [warning text].filterMap Event.entered? = [] := fun _ => rfl
  have hreleased : ∀ rest : List Event, (Event.released handles :: rest).filterMap
      Event.entered? = rest.filterMap Event.entered? := fun _ => rfl
  rw [giveBack, hperformed]
  dsimp only
  split
  · rw [hreleased, hlogged]
  · rw [List.filterMap_append, hreleased, hlogged, hwarned]
    rfl
  · rw [List.filterMap_append, hreleased, hlogged, hwarned]
    rfl

/-! ### While the workers are held -/

/-- A holding goes along the documented machine, which allows its final state where it is left. -/
structure Holding.Follows (h : Holding) : Prop where
  path : RunState.Path .provisioning (h.events.filterMap Event.entered?) h.state
  final : ∀ state, h.held.final? = some state → h.state.LeadsTo state

theorem leadsTo_of_error (s : RunState) (hfailed : s.LeadsTo .failed)
    (hcancelled : s.LeadsTo .cancelled) (e : RunError) :
    s.LeadsTo (if e.isCancellation then .cancelled else .failed) := by
  split
  · exact hcancelled
  · exact hfailed

/-- Aggregation waits for nothing, so that it cannot be stopped. -/
theorem aggregate_ne_stopped (config : RunConfig) (missing : Nat) (trees : List MiniTree) :
    aggregate config missing trees ≠ .stopped := by
  intro hheld
  rw [aggregate] at hheld
  split at hheld
  · split at hheld <;> cases hheld
  · split at hheld
    · cases hheld
    · rename_i failure _
      cases failure <;> cases hheld

/-- What aggregation ends with never counts as a cancellation. -/
theorem leadsTo_of_aggregate {config : RunConfig} {missing : Nat} {trees : List MiniTree}
    {state : RunState} (h : (aggregate config missing trees).final? = some state) :
    RunState.LeadsTo .aggregating state := by
  generalize hheld : aggregate config missing trees = held at h
  cases held with
  | tree t =>
      cases h
      decide
  | error e =>
      obtain ⟨fault, rfl⟩ := exists_fault_of_aggregate (.inl hheld)
      cases h
      show RunState.aggregating.LeadsTo .failed
      decide
  | stopped => exact absurd hheld (aggregate_ne_stopped config missing trees)
  | escape failure => cases h
  | unfinished => cases h

/-- The exchanges of a run lead it along the machine. -/
theorem follows_exchangeAll (config : RunConfig) (missing : Nat) (p : Proceedings) :
    Holding.Follows { exchangeAll config missing p with
      events := .entered .distributing :: (exchangeAll config missing p).events } := by
  have hbegun : ∀ rest : List Event, (Event.entered .distributing ::
      ([.connected, .entered .awaiting] ++ requests p ++ rest)).filterMap Event.entered? =
      [.distributing, .awaiting] ++ rest.filterMap Event.entered? := by
    intro rest
    rw [← List.cons_append, ← List.cons_append, List.filterMap_append, List.filterMap_append,
      entered_requests]
    rfl
  have hawaiting : RunState.Path .provisioning [.distributing, .awaiting] .awaiting :=
    .go (by decide) (.single (by decide))
  rw [exchangeAll]
  cases p.ending with
  | complete trees =>
      refine ⟨?_, fun state hstate => leadsTo_of_aggregate hstate⟩
      dsimp only
      rw [List.append_assoc, hbegun, List.filterMap_append, entered_settled]
      exact hawaiting.append (.single (by decide))
  | failed e pending resisting stoppedLater =>
      dsimp only
      split
      · refine ⟨?_, fun state hstate => ?_⟩
        · dsimp only
          rw [List.append_assoc, List.append_assoc, hbegun, List.filterMap_append,
            List.filterMap_append, entered_settled, entered_interruptedDrain]
          exact hawaiting
        · cases hstate
          show RunState.awaiting.LeadsTo .cancelled
          decide
      · refine ⟨?_, fun state hstate => ?_⟩
        · dsimp only
          rw [List.append_assoc, List.append_assoc, hbegun, List.filterMap_append,
            List.filterMap_append, entered_settled, entered_drain]
          exact hawaiting
        · cases hstate
          exact leadsTo_of_error .awaiting (by decide) (by decide) e
  | stopped pending =>
      refine ⟨?_, fun state hstate => ?_⟩
      · dsimp only
        rw [List.append_assoc, hbegun, List.filterMap_append, entered_settled,
          List.filterMap_cons_none rfl, List.filterMap_append, entered_aborted, entered_ended]
        exact hawaiting
      · cases hstate
        show RunState.awaiting.LeadsTo .cancelled
        decide
  | unfinished =>
      refine ⟨?_, fun state hstate => by cases hstate⟩
      have hrest := hbegun []
      rw [List.append_nil] at hrest
      dsimp only
      rw [hrest]
      exact hawaiting

section Run

variable {σ : Type} (o : Orchestrator) (c : Circumstances σ) (config : RunConfig)

theorem follows_hold (cancelled : Bool) (chunks : List (List Entry)) (handles : List Handle) :
    (hold c config cancelled chunks handles).Follows := by
  cases cancelled with
  | true =>
      refine ⟨.stay _, fun state hstate => ?_⟩
      cases hstate
      show RunState.provisioning.LeadsTo .cancelled
      decide
  | false =>
      cases hconnection : c.connection with
      | error failure =>
          rw [hold_of_unconnected config chunks handles hconnection]
          refine ⟨.single (by decide), fun state hstate => ?_⟩
          cases failure <;> cases hstate
          exact leadsTo_of_error .distributing (by decide) (by decide) _
      | ok opened =>
          rw [hold_of_connected config chunks handles hconnection]
          exact follows_exchangeAll config _ _

/-! ### The whole run -/

section Conclude

variable (handles : List Handle) (chunkCount : Nat) (before : List Event) (h : Holding) (s : σ)

theorem entered_conclude :
    (conclude o c handles chunkCount before h s).entered =
      before.filterMap Event.entered? ++ h.events.filterMap Event.entered? ++
        h.held.final?.toList := by
  have hback := entered_giveBack c handles s
  have herror : ∀ state text, [Event.entered state, errorLine text].filterMap Event.entered? =
      [state] := fun _ _ => rfl
  rw [Report.entered_eq, conclude]
  cases h.held with
  | tree t =>
      simp only [List.filterMap_append, hback, List.append_nil]
      rfl
  | error e =>
      simp only [List.filterMap_append, hback, herror, List.append_nil]
      rfl
  | stopped =>
      simp only [List.filterMap_append, entered_cons, hback]
      rfl
  | escape failure =>
      simp only [List.filterMap_append]
      exact (List.append_nil _).symm
  | unfinished =>
      simp only [List.filterMap_append]
      exact (List.append_nil _).symm

theorem state_conclude :
    (conclude o c handles chunkCount before h s).orchestrator.state =
      h.held.final?.getD h.state := by
  rw [conclude]
  cases h.held <;> rfl

/-- The end of a holding that follows the machine follows it too. -/
theorem path_conclude (hfollows : h.Follows) :
    RunState.Path .provisioning (h.events.filterMap Event.entered? ++ h.held.final?.toList)
      (conclude o c handles chunkCount before h s).orchestrator.state := by
  rw [state_conclude]
  cases hfinal : h.held.final? with
  | none =>
      rw [Option.toList_none, List.append_nil]
      exact hfollows.path
  | some state => exact hfollows.path.append (.single (hfollows.final state hfinal))

end Conclude

variable (entries : List Entry) (executors : Int) (s : σ)

/-- The states that a run enters form a path of the machine, from where the orchestrator is to where
the run leaves it. -/
theorem path_run :
    RunState.Path o.state (o.run c config entries executors s).entered
      (o.run c config entries executors s).orchestrator.state := by
  by_cases hidle : o.state = .idle
  · cases hchunks : Partition.chunks entries executors with
    | error failure =>
        by_cases hreported : ∃ e, failure = .run e
        · obtain ⟨e, rfl⟩ := hreported
          rw [run_of_refused o c config entries executors s hidle hchunks, hidle]
          exact .single (by decide)
        · have hforeign : failure.IsForeign := fun e he => hreported ⟨e, he⟩
          rw [run_of_unusable o c config entries executors s hidle hchunks hforeign]
          exact .stay o.state
    | ok chunks =>
        cases hacquired : (acquisition c.spawner chunks s).1 with
        | error failure =>
            rw [run_of_unprovided o c config entries executors s hidle hchunks hacquired,
              Report.entered_eq, List.filterMap_append, entered_begun, hidle]
            exact .go (by decide) (.single (by decide))
        | ok handles =>
            rw [run_of_provided o c config entries executors s hidle hchunks hacquired,
              entered_conclude, List.filterMap_append, entered_begun, List.append_assoc, hidle]
            exact .go (by decide) (path_conclude o c handles chunks.length _ _ _
              (follows_hold c config _ chunks handles))
  · rw [run_of_used o c config entries executors s hidle]
    exact .stay o.state

/-- A run enters no state when the orchestrator is used, or when there are less than one executor
and their number is too long to be written. -/
theorem entered_eq_nil_iff :
    (o.run c config entries executors s).entered = [] ↔
      o.state ≠ .idle ∨ executors < 1 ∧ Decimal.fits executors = false := by
  by_cases hidle : o.state = .idle
  · rw [or_iff_right (not_not_intro hidle)]
    cases hchunks : Partition.chunks entries executors with
    | error failure =>
        have hwritten := run_error_of_chunks hchunks
        have hneither : ¬ (1 ≤ executors ∨ Decimal.fits executors = true) ↔
            executors < 1 ∧ Decimal.fits executors = false := by
          rw [not_or, not_le, Bool.not_eq_true]
        rw [← hneither, ← hwritten]
        by_cases hreported : ∃ e, failure = .run e
        · obtain ⟨e, rfl⟩ := hreported
          rw [run_of_refused o c config entries executors s hidle hchunks]
          exact iff_of_false (fun h => by cases h) (fun h => h ⟨e, rfl⟩)
        · have hforeign : failure.IsForeign := fun e he => hreported ⟨e, he⟩
          rw [run_of_unusable o c config entries executors s hidle hchunks hforeign]
          exact iff_of_true rfl hreported
    | ok chunks =>
        have hone := (Partition.chunks_eq_slices hchunks).1
        refine iff_of_false ?_ fun h => absurd h.1 (by omega)
        cases hacquired : (acquisition c.spawner chunks s).1 with
        | error failure =>
            rw [run_of_unprovided o c config entries executors s hidle hchunks hacquired,
              Report.entered_eq, List.filterMap_append, entered_begun]
            exact List.cons_ne_nil _ _
        | ok handles =>
            rw [run_of_provided o c config entries executors s hidle hchunks hacquired,
              entered_conclude, List.filterMap_append, entered_begun]
            exact List.cons_ne_nil _ _
  · rw [run_of_used o c config entries executors s hidle]
    exact iff_of_true rfl (.inl hidle)

/-- The state that a run leaves the orchestrator in fits what it answers. -/
theorem answers_run :
    (o.run c config entries executors s).Answers
      (o.run c config entries executors s).orchestrator.state := by
  by_cases hidle : o.state = .idle
  · cases hchunks : Partition.chunks entries executors with
    | error failure =>
        by_cases hreported : ∃ e, failure = .run e
        · obtain ⟨e, rfl⟩ := hreported
          rw [run_of_refused o c config entries executors s hidle hchunks]
          exact ⟨fun _ h => (nomatch h), fun _ h => by simp at h⟩
        · have hforeign : failure.IsForeign := fun e he => hreported ⟨e, he⟩
          rw [run_of_unusable o c config entries executors s hidle hchunks hforeign]
          exact ⟨fun _ h => (nomatch h), fun _ h => (nomatch h)⟩
    | ok chunks =>
        cases hacquired : (acquisition c.spawner chunks s).1 with
        | error failure =>
            rw [run_of_unprovided o c config entries executors s hidle hchunks hacquired]
            refine ⟨fun _ h => (nomatch h), fun handles hgot => ?_⟩
            simp [begun, warning, errorLine] at hgot
        | ok handles =>
            rw [run_of_provided o c config entries executors s hidle hchunks hacquired,
              state_conclude]
            refine ⟨fun result hok => ?_, fun _ _ e cleanup? herror => ?_⟩
            · obtain ⟨hheld, -⟩ := exists_of_conclude_eq_ok o c handles chunks.length _ _ hok
              rw [hheld]
              rfl
            · rcases held_of_conclude_eq_error o c handles chunks.length _ _ herror with
                hheld | hescaped
              · rw [hheld]
                rfl
              · exact absurd (foreign_of_escape hescaped) (not_isForeign_run e)
  · rw [run_of_used o c config entries executors s hidle]
    exact ⟨fun _ h => (nomatch h), fun _ h => (nomatch h)⟩

/-! ### Aggregation -/

/-- A holding aggregates at its very end, after each of its exchanges has ended with a tree. -/
theorem hold_of_aggregating {cancelled : Bool} {chunks : List (List Entry)} {handles : List Handle}
    (h : RunState.aggregating ∈
      (hold c config cancelled chunks handles).events.filterMap Event.entered?) :
    ∃ trees front, (c.proceedings (exchanges config chunks handles)).ending = .complete trees ∧
      (hold c config cancelled chunks handles).events = front ++ [.entered .aggregating] ∧
      ∀ i < (c.proceedings (exchanges config chunks handles)).progress.length,
        .ended i ∈ front := by
  -- A holding is left at least as far on as every state that it has entered.
  have hfar : 4 ≤ (hold c config cancelled chunks handles).state.rank :=
    (follows_hold c config cancelled chunks handles).path.rank_le_of_mem _
      (List.mem_cons_of_mem _ h)
  cases cancelled with
  | true => cases h
  | false =>
      cases hconnection : c.connection with
      | error failure =>
          rw [hold_of_unconnected config chunks handles hconnection] at hfar
          exact absurd hfar (by decide : ¬ 4 ≤ RunState.distributing.rank)
      | ok opened =>
          have hawaiting : ¬ 4 ≤ RunState.awaiting.rank := by decide
          rw [hold_of_connected config chunks handles hconnection] at hfar ⊢
          dsimp only at hfar ⊢
          generalize c.proceedings (exchanges config chunks handles) = p at hfar ⊢
          rw [exchangeAll] at hfar ⊢
          cases hending : p.ending with
          | complete trees =>
              refine ⟨trees, .entered .distributing ::
                ([.connected, .entered .awaiting] ++ requests p ++ settled p.progress.length []),
                rfl, rfl, fun i hi => ?_⟩
              refine List.mem_cons_of_mem _ (List.mem_append_right _ (List.mem_map.mpr ⟨i, ?_, rfl⟩))
              exact List.mem_filter.mpr ⟨List.mem_range.mpr hi, rfl⟩
          | failed e pending resisting stoppedLater =>
              rw [hending] at hfar
              dsimp only at hfar
              split at hfar <;> exact absurd hfar hawaiting
          | stopped pending =>
              rw [hending] at hfar
              exact absurd hfar hawaiting
          | unfinished =>
              rw [hending] at hfar
              exact absurd hfar hawaiting

theorem events_conclude (handles : List Handle) (chunkCount : Nat) (before : List Event)
    (h : Holding) :
    ∃ rest, (conclude o c handles chunkCount before h s).events = before ++ h.events ++ rest := by
  rw [conclude]
  cases h.held with
  | tree t => exact ⟨_, List.append_assoc _ _ _⟩
  | error e => exact ⟨_, List.append_assoc _ _ _⟩
  | stopped => exact ⟨_, rfl⟩
  | escape failure => exact ⟨[], (List.append_nil _).symm⟩
  | unfinished => exact ⟨[], (List.append_nil _).symm⟩

/-- An event that enters a state comes once in a run, so that what is before it is determined. -/
theorem before_entered {state : RunState} {before after before' after' : List Event}
    (h : (o.run c config entries executors s).events = before ++ .entered state :: after)
    (h' : (o.run c config entries executors s).events = before' ++ .entered state :: after') :
    before = before' := by
  have hnodup := (path_run o c config entries executors s).nodup.of_cons
  rw [Report.entered_eq, h, List.filterMap_append, entered_cons] at hnodup
  obtain ⟨-, hback, hapart⟩ := List.nodup_append.mp hnodup
  have hfront : .entered state ∉ before := fun hmem =>
    hapart state (mem_entered_iff.mpr hmem) state List.mem_cons_self rfl
  have hrest : .entered state ∉ after := fun hmem =>
    (List.nodup_cons.mp hback).1 (mem_entered_iff.mpr hmem)
  exact ((List.append_cons_inj_of_notMem hfront hrest).mp (h.symm.trans h')).1

/-- Before a run aggregates, each of its exchanges has ended with a tree. -/
theorem trees_of_aggregating {before after : List Event}
    (h : (o.run c config entries executors s).events = before ++ .entered .aggregating :: after) :
    ∃ chunks handles trees, Partition.chunks entries executors = .ok chunks ∧
      (acquisition c.spawner chunks s).1 = .ok handles ∧
      (c.proceedings (exchanges config chunks handles)).ending = .complete trees ∧
      ∀ i < (c.proceedings (exchanges config chunks handles)).progress.length,
        .ended i ∈ before := by
  have hentered : RunState.aggregating ∈ (o.run c config entries executors s).entered := by
    rw [Report.entered_eq, h]
    exact mem_entered_iff.mpr (List.mem_append_right _ List.mem_cons_self)
  have hidle : o.state = .idle := by
    by_contra hused
    rw [(entered_eq_nil_iff o c config entries executors s).mpr (.inl hused)] at hentered
    cases hentered
  cases hchunks : Partition.chunks entries executors with
  | error failure =>
      by_cases hreported : ∃ e, failure = .run e
      · obtain ⟨e, rfl⟩ := hreported
        rw [run_of_refused o c config entries executors s hidle hchunks] at hentered
        exact absurd hentered (by decide : RunState.aggregating ∉ [RunState.failed])
      · have hforeign : failure.IsForeign := fun e he => hreported ⟨e, he⟩
        rw [run_of_unusable o c config entries executors s hidle hchunks hforeign] at hentered
        cases hentered
  | ok chunks =>
      cases hacquired : (acquisition c.spawner chunks s).1 with
      | error failure =>
          rw [run_of_unprovided o c config entries executors s hidle hchunks hacquired,
            Report.entered_eq, List.filterMap_append, entered_begun] at hentered
          exact absurd hentered (by decide : RunState.aggregating ∉ [RunState.provisioning, .failed])
      | ok handles =>
          have hrun := run_of_provided o c config entries executors s hidle hchunks hacquired
          have hholding : RunState.aggregating ∈ (hold c config
              (o.cancelRequested || c.cancelledEarly) chunks handles).events.filterMap
                Event.entered? := by
            rw [hrun, entered_conclude, List.filterMap_append, entered_begun] at hentered
            rcases List.mem_append.mp hentered with hearly | hfinal
            · rcases List.mem_append.mp hearly with hbegun | hheld
              · exact absurd hbegun (by decide : RunState.aggregating ∉ [RunState.provisioning])
              · exact hheld
            · cases Held.isTerminal_final (Option.mem_toList.mp hfinal)
          obtain ⟨trees, front, hcomplete, hevents, hended⟩ := hold_of_aggregating c config hholding
          obtain ⟨rest, hall⟩ := events_conclude o c
            (acquisition c.spawner chunks s).2.state handles chunks.length
            (begun entries executors ++ (acquisition c.spawner chunks s).2.journal.map .logged ++
              [.acquired handles])
            (hold c config (o.cancelRequested || c.cancelledEarly) chunks handles)
          rw [← hrun, hevents, ← List.append_assoc, List.append_assoc _ _ rest] at hall
          have hbefore := before_entered o c config entries executors s h hall
          exact ⟨chunks, handles, trees, rfl, hacquired, hcomplete, fun i hi =>
            hbefore ▸ List.mem_append_right _ (hended i hi)⟩

/-! ### Numbers of executors as callers give them -/

variable (count : Count)

theorem runFor_of_used (hused : o.state ≠ .idle) :
    o.runFor c config entries count s =
      ⟨.error ⟨.run (.misuse ("Orchestrator already used (state: " ++ o.state.name ++ ")")), none⟩,
        [], o, s⟩ := by
  have hne : (o.state != .idle) = true := by simpa using hused
  cases count with
  | int executors => exact run_of_used o c config entries executors s hused
  | other type => simp only [runFor, hne, if_true]

/-- A run for something that is no integer enters no state. -/
theorem entered_runFor_other (type : String) :
    (o.runFor c config entries (.other type) s).entered = [] :=
  rfl

theorem path_runFor :
    RunState.Path o.state (o.runFor c config entries count s).entered
      (o.runFor c config entries count s).orchestrator.state := by
  cases count with
  | int executors => exact path_run o c config entries executors s
  | other type => exact .stay o.state

theorem entered_runFor_eq_nil_iff :
    (o.runFor c config entries count s).entered = [] ↔ o.state ≠ .idle ∨ count.isUnreported = true := by
  cases count with
  | int executors =>
      refine (entered_eq_nil_iff o c config entries executors s).trans ?_
      simp [Count.isUnreported]
  | other type => exact iff_of_true (entered_runFor_other o c config entries s type) (.inr rfl)

theorem answers_runFor :
    (o.runFor c config entries count s).Answers
      (o.runFor c config entries count s).orchestrator.state := by
  cases count with
  | int executors => exact answers_run o c config entries executors s
  | other type => exact ⟨fun _ h => (nomatch h), fun _ h => (nomatch h)⟩

theorem int_of_aggregating {before after : List Event}
    (h : (o.runFor c config entries count s).events = before ++ .entered .aggregating :: after) :
    ∃ executors, count = .int executors := by
  cases count with
  | int executors => exact ⟨executors, rfl⟩
  | other type => exact absurd h (List.append_ne_nil_of_right_ne_nil _ (List.cons_ne_nil _ _)).symm

end Run

end Orchestrator

end SumTree
