import SumTree.Proofs.Run.Events
import SumTree.Proofs.Tree.Aggregate

/-!
# Stages of a run

A run is refused because the orchestrator is used, it fails before it has workers, or it holds workers
and then ends the way the holding ends. One equation for each stage is the whole report of a run that
gets this far (`run_of_used`, `run_of_refused`, `run_of_unusable`, `run_of_unprovided`,
`run_of_provided`), so that whatever is said about runs can be read off them. What a holding leads to
depends on how it ended alone: the workers are given back, and the run has ended, exactly when the
holding hands back (`released_conclude`, `isTerminal_conclude`).

## Main Definitions

* `Orchestrator.acquisition` — the attempt of a run to get workers for its chunks.
* `Orchestrator.begun` — the events before a run asks for workers.
* `Orchestrator.unprovided` — the error of a run that gets no workers.
-/

namespace SumTree

namespace Orchestrator

variable {σ : Type}

section Conclude

variable (o : Orchestrator) (c : Circumstances σ) (handles : List Handle) (chunkCount : Nat)
  {before : List Event} (h : Holding) (s : σ)

/-- What a run sends, it sends while it holds its workers. -/
theorem requested_conclude (hbefore : ∀ e ∈ before, e.IsPlain) :
    (conclude o c handles chunkCount before h s).requested =
      h.events.filterMap Event.request? := by
  have hback := (events_giveBack c handles s).2
  have hentered := fun state => requested_cons_of_plain (plain_entered state)
  have herror : ∀ text : String, [errorLine text].filterMap Event.request? = [] := fun _ => rfl
  rw [conclude, Report.requested]
  cases h.held <;>
    simp only [List.filterMap_append, requested_of_plain hbefore, hback, hentered, herror,
      List.filterMap_nil, List.append_nil, List.nil_append]

/-- The outcome depends on how the holding ended, and not on what happened during it. -/
theorem outcome_conclude_congr {c' : Circumstances σ} {before' : List Event} {h' : Holding}
    (hspawner : c.spawner = c'.spawner) (hheld : h.held = h'.held) :
    (conclude o c handles chunkCount before h s).outcome =
      (conclude o c' handles chunkCount before' h' s).outcome := by
  have hback : giveBack c handles s = giveBack c' handles s := by
    simp only [giveBack, hspawner]
  rw [conclude, conclude, ← hheld, hback]
  cases h.held <;> rfl

/-- An error of a run with which a run fails that held workers is the error of the holding, unless
the holding met it as a failure that is not handled. -/
theorem held_of_conclude_eq_error {e : RunError} {cleanup? : Option CleanupError}
    (herror : (conclude o c handles chunkCount before h s).outcome = .error ⟨.run e, cleanup?⟩) :
    h.held = .error e ∨ h.held = .escape (.run e) := by
  rw [conclude] at herror
  split at herror
  · cases herror
  · rename_i e' hheld
    cases herror
    exact .inl hheld
  · cases herror
  · rename_i failure hheld
    cases herror
    exact .inr hheld
  · cases herror

/-- An error of a run with which a holding ends is the failure of the run, and its final state tells
whether it counts as a cancellation. -/
theorem conclude_of_error {e : RunError} (hheld : h.held = .error e) :
    (conclude o c handles chunkCount before h s).outcome =
        .error ⟨.run e, (giveBack c handles s).1⟩ ∧
      (conclude o c handles chunkCount before h s).orchestrator.state =
        if e.isCancellation then .cancelled else .failed := by
  rw [conclude, hheld]
  exact ⟨rfl, rfl⟩

/-- Workers that are given back without a failure leave nothing to report. -/
theorem giveBack_of_ok {s after : σ} {journal : List LogRecord}
    (h : (c.spawner.release handles).perform ⟨s, []⟩ = (.ok (), ⟨after, journal⟩)) :
    giveBack c handles s = (none, .released handles :: journal.map .logged, after) := by
  rw [giveBack, h]

/-- The tree with which a holding ends is the result of the run. -/
theorem conclude_of_tree {t : AggregateTree} (hheld : h.held = .tree t) :
    (conclude o c handles chunkCount before h s).outcome =
      .ok ⟨t, chunkCount, (giveBack c handles s).1⟩ := by
  rw [conclude, hheld]

/-- A holding that hands back leaves the spawner as it is after the workers were given back. -/
theorem spawner_conclude (hheld : h.held.handsBack = true) :
    (conclude o c handles chunkCount before h s).spawner = (giveBack c handles s).2.2 := by
  rw [conclude]
  cases hend : h.held with
  | tree t => rfl
  | error e => rfl
  | stopped => rfl
  | escape failure =>
      rw [hend] at hheld
      cases hheld
  | unfinished =>
      rw [hend] at hheld
      cases hheld

/-- What happened before a run held its workers is among its events. -/
theorem mem_events_conclude {e : Event} (he : e ∈ before) :
    e ∈ (conclude o c handles chunkCount before h s).events := by
  rw [conclude]
  cases h.held <;> simp [he]

/-- Only the tree of a holding is a result. -/
theorem exists_of_conclude_eq_ok {r : RunResult}
    (hok : (conclude o c handles chunkCount before h s).outcome = .ok r) :
    h.held = .tree r.tree ∧ r.chunkCount = chunkCount := by
  rw [conclude] at hok
  split at hok
  · rename_i t hheld
    cases hok
    exact ⟨hheld, rfl⟩
  · cases hok
  · cases hok
  · cases hok
  · cases hok

end Conclude

/-! ### The stages -/

section Run

variable (o : Orchestrator) (c : Circumstances σ) (config : RunConfig) (entries : List Entry)
  (executors : Int) (s : σ)

/-- The attempt of a run to get workers for its chunks, on a spawner. -/
def acquisition (spawner : Spawning σ) (chunks : List (List Entry)) (s : σ) :
    Except Failure (List Handle) × Logged σ :=
  (spawner.acquire chunks.length).perform ⟨s, []⟩

/-- The events before a run asks for workers. -/
def begun (entries : List Entry) (executors : Int) : List Event :=
  (Partition.warning? entries executors).toList.map warning ++ [.entered .provisioning]

/-- The error of a run whose attempt to get workers fails. -/
def unprovided (count : Nat) : Failure → RunError
  | .run e => e
  | failure => .provisioning count failure.inFull

theorem fresh_of_idle {o : Orchestrator} (hidle : o.state = .idle) :
    (o.state != .idle) = false := by
  rw [hidle]
  rfl

theorem run_of_used (hused : o.state ≠ .idle) :
    o.run c config entries executors s =
      ⟨.error ⟨.run (.misuse ("Orchestrator already used (state: " ++ o.state.name ++ ")")), none⟩,
        [], o, s⟩ := by
  have hne : (o.state != .idle) = true := by simpa using hused
  simp only [run, hne, if_true]

/-- A run whose entries make no chunks, for a reason that it reports. -/
theorem run_of_refused (hidle : o.state = .idle) {e : RunError}
    (hchunks : Partition.chunks entries executors = .error (.run e)) :
    o.run c config entries executors s =
      ⟨.error ⟨.run e, none⟩, [.entered .failed], { o with state := .failed }, s⟩ := by
  simp only [run, fresh_of_idle hidle, Bool.false_eq_true, if_false, hchunks]

/-- A run whose entries make no chunks for any other reason stays where it is. -/
theorem run_of_unusable (hidle : o.state = .idle) {failure : Failure}
    (hchunks : Partition.chunks entries executors = .error failure)
    (hforeign : failure.IsForeign) :
    o.run c config entries executors s = ⟨.error ⟨failure, none⟩, [], o, s⟩ := by
  have hsame : ({ o with state := .idle } : Orchestrator) = o := by rw [← hidle]
  cases failure with
  | run e => exact absurd hforeign (not_isForeign_run e)
  | _ => simp only [run, fresh_of_idle hidle, Bool.false_eq_true, if_false, hchunks, hsame]

/-- A run that gets no workers. -/
theorem run_of_unprovided (hidle : o.state = .idle) {chunks : List (List Entry)}
    (hchunks : Partition.chunks entries executors = .ok chunks) {failure : Failure}
    (hacquired : (acquisition c.spawner chunks s).1 = .error failure) :
    o.run c config entries executors s =
      ⟨.error ⟨.run (unprovided chunks.length failure), none⟩,
        begun entries executors ++ (acquisition c.spawner chunks s).2.journal.map .logged ++
          [.entered .failed,
            errorLine ("Run failed: " ++ (unprovided chunks.length failure).message)],
        { o with state := .failed }, (acquisition c.spawner chunks s).2.state⟩ := by
  generalize hperformed : acquisition c.spawner chunks s = performed at hacquired
  obtain ⟨acquired, after⟩ := performed
  dsimp only at hacquired
  subst hacquired
  rw [acquisition] at hperformed
  simp only [run, fresh_of_idle hidle, Bool.false_eq_true, if_false, hchunks, hperformed]
  cases failure <;> rfl

/-- A run that gets workers ends the way that it holds them. -/
theorem run_of_provided (hidle : o.state = .idle) {chunks : List (List Entry)}
    (hchunks : Partition.chunks entries executors = .ok chunks) {handles : List Handle}
    (hacquired : (acquisition c.spawner chunks s).1 = .ok handles) :
    o.run c config entries executors s =
      conclude o c handles chunks.length
        (begun entries executors ++ (acquisition c.spawner chunks s).2.journal.map .logged ++
          [.acquired handles])
        (hold c config (o.cancelRequested || c.cancelledEarly) chunks handles)
        (acquisition c.spawner chunks s).2.state := by
  generalize hperformed : acquisition c.spawner chunks s = performed at hacquired
  obtain ⟨acquired, after⟩ := performed
  dsimp only at hacquired
  subst hacquired
  rw [acquisition] at hperformed
  simp only [run, fresh_of_idle hidle, Bool.false_eq_true, if_false, hchunks, hperformed]
  rfl

/-- A run whose entries make no chunks. -/
theorem run_of_invalid (hidle : o.state = .idle) {failure : Failure}
    (hchunks : Partition.chunks entries executors = .error failure) :
    (o.run c config entries executors s).outcome = .error ⟨failure, none⟩ ∧
      (o.run c config entries executors s).released = [] ∧
      (o.run c config entries executors s).requested = [] ∧
      ((o.run c config entries executors s).orchestrator.state = .failed ↔
        ∃ e, failure = .run e) := by
  by_cases hreported : ∃ e, failure = .run e
  · obtain ⟨e, rfl⟩ := hreported
    rw [run_of_refused o c config entries executors s hidle hchunks]
    exact ⟨rfl, rfl, rfl, iff_of_true rfl ⟨e, rfl⟩⟩
  · have hforeign : failure.IsForeign := fun e he => hreported ⟨e, he⟩
    rw [run_of_unusable o c config entries executors s hidle hchunks hforeign]
    refine ⟨rfl, rfl, rfl, iff_of_false ?_ hreported⟩
    rw [hidle]
    decide

/-- The events before a run holds its workers are plain. -/
theorem plain_opening (journal : List LogRecord) :
    ∀ e ∈ begun entries executors ++ journal.map .logged, e.IsPlain :=
  plain_append (plain_append (plain_warnings _) (plain_cons ⟨rfl, rfl⟩ plain_nil))
    (plain_logged journal)

/-- A run that gets no workers reports what the attempt failed with, and has asked for nothing. -/
theorem run_of_unacquired (hidle : o.state = .idle) {chunks : List (List Entry)}
    (hchunks : Partition.chunks entries executors = .ok chunks) {failure : Failure}
    (hacquired : (acquisition c.spawner chunks s).1 = .error failure) :
    (∃ e, (o.run c config entries executors s).outcome = .error ⟨.run e, none⟩ ∧
        (failure = .run e ∨ e = .provisioning chunks.length failure.inFull)) ∧
      (o.run c config entries executors s).released = [] ∧
      (o.run c config entries executors s).requested = [] ∧
      (o.run c config entries executors s).orchestrator.state = .failed := by
  have hplain := plain_opening entries executors (acquisition c.spawner chunks s).2.journal
  rw [run_of_unprovided o c config entries executors s hidle hchunks hacquired]
  refine ⟨⟨_, rfl, ?_⟩, ?_, ?_, rfl⟩
  · cases failure with
    | run e => exact .inl rfl
    | _ => exact .inr rfl
  · exact released_of_plain (plain_append hplain
      (plain_cons ⟨rfl, rfl⟩ (plain_cons ⟨rfl, rfl⟩ plain_nil)))
  · exact requested_of_plain (plain_append hplain
      (plain_cons ⟨rfl, rfl⟩ (plain_cons ⟨rfl, rfl⟩ plain_nil)))

/-- The events before a run concludes are plain. -/
theorem run_of_acquired (hidle : o.state = .idle) {chunks : List (List Entry)}
    (hchunks : Partition.chunks entries executors = .ok chunks) {handles : List Handle}
    (hacquired : (acquisition c.spawner chunks s).1 = .ok handles) :
    ∃ before, (∀ e ∈ before, e.IsPlain) ∧
      o.run c config entries executors s = conclude o c handles chunks.length before
        (hold c config (o.cancelRequested || c.cancelledEarly) chunks handles)
        (acquisition c.spawner chunks s).2.state :=
  ⟨_, plain_append (plain_opening entries executors _) (plain_cons ⟨rfl, rfl⟩ plain_nil),
    run_of_provided o c config entries executors s hidle hchunks hacquired⟩

/-- A run with a result has got workers, and has held them until there was a tree. -/
theorem exists_of_run_eq_ok {r : RunResult}
    (hok : (o.run c config entries executors s).outcome = .ok r) :
    o.state = .idle ∧ ∃ chunks handles, Partition.chunks entries executors = .ok chunks ∧
      (acquisition c.spawner chunks s).1 = .ok handles ∧ r.chunkCount = chunks.length ∧
      (hold c config (o.cancelRequested || c.cancelledEarly) chunks handles).held =
        .tree r.tree := by
  have hidle : o.state = .idle := by
    by_contra hused
    rw [run_of_used o c config entries executors s hused] at hok
    cases hok
  refine ⟨hidle, ?_⟩
  cases hchunks : Partition.chunks entries executors with
  | error failure =>
      rw [(run_of_invalid o c config entries executors s hidle hchunks).1] at hok
      cases hok
  | ok chunks =>
      cases hacquired : (acquisition c.spawner chunks s).1 with
      | error failure =>
          obtain ⟨⟨e, houtcome, -⟩, -⟩ :=
            run_of_unacquired o c config entries executors s hidle hchunks hacquired
          rw [houtcome] at hok
          cases hok
      | ok handles =>
          obtain ⟨before, -, hrun⟩ :=
            run_of_acquired o c config entries executors s hidle hchunks hacquired
          rw [hrun] at hok
          obtain ⟨hheld, hcount⟩ := exists_of_conclude_eq_ok o c handles chunks.length _ _ hok
          exact ⟨chunks, handles, rfl, hacquired, hcount, hheld⟩

end Run

/-! ### The exchanges -/

section Exchanges

variable (config : RunConfig) (chunks : List (List Entry)) (handles : List Handle)

@[simp] theorem length_exchanges :
    (exchanges config chunks handles).length = min chunks.length handles.length := by
  simp only [exchanges, List.length_zipWith, List.length_range, List.length_zip]
  omega

/-- The exchange at a position is that of the chunk with the worker of the handle there. -/
theorem getElem?_exchanges (i : Nat) :
    (exchanges config chunks handles)[i]? =
      chunks[i]?.bind fun chunk => handles[i]?.map fun handle =>
        ⟨i, handle, config.requestTimeout, chunk⟩ := by
  rw [exchanges, List.getElem?_zipWith, List.zip, List.getElem?_zipWith]
  cases hchunk : chunks[i]? with
  | none => cases (List.range chunks.length)[i]? <;> rfl
  | some chunk =>
      have hi : i < chunks.length := (List.getElem?_eq_some_iff.mp hchunk).1
      rw [List.getElem?_range hi]
      cases handles[i]? <;> rfl

end Exchanges

/-- A holding ends with a tree when every chunk has an exchange that brings its tree, and the trees
make the aggregate. -/
theorem exists_of_hold_eq_tree {c : Circumstances σ} {config : RunConfig} {cancelled : Bool}
    {chunks : List (List Entry)} {handles : List Handle} {t : AggregateTree}
    (h : (hold c config cancelled chunks handles).held = .tree t) :
    cancelled = false ∧ c.connection = .ok () ∧
      (exchanges config chunks handles).length = chunks.length ∧
      ∃ trees, (c.proceedings (exchanges config chunks handles)).ending = .complete trees ∧
        config.aggregator.buildFromTrees trees = .ok t := by
  have hofFailure : ∀ failure : Failure, Held.ofFailure failure ≠ .tree t := by
    intro failure hof
    cases failure <;> cases hof
  cases cancelled with
  | true => cases h
  | false =>
      cases hconnection : c.connection with
      | error failure =>
          rw [hold_of_unconnected config chunks handles hconnection] at h
          exact absurd h (hofFailure failure)
      | ok opened =>
          rw [hold_of_connected config chunks handles hconnection] at h
          simp only [exchangeAll] at h
          split at h
          · rename_i trees hending
            rw [aggregate] at h
            split at h
            · split at h <;> cases h
            · rename_i hmissing
              have hlength := length_exchanges config chunks handles
              split at h
              · rename_i t' hbuilt
                cases h
                exact ⟨rfl, rfl, by omega, trees, hending, hbuilt⟩
              · exact absurd h (hofFailure _)
          · split at h <;> cases h
          · cases h
          · cases h

/-- While it holds workers, a run handles its own errors and lets the others through. -/
theorem foreign_of_escape {c : Circumstances σ} {config : RunConfig} {cancelled : Bool}
    {chunks : List (List Entry)} {handles : List Handle} {failure : Failure}
    (h : (hold c config cancelled chunks handles).held = .escape failure) :
    failure.IsForeign := by
  have hofFailure : ∀ failure' : Failure, Held.ofFailure failure' = .escape failure →
      failure.IsForeign := by
    rintro failure' hof e rfl
    cases failure' <;> cases hof
  cases cancelled with
  | true => cases h
  | false =>
      cases hconnection : c.connection with
      | error failure' =>
          rw [hold_of_unconnected config chunks handles hconnection] at h
          exact hofFailure failure' h
      | ok opened =>
          rw [hold_of_connected config chunks handles hconnection] at h
          simp only [exchangeAll] at h
          split at h
          · rw [aggregate] at h
            split at h
            · split at h
              · cases h
              · rintro e rfl
                cases h
            · split at h
              · cases h
              · exact hofFailure _ h
          · split at h <;> cases h
          · cases h
          · cases h

end Orchestrator

end SumTree
