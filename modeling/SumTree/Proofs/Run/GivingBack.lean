import SumTree.Proofs.Run.Totals

/-!
# Giving workers back

What goes wrong when workers are given back stands beside the outcome of a run and never in its place.
What a holding leads to, apart from that report, is the same for every spawner
(`ending_conclude_congr`), so that two runs that differ only in what their spawners do about a release
end the same way (`unmasked_by_release`).

The two spawners may differ in everything else too, their states included, as long as they give the
runs the same workers.

## Main Definitions

* `Report.ending` — how a run ends, apart from what went wrong when the workers were given back.
* `Report.cleanup?` — what went wrong when the workers were given back.
* `Report.IsAccounted` — the outcome is a result or an error of a run.
* `CleanupError.of?` — what is to be reported of an attempt to give workers back.
-/

namespace SumTree

/-- How a run ends, apart from what went wrong when the workers were given back: the tree with the
number of chunks, or the failure. -/
def Report.ending {σ : Type} (r : Report σ) : Except Failure (AggregateTree × Nat) :=
  match r.outcome with
  | .ok result => .ok (result.tree, result.chunkCount)
  | .error failed => .error failed.failure

/-- What went wrong when the workers were given back. -/
def Report.cleanup? {σ : Type} (r : Report σ) : Option CleanupError :=
  match r.outcome with
  | .ok result => result.cleanup?
  | .error failed => failed.cleanup?

/-- The outcome is a result or an error of a run. -/
def Report.IsAccounted {σ : Type} (r : Report σ) : Prop :=
  ∀ failure, r.ending = .error failure → ∃ e, failure = .run e

/-- What is to be reported of an attempt to give workers back: a `CleanupError` as it is, and any
other failure once for every worker, in order. -/
def CleanupError.of? (handles : List Handle) : Except Failure Unit → Option CleanupError
  | .ok () => none
  | .error (.run (.cleanup e)) => some e
  | .error failure => some ⟨handles.map fun h => ⟨h, failure.inFull⟩⟩

namespace Orchestrator

variable {σ τ : Type}

/-- The attempt to give workers back, on a spawner. -/
def dismissal (spawner : Spawning σ) (handles : List Handle) (s : σ) :
    Except Failure Unit × Logged σ :=
  (spawner.release handles).perform ⟨s, []⟩

theorem fst_giveBack (c : Circumstances σ) (handles : List Handle) (s : σ) :
    (giveBack c handles s).1 = CleanupError.of? handles (dismissal c.spawner handles s).1 := by
  rw [giveBack, dismissal]
  generalize (c.spawner.release handles).perform ⟨s, []⟩ = performed
  obtain ⟨result, after⟩ := performed
  cases result with
  | ok done => rfl
  | error failure =>
      cases failure with
      | run e => cases e <;> rfl
      | _ => rfl

section Conclude

variable (o : Orchestrator) (c : Circumstances σ) (c' : Circumstances τ) (handles : List Handle)
  (chunkCount : Nat) (before before' : List Event) (h : Holding) (s : σ) (s' : τ)

/-- What a holding leads to, apart from the report of the release, is the same for every spawner. -/
theorem ending_conclude_congr :
    (conclude o c handles chunkCount before h s).ending =
        (conclude o c' handles chunkCount before' h s').ending ∧
      (conclude o c handles chunkCount before h s).orchestrator =
        (conclude o c' handles chunkCount before' h s').orchestrator := by
  rw [conclude, conclude]
  cases h.held <;> exact ⟨rfl, rfl⟩

/-- What is reported of the release beside a result or an error of a run. -/
theorem cleanup?_conclude (hescape : ∀ failure, h.held = .escape failure → failure.IsForeign)
    (haccounted : (conclude o c handles chunkCount before h s).IsAccounted) :
    (conclude o c handles chunkCount before h s).cleanup? =
      CleanupError.of? handles (dismissal c.spawner handles s).1 := by
  rw [← fst_giveBack]
  rw [conclude] at haccounted ⊢
  cases hheld : h.held with
  | tree t => rfl
  | error e => rfl
  | stopped =>
      rw [hheld] at haccounted
      obtain ⟨e, he⟩ := haccounted _ rfl
      cases he
  | escape failure =>
      rw [hheld] at haccounted
      obtain ⟨e, rfl⟩ := haccounted _ rfl
      exact absurd (hescape _ hheld) (not_isForeign_run e)
  | unfinished =>
      rw [hheld] at haccounted
      obtain ⟨e, he⟩ := haccounted _ rfl
      cases he

end Conclude

section Run

variable (o : Orchestrator) (spawner : Spawning σ) (spawner' : Spawning τ) (cancelledEarly : Bool)
  (connection : Except Failure Unit) (happenings : List Exchange → List Happening)
  (config : RunConfig) (entries : List Entry) (executors : Int) (s : σ) (s' : τ)

/-- Runs that get the same workers, or none, end the same way. -/
theorem ending_run_congr
    (hacquired : ∀ chunks, Partition.chunks entries executors = .ok chunks →
      (acquisition spawner chunks s).1 = (acquisition spawner' chunks s').1) :
    (o.run (.amid spawner cancelledEarly connection happenings) config entries executors s).ending =
        (o.run (.amid spawner' cancelledEarly connection happenings) config entries executors
          s').ending ∧
      (o.run (.amid spawner cancelledEarly connection happenings) config entries executors
          s).orchestrator =
        (o.run (.amid spawner' cancelledEarly connection happenings) config entries executors
          s').orchestrator := by
  by_cases hidle : o.state = .idle
  · cases hchunks : Partition.chunks entries executors with
    | error failure =>
        by_cases hreported : ∃ e, failure = .run e
        · obtain ⟨e, rfl⟩ := hreported
          rw [run_of_refused o _ config entries executors s hidle hchunks,
            run_of_refused o _ config entries executors s' hidle hchunks]
          exact ⟨rfl, rfl⟩
        · have hforeign : failure.IsForeign := fun e he => hreported ⟨e, he⟩
          rw [run_of_unusable o _ config entries executors s hidle hchunks hforeign,
            run_of_unusable o _ config entries executors s' hidle hchunks hforeign]
          exact ⟨rfl, rfl⟩
    | ok chunks =>
        have hsame := hacquired chunks hchunks
        cases hgot : (acquisition spawner chunks s).1 with
        | error failure =>
            rw [run_of_unprovided o _ config entries executors s hidle hchunks hgot,
              run_of_unprovided o _ config entries executors s' hidle hchunks (hsame ▸ hgot)]
            exact ⟨rfl, rfl⟩
        | ok handles =>
            rw [run_of_provided o _ config entries executors s hidle hchunks hgot,
              run_of_provided o _ config entries executors s' hidle hchunks (hsame ▸ hgot)]
            -- Holding the workers asks nothing of the spawner, so both runs hold them alike.
            exact ending_conclude_congr _ _ _ handles chunks.length _ _ _ _ _
  · rw [run_of_used o _ config entries executors s hidle,
      run_of_used o _ config entries executors s' hidle]
    exact ⟨rfl, rfl⟩

end Run

section Report

variable (o : Orchestrator) (spawner : Spawning σ) (cancelledEarly : Bool)
  (connection : Except Failure Unit) (happenings : List Exchange → List Happening)
  (config : RunConfig) (entries : List Entry) (executors : Int) (s : σ)

/-- The workers that a run gets, with the spawner after that. -/
def Gets (handles : List Handle) (after : σ) : Prop :=
  o.state = .idle ∧ ∃ chunks, Partition.chunks entries executors = .ok chunks ∧
    (acquisition spawner chunks s).1 = .ok handles ∧ (acquisition spawner chunks s).2.state = after

/-- What is reported of giving workers back is what came of the attempt, and nothing when there were
no workers. -/
def Discloses (cleanup? : Option CleanupError) : Prop :=
  (∀ handles after, o.Gets spawner entries executors s handles after →
    cleanup? = CleanupError.of? handles (dismissal spawner handles after).1) ∧
  ((∀ handles after, ¬ o.Gets spawner entries executors s handles after) → cleanup? = none)

/-- A run without workers reports nothing of giving them back. -/
theorem discloses_of_none (hgets : ∀ handles after, ¬ o.Gets spawner entries executors s handles after)
    {cleanup? : Option CleanupError} (hnone : cleanup? = none) :
    o.Discloses spawner entries executors s cleanup? :=
  ⟨fun handles after h => absurd h (hgets handles after), fun _ => hnone⟩

/-- Beside a result or an error of a run stands what came of giving the workers back. -/
theorem discloses_run
    (haccounted : (o.run (.amid spawner cancelledEarly connection happenings) config entries
      executors s).IsAccounted) :
    o.Discloses spawner entries executors s
      (o.run (.amid spawner cancelledEarly connection happenings) config entries executors
        s).cleanup? := by
  by_cases hidle : o.state = .idle
  · cases hchunks : Partition.chunks entries executors with
    | error failure =>
        refine discloses_of_none o spawner entries executors s ?_ ?_
        · rintro handles after ⟨-, chunks, hsome, -⟩
          rw [hchunks] at hsome
          cases hsome
        · rw [Report.cleanup?, (run_of_invalid o _ config entries executors s hidle hchunks).1]
    | ok chunks =>
        cases hgot : (acquisition spawner chunks s).1 with
        | error failure =>
            refine discloses_of_none o spawner entries executors s ?_ ?_
            · rintro handles after ⟨-, chunks', hsome, hacquired, -⟩
              cases hchunks.symm.trans hsome
              rw [hgot] at hacquired
              cases hacquired
            · rw [run_of_unprovided o _ config entries executors s hidle hchunks hgot]
              rfl
        | ok handles =>
            rw [run_of_provided o _ config entries executors s hidle hchunks hgot] at haccounted ⊢
            have hcleanup := cleanup?_conclude _ _ handles chunks.length _ _ _
              (fun failure => foreign_of_escape) haccounted
            refine ⟨?_, fun hgets => absurd ⟨hidle, chunks, hchunks, hgot, rfl⟩ (hgets handles _)⟩
            rintro handles' after ⟨-, chunks', hsome, hacquired, rfl⟩
            cases hchunks.symm.trans hsome
            cases hgot.symm.trans hacquired
            exact hcleanup
  · refine discloses_of_none o spawner entries executors s (fun _ _ h => hidle h.1) ?_
    rw [run_of_used o _ config entries executors s hidle]
    rfl

end Report

/-- Two runs that differ in what their spawners do about a release, and get the same workers, end in
the same state with the same tree and number of chunks or the same failure. When that is a result or
an error of a run, the report beside it is the `CleanupError` that the release raised, or one with
any other failure for every worker in order, or nothing when the release succeeded or there were no
workers. -/
theorem unmasked_by_release (o : Orchestrator) (spawner : Spawning σ) (spawner' : Spawning τ)
    (cancelledEarly : Bool) (connection : Except Failure Unit)
    (happenings : List Exchange → List Happening) (config : RunConfig) (entries : List Entry)
    (executors : Int) (s : σ) (s' : τ)
    (hacquired : ∀ chunks, Partition.chunks entries executors = .ok chunks →
      (acquisition spawner chunks s).1 = (acquisition spawner' chunks s').1) :
    let report := o.run (.amid spawner cancelledEarly connection happenings) config entries executors s
    let report' :=
      o.run (.amid spawner' cancelledEarly connection happenings) config entries executors s'
    report.orchestrator = report'.orchestrator ∧ report.ending = report'.ending ∧
      (report.IsAccounted → o.Discloses spawner entries executors s report.cleanup? ∧
        o.Discloses spawner' entries executors s' report'.cleanup?) := by
  intro report report'
  obtain ⟨hending, hstate⟩ := ending_run_congr o spawner spawner' cancelledEarly connection
    happenings config entries executors s s' hacquired
  refine ⟨hstate, hending, fun haccounted => ⟨?_, ?_⟩⟩
  · exact discloses_run o spawner cancelledEarly connection happenings config entries executors s
      haccounted
  · refine discloses_run o spawner' cancelledEarly connection happenings config entries executors s'
      fun failure hfailure => ?_
    exact haccounted failure (hending.trans hfailure)

end Orchestrator

namespace Sample

/-- A spawner with the same two workers that cannot give them back. -/
def stubborn : Spawning Unit :=
  ⟨fun _ => pure handles, fun _ => Action.fail (.system "OSError" "gone")⟩

end Sample

namespace Orchestrator

theorem unmasked_by_release_stubborn :
    let happenings := Sample.answered List.reverse Sample.honestReply
    let report := idle.run (.amid Sample.pair false (.ok ()) happenings) Sample.config
      Sample.entries 2 ()
    let report' := idle.run (.amid Sample.stubborn false (.ok ()) happenings) Sample.config
      Sample.entries 2 ()
    report'.orchestrator.state = .completed ∧ report'.ending = report.ending ∧
      report.cleanup? = none ∧
      report'.cleanup? = some ⟨Sample.handles.map fun h => ⟨h, "OSError: gone"⟩⟩ := by
  intro happenings report report'
  obtain ⟨hstate, hending, hdiscloses⟩ := unmasked_by_release idle Sample.pair Sample.stubborn false
    (.ok ()) happenings Sample.config Sample.entries 2 () () fun _ _ => rfl
  have hcompleted : report.orchestrator.state = .completed := by decide +kernel
  have haccounted : report.IsAccounted := by
    intro failure hfailure
    have hok : report.outcome.toOption.isSome = true := by decide +kernel
    rw [Report.ending] at hfailure
    cases houtcome : report.outcome with
    | ok r =>
        rw [houtcome] at hfailure
        cases hfailure
    | error failed =>
        rw [houtcome] at hok
        cases hok
  obtain ⟨hfirst, hsecond⟩ := hdiscloses haccounted
  have hgets : ∀ spawner : Spawning Unit, (∀ chunks, (acquisition spawner chunks ()).1 = .ok
      Sample.handles) → idle.Gets spawner Sample.entries 2 () Sample.handles () :=
    fun spawner h => ⟨rfl, Sample.chunks, Sample.chunks_entries, h _, rfl⟩
  refine ⟨?_, hending.symm, ?_, ?_⟩
  · rw [← hcompleted]
    exact congrArg Orchestrator.state hstate.symm
  · exact hfirst.1 _ _ (hgets Sample.pair fun _ => rfl)
  · exact hsecond.1 _ _ (hgets Sample.stubborn fun _ => rfl)

end Orchestrator

end SumTree
