import SumTree.Proofs.Run.Totals

/-!
# Precedence of failures

The first round that brings a failure or the signal decides how the wait for exchanges ends, and
later rounds change nothing: the failure of the lowest chunk counts
(`error?_distribute_of_failure`), and only without one the cancellation
(`error?_distribute_of_cancelled`). When the caller does not cancel, the exchanges that are given up
because of another one never give the run its error (`cancellation_from_outside`).
-/

namespace SumTree

namespace Waiting

variable {addresses : List String} {before : List Round} {r : Round}

/-- A chunk is pending after some rounds when none of them has brought it. -/
theorem mem_pending_iff {chunk : Nat} :
    chunk ∈ ((start addresses).afterAll before).pending ↔
      chunk < addresses.length ∧ firstOutcome before chunk = none := by
  rw [mem_pending_afterAll_start, firstOutcome_eq_none_iff]

/-- A round with a verdict after calm ones gives the wait its error, whatever comes later. -/
theorem error?_distribute_of_verdict (hbefore : ∀ r ∈ before, r.Calm) {e : RunError}
    (hpending : ((start addresses).afterAll before).pending ≠ [])
    (hverdict : ((start addresses).afterAll before).verdict? r = some e) (after : List Round) :
    (distribute addresses (before ++ r :: after)).error? = some e := by
  rw [distribute_eq, collect_append_of_verdict (undecided_of_calm hbefore) hpending hverdict]
  rfl

/-- The failure of the lowest chunk in the first round that decides anything is the error. -/
theorem error?_distribute_of_failure (hbefore : ∀ r ∈ before, r.Calm) {chunk : Nat}
    {failure : Failure} (hchunk : chunk < addresses.length)
    (hfresh : firstOutcome before chunk = none)
    (hfails : r.finished.lookup chunk = some (.error failure))
    (hlowest : ∀ j < chunk, firstOutcome before j = none →
      ∀ f, r.finished.lookup j ≠ some (.error f))
    (after : List Round) :
    (distribute addresses (before ++ r :: after)).error? =
      some (asRunError chunk addresses[chunk] failure) := by
  have hmem : chunk ∈ ((start addresses).afterAll before).pending :=
    mem_pending_iff.mpr ⟨hchunk, hfresh⟩
  have hverdict := verdict?_of_lowest_failure (sorted_pending_afterAll_start addresses before) hmem
    hfails fun j hj hlower => hlowest j hlower (mem_pending_iff.mp hj).2
  rw [afterAll_addresses, start_addresses, List.getElem?_eq_getElem hchunk,
    Option.getD_some] at hverdict
  exact error?_distribute_of_verdict hbefore (List.ne_nil_of_mem hmem) hverdict after

/-- The cancellation is the error when the first round that decides anything brings the signal and
no failure, as long as some exchange is pending. -/
theorem error?_distribute_of_cancelled (hbefore : ∀ r ∈ before, r.Calm) {chunk : Nat}
    (hchunk : chunk < addresses.length) (hfresh : firstOutcome before chunk = none)
    (hcancelled : r.cancelled = true)
    (hnone : ∀ j < addresses.length, firstOutcome before j = none →
      ∀ f, r.finished.lookup j ≠ some (.error f))
    (after : List Round) :
    (distribute addresses (before ++ r :: after)).error? = some cancelledByCaller := by
  have hmem : chunk ∈ ((start addresses).afterAll before).pending :=
    mem_pending_iff.mpr ⟨hchunk, hfresh⟩
  have hverdict := verdict?_of_cancelled (w := (start addresses).afterAll before) hcancelled
    fun j hj => hnone j (mem_pending_iff.mp hj).1 (mem_pending_iff.mp hj).2
  exact error?_distribute_of_verdict hbefore (List.ne_nil_of_mem hmem) hverdict after

/-- Calm rounds give the wait no error. -/
theorem error?_distribute_of_calm {rounds : List Round} (h : ∀ r ∈ rounds, r.Calm) :
    (distribute addresses rounds).error? = none := by
  cases herror : (distribute addresses rounds).error? with
  | none => rfl
  | some e =>
      obtain ⟨front, r, back, hsplit, -, -, hverdict⟩ := exists_of_error?_collect herror
      have hr : r ∈ rounds := hsplit ▸ List.mem_append_right front List.mem_cons_self
      rw [verdict?_of_calm _ (h r hr)] at hverdict
      cases hverdict

end Waiting

/-! ### Cancellations -/

theorem asRunError_of_foreign {failure : Failure} (h : failure.IsForeign) (chunk : Nat)
    (address : String) : asRunError chunk address failure =
      .exchange ⟨.failed, failure.inFull, some chunk, some address⟩ := by
  cases failure with
  | run e => exact absurd h (not_isForeign_run e)
  | _ => rfl

/-- A failure counts as a cancellation only when it is that very error. -/
theorem eq_run_of_isCancellation {chunk : Nat} {address : String} {failure : Failure}
    (h : (asRunError chunk address failure).isCancellation = true) :
    failure = .run (asRunError chunk address failure) := by
  cases failure with
  | run e => rfl
  | _ => cases h

/-- An own failure of an exchange counts as a cancellation only when the transport raised it. -/
theorem Exchange.OwnFailure.eq_broken {x : Exchange} {replied : Reply → Prop} {e : RunError}
    (h : x.OwnFailure replied (.run e)) (hcancelled : e.isCancellation = true) :
    replied (.broken (.run e)) := by
  rcases h with hrequest | ⟨reply, hreplied, hjudge⟩
  · exact absurd hrequest (Exchange.request_ne_run e)
  · exact Exchange.eq_broken_of_judge hjudge hcancelled ▸ hreplied

namespace Orchestrator

theorem eq_run_of_ofFailure {failure : Failure} {e : RunError}
    (h : Held.ofFailure failure = .error e ∨ Held.ofFailure failure = .escape (.run e)) :
    failure = .run e := by
  cases failure <;> rcases h with h | h <;> cases h
  rfl

theorem exists_fault_of_aggregate {config : RunConfig} {missing : Nat} {trees : List MiniTree}
    {e : RunError} (h : aggregate config missing trees = .error e ∨
      aggregate config missing trees = .escape (.run e)) : ∃ fault, e = .aggregation fault := by
  rw [aggregate] at h
  split at h
  · split at h
    · rcases h with h | h <;> cases h
      exact ⟨_, rfl⟩
    · rcases h with h | h <;> cases h
  · split at h
    · rcases h with h | h <;> cases h
    · rename_i failure hbuilt
      rw [eq_run_of_ofFailure h] at hbuilt
      exact Aggregator.exists_fault_of_buildFromTrees hbuilt

/-- An error of a run with which the holding of workers ends is about the roots, or it is that of the
connection, of the wait for exchanges, or of a cancellation before them. -/
theorem error_of_hold {σ : Type} {c : Circumstances σ} {config : RunConfig} {cancelled : Bool}
    {chunks : List (List Entry)} {handles : List Handle} {e : RunError}
    (h : (hold c config cancelled chunks handles).held = .error e ∨
      (hold c config cancelled chunks handles).held = .escape (.run e)) :
    cancelled = true ∨ (∃ fault, e = .aggregation fault) ∨ c.connection = .error (.run e) ∨
      (c.proceedings (exchanges config chunks handles)).ending.error? = some e := by
  cases cancelled with
  | true => exact .inl rfl
  | false =>
      refine .inr ?_
      cases hconnection : c.connection with
      | error failure =>
          rw [hold_of_unconnected config chunks handles hconnection] at h
          exact .inr (.inl (by rw [eq_run_of_ofFailure h]))
      | ok opened =>
          rw [hold_of_connected config chunks handles hconnection] at h
          simp only [exchangeAll] at h
          cases hending : (c.proceedings (exchanges config chunks handles)).ending with
          | complete trees =>
              rw [hending] at h
              exact .inl (exists_fault_of_aggregate h)
          | failed e' pending resisting stoppedLater =>
              rw [hending] at h
              dsimp only at h
              split at h
              · rcases h with h | h <;> cases h
              · rcases h with h | h <;> cases h
                exact .inr (.inr rfl)
          | stopped pending =>
              rw [hending] at h
              rcases h with h | h <;> cases h
          | unfinished =>
              rw [hending] at h
              rcases h with h | h <;> cases h

/-- Without a cancellation by the caller, what a run reports as one was raised outside: by the
spawner, the connection or the transport of a request. -/
theorem cancellation_from_outside {σ : Type} {spawner : Spawning σ}
    {connection : Except Failure Unit} {happenings : List Exchange → List Happening}
    (hcancels : ∀ xs, .cancels ∉ happenings xs) {config : RunConfig} {entries : List Entry}
    {executors : Int} {s : σ} {e : RunError} {cleanup? : Option CleanupError}
    (herror : (idle.run (.amid spawner false connection happenings) config entries executors
      s).outcome = .error ⟨.run e, cleanup?⟩)
    (hcancelled : e.isCancellation = true) :
    (∃ count after, (spawner.acquire count).perform ⟨s, []⟩ = (.error (.run e), after)) ∨
      connection = .error (.run e) ∨
      ∃ xs chunk, .replies chunk (.broken (.run e)) ∈ happenings xs := by
  cases hchunks : Partition.chunks entries executors with
  | error failure =>
      rw [(run_of_invalid idle (.amid spawner false connection happenings) config entries executors s
        rfl hchunks).1] at herror
      cases herror
      obtain ⟨fault, rfl⟩ := Partition.exists_fault_of_chunks hchunks
      cases hcancelled
  | ok chunks =>
      cases hacquired : (acquisition spawner chunks s).1 with
      | error failure =>
          obtain ⟨⟨e', houtcome, hfailure⟩, -⟩ := run_of_unacquired idle
            (.amid spawner false connection happenings) config entries executors s rfl hchunks
            hacquired
          rw [houtcome] at herror
          cases herror
          rcases hfailure with rfl | rfl
          · exact .inl ⟨_, _, Prod.ext hacquired rfl⟩
          · cases hcancelled
      | ok handles =>
          obtain ⟨before, -, hrun⟩ := run_of_acquired idle
            (.amid spawner false connection happenings) config entries executors s rfl hchunks
            hacquired
          rw [hrun] at herror
          rcases error_of_hold (held_of_conclude_eq_error _ _ handles chunks.length _ _ herror) with
            hbefore | ⟨fault, rfl⟩ | hconnection | hending
          · cases hbefore
          · cases hcancelled
          · exact .inr (.inl hconnection)
          -- An exchange of its own fails with a cancellation only when the transport raised it.
          · obtain ⟨r, -, i, x, failure, -, -, hown, rfl⟩ :=
              (Proceedings.uncancelled_play _ _ (hcancels _)).failure e hending
            rw [eq_run_of_isCancellation hcancelled] at hown
            exact .inr (.inr ⟨_, i, hown.eq_broken hcancelled⟩)

/-- The first round with a failure or the signal decides, and what comes later is ignored: the failure
of the lowest chunk is the error, wrapped with its chunk and worker unless it is an error of a run, and
otherwise the cancellation. When the caller never cancels, the error is the own failure of an
exchange, and what a run reports as a cancellation was raised outside. -/
theorem decided_by_first_round :
    (∀ (addresses : List String) (before : List Round) (r : Round), (∀ r ∈ before, r.Calm) →
      (∀ chunk failure, (hchunk : chunk < addresses.length) → firstOutcome before chunk = none →
        r.finished.lookup chunk = some (.error failure) →
        (∀ j < chunk, firstOutcome before j = none → ∀ f,
          r.finished.lookup j ≠ some (.error f)) →
        ∀ after,
          (∀ e, failure = .run e →
            (distribute addresses (before ++ r :: after)).error? = some e) ∧
          (failure.IsForeign → (distribute addresses (before ++ r :: after)).error? =
            some (.exchange ⟨.failed, failure.inFull, some chunk, some addresses[chunk]⟩))) ∧
      (∀ chunk < addresses.length, firstOutcome before chunk = none → r.cancelled = true →
        (∀ j < addresses.length, firstOutcome before j = none → ∀ f,
          r.finished.lookup j ≠ some (.error f)) →
        ∀ after, (distribute addresses (before ++ r :: after)).error? =
          some (.exchange ⟨.cancelled, "Run cancelled by caller", none, none⟩))) ∧
    (∀ (addresses : List String) (rounds : List Round), (∀ r ∈ rounds, r.Calm) →
      (distribute addresses rounds).error? = none) ∧
    (∀ (xs : List Exchange) (happenings : List Happening), .cancels ∉ happenings →
      ∀ e, (Proceedings.play xs happenings).ending.error? = some e →
        ∃ i x failure, xs[i]? = some x ∧
          x.OwnFailure (Proceedings.RepliesAmong happenings i) failure ∧
          e = asRunError i x.handle.address failure) ∧
    ∀ {σ : Type} (spawner : Spawning σ) (connection : Except Failure Unit)
      (happenings : List Exchange → List Happening), (∀ xs, .cancels ∉ happenings xs) →
      ∀ (config : RunConfig) (entries : List Entry) (executors : Int) (s : σ) (e : RunError)
        (cleanup? : Option CleanupError),
        (idle.run (.amid spawner false connection happenings) config entries executors s).outcome =
          .error ⟨.run e, cleanup?⟩ → e.isCancellation = true →
        (∃ count after, (spawner.acquire count).perform ⟨s, []⟩ = (.error (.run e), after)) ∨
          connection = .error (.run e) ∨
          ∃ xs chunk, .replies chunk (.broken (.run e)) ∈ happenings xs := by
  refine ⟨fun addresses before r hbefore => ⟨?_, ?_⟩, ?_, ?_, ?_⟩
  · intro chunk failure hchunk hfresh hfails hlowest after
    have herror :=
      Waiting.error?_distribute_of_failure hbefore hchunk hfresh hfails hlowest after
    constructor
    · rintro e rfl
      exact herror
    · intro hforeign
      rwa [asRunError_of_foreign hforeign] at herror
  · intro chunk hchunk hfresh hcancelled hnone after
    exact Waiting.error?_distribute_of_cancelled hbefore hchunk hfresh hcancelled hnone after
  · exact fun addresses rounds hcalm => Waiting.error?_distribute_of_calm hcalm
  · intro xs happenings hcancels e he
    obtain ⟨r, -, i, x, failure, hx, -, hown, herror⟩ :=
      (Proceedings.uncancelled_play xs happenings hcancels).failure e he
    exact ⟨i, x, failure, hx, hown, herror⟩
  · intro σ spawner connection happenings hcancels config entries executors s e cleanup? herror
      hcancelled
    exact cancellation_from_outside hcancels herror hcancelled

/-- The second of two workers does not answer, whereupon the exchange with the first is given up. -/
theorem decided_by_first_round_unanswered :
    (distribute ["http://a", "http://b", "http://c"]
        ([⟨[(2, .ok (Sample.tree []))], false, false, []⟩] ++
          ⟨[(1, .error (.system "OSError" "gone")), (0, .error (.elsewhere "KeyError" "root"))], true,
            false, []⟩ :: [⟨[], true, false, []⟩])).error? =
      some (.exchange ⟨.failed, "KeyError: root", some 0, some "http://a"⟩) ∧
    ∃ e, (idle.run (.amid Sample.pair false (.ok ()) fun _ => [.begins 0, .begins 1,
          .replies 1 .timedOut, .wakes 1, .collects true false [], .wakes 0,
          .collects true false []]) Sample.config Sample.entries 2 ()).outcome =
        .error ⟨.run e, none⟩ ∧ e.isCancellation = false := by
  constructor
  · refine ((decided_by_first_round.1 _ _ _ ?_).1 0 (.elsewhere "KeyError" "root") (by decide) rfl
      rfl (fun j hj => absurd hj (Nat.not_lt_zero j)) _).2 fun e h => by cases h
    intro r hr
    rw [List.mem_singleton.mp hr]
    exact Round.calm_of_trees [(2, Sample.tree [])] []
  · have houtcome : (idle.run (.amid Sample.pair false (.ok ()) fun _ => [.begins 0, .begins 1,
        .replies 1 .timedOut, .wakes 1, .collects true false [], .wakes 0,
        .collects true false []]) Sample.config Sample.entries 2 ()).outcome =
        .error ⟨.run (.exchange ⟨.unreachable, "request timed out after 1s", some 1,
          some "http://b"⟩), none⟩ := by decide +kernel
    refine ⟨_, houtcome, Bool.eq_false_iff.mpr fun hcancelled => ?_⟩
    have houtside := decided_by_first_round.2.2.2 Sample.pair (.ok ()) _
      (fun _ h => by simp at h) Sample.config Sample.entries 2 () _ none houtcome hcancelled
    rcases houtside with ⟨count, after, hacquired⟩ | hconnection | ⟨xs, chunk, hreplied⟩
    · cases hacquired
    · cases hconnection
    · simp at hreplied

end Orchestrator

end SumTree
