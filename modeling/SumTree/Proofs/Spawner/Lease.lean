import SumTree.Proofs.Except
import SumTree.Proofs.Spawner.Cluster

/-!
# Leases of a service

What a spawner holds of the cluster is its lease: the service that it uses, whether it created it, and
the network that it created. An action of the provider of a service is a list of dealings and a change
of the lease (`Hosted.Goes`). Waiting for replicas and workers leaves the lease as it is and asks for
nothing but what there is (`Looks`); only a shortage of replicas lets it go on after a failure.

## Main Definitions

* `Lease` — what a spawner holds of the cluster.
* `Hosted.Goes` — an action with its dealings, its result and the lease that it leaves.
* `Looks` — the dealings of waiting.
-/

namespace SumTree

/-- What a spawner holds of the cluster. -/
structure Lease where
  service? : Option String
  /-- Whether the service was created rather than found. -/
  created : Bool
  /-- The network that was created. -/
  network? : Option String

variable {σ α β : Type}

/-- What a spawner holds of the cluster, without the world. -/
def Hosted.lease (h : Hosted σ) : Lease :=
  ⟨h.service?, h.created, h.network?⟩

/-- All dealings so far. -/
def Hosted.dealings (h : Hosted (Observed σ)) : List Dealing :=
  h.world.dealings

/-- An action with its dealings, its result and the lease that it leaves. -/
structure Hosted.Goes (a : Action (Hosted (Observed σ)) α) (w : Logged (Hosted (Observed σ)))
    (ds : List Dealing) (result : Except Failure α) (l : Lease)
    (after : Logged (Hosted (Observed σ))) : Prop
    extends Action.Deals Hosted.dealings a w ds result after where
  lease : after.state.lease = l

namespace Hosted.Goes

open SumTree.Action

variable {a : Action (Hosted (Observed σ)) α} {k : α → Action (Hosted (Observed σ)) β}
  {w between after : Logged (Hosted (Observed σ))} {ds ds' : List Dealing} {l l' : Lease}

theorem pure (x : α) : Goes (Pure.pure x) w [] (.ok x) w.state.lease w :=
  ⟨.pure x, rfl⟩

theorem fail (failure : Failure) :
    Goes (Action.fail failure : Action _ α) w [] (.error failure) w.state.lease w :=
  ⟨.fail failure, rfl⟩

theorem bind {x : α} {result : Except Failure β} (ha : Goes a w ds (.ok x) l between)
    (hk : Goes (k x) between ds' result l' after) : Goes (a >>= k) w (ds ++ ds') result l' after :=
  ⟨ha.toDeals.bind hk.toDeals, hk.lease⟩

theorem bind_error {failure : Failure} (ha : Goes a w ds (.error failure) l after) :
    Goes (a >>= k) w ds (.error failure) l after :=
  ⟨ha.toDeals.bind_error, ha.lease⟩

theorem attempt {result : Except Failure α} (ha : Goes a w ds result l after) :
    Goes (Action.attempt a) w ds (.ok result) l after :=
  ⟨ha.toDeals.attempt, ha.lease⟩

theorem log (level : LogLevel) (text : String) :
    Goes (Action.log level text) w [] (.ok ()) w.state.lease
      ⟨w.state, w.journal ++ [⟨level, text⟩]⟩ :=
  ⟨.log level text, rfl⟩

theorem log_bind {k : Unit → Action (Hosted (Observed σ)) β} {level : LogLevel} {text : String}
    {result : Except Failure β}
    (hk : Goes (k ()) ⟨w.state, w.journal ++ [⟨level, text⟩]⟩ ds result l after) :
    Goes (Action.log level text >>= k) w ds result l after :=
  ⟨(Deals.log level text).bind hk.toDeals, hk.lease⟩

theorem change_bind {k : Unit → Action (Hosted (Observed σ)) β}
    {f : Hosted (Observed σ) → Hosted (Observed σ)} {result : Except Failure β}
    (hdealings : (f w.state).dealings = w.state.dealings)
    (hk : Goes (k ()) ⟨f w.state, w.journal⟩ ds result l after) :
    Goes (Action.change f >>= k) w ds result l after :=
  ⟨(Deals.change hdealings).bind hk.toDeals, hk.lease⟩

theorem change {f : Hosted (Observed σ) → Hosted (Observed σ)}
    (hdealings : (f w.state).dealings = w.state.dealings) :
    Goes (Action.change f) w [] (.ok ()) (f w.state).lease ⟨f w.state, w.journal⟩ :=
  ⟨.change hdealings, rfl⟩

theorem state_bind {k : Hosted (Observed σ) → Action (Hosted (Observed σ)) β}
    {result : Except Failure β} (hk : Goes (k w.state) w ds result l after) :
    Goes (Action.state >>= k) w ds result l after :=
  ⟨Deals.state.bind hk.toDeals, hk.lease⟩

theorem onWorld {a : Action (Observed σ) α} {result : Except Failure α} {inner : Logged (Observed σ)}
    (h : Deals Observed.dealings a (w.map Hosted.world) ds result inner) :
    Goes (Service.onWorld a) w ds result w.state.lease
      ⟨{ w.state with world := inner.state }, inner.journal⟩ := by
  refine ⟨⟨?_, h.dealings⟩, rfl⟩
  rw [Service.onWorld, perform_onPart, h.perform]

theorem exists_noted (a : Action σ α) (note : Except Failure α → Dealing)
    (w : Logged (Hosted (Observed σ))) : ∃ result after,
      Goes (Service.onWorld (Observed.noting a note)) w [note result] result w.state.lease after := by
  obtain ⟨result, inner, h⟩ := Observed.exists_noted a note (w.map Hosted.world)
  exact ⟨result, _, .onWorld h⟩

theorem exists_passed (a : Action σ α) (w : Logged (Hosted (Observed σ))) : ∃ result after,
    Goes (Service.onWorld (Observed.passing a)) w [] result w.state.lease after := by
  obtain ⟨result, inner, h⟩ := Observed.exists_passed a (w.map Hosted.world)
  exact ⟨result, _, .onWorld h⟩

end Hosted.Goes

open Hosted

/-! ### Waiting -/

/-- Whether a failure is a shortage of replicas. -/
def Failure.isShortage : Failure → Bool
  | .replicas .. => true
  | _ => false

/-- Dealings by which something is only looked at. When this succeeds nothing failed but for a
shortage, which is waited out; when it fails something failed, unless the shortage lasts. -/
structure Looks (ds : List Dealing) (result : Except Failure Unit) : Prop where
  looks : ∀ d ∈ ds, d.isLook = true
  succeeded : result = .ok () → ∀ d ∈ ds, ∀ failure, d.failure? = some failure →
    failure.isShortage = true
  shortage : ∀ failure, result = .error failure → (∀ d ∈ ds, d.failure? = none) →
    failure.isShortage = true

namespace Looks

variable {ds ds' : List Dealing} {result : Except Failure Unit}

theorem nil : Looks [] (.ok ()) :=
  ⟨fun _ h => absurd h List.not_mem_nil, fun _ _ h => absurd h List.not_mem_nil,
    fun _ h => nomatch h⟩

/-- A look that fails ends everything. -/
theorem failed (ds : List Dealing) {d : Dealing} {failure : Failure} (hlook : d.isLook = true)
    (hfailure : d.failure? = some failure) (hds : ∀ d' ∈ ds, d'.isLook = true) :
    Looks (ds ++ [d]) (.error failure) := by
  refine ⟨fun d' hd' => ?_, (fun h => nomatch h), fun failure' _ hnone => ?_⟩
  · rcases List.mem_append.mp hd' with hd' | hd'
    · exact hds d' hd'
    · rw [List.mem_singleton.mp hd']
      exact hlook
  · have hd := hnone d (List.mem_append_right _ List.mem_cons_self)
    rw [hfailure] at hd
    cases hd

/-- What went before does not count, if nothing failed in it but for a shortage. -/
theorem prepend (hlooks : ∀ d ∈ ds, d.isLook = true)
    (hfailures : ∀ d ∈ ds, ∀ failure, d.failure? = some failure → failure.isShortage = true)
    (h : Looks ds' result) : Looks (ds ++ ds') result where
  looks d hd := (List.mem_append.mp hd).elim (hlooks d) (h.looks d)
  succeeded hresult d hd := (List.mem_append.mp hd).elim (hfailures d) (h.succeeded hresult d)
  shortage failure hresult hnone :=
    h.shortage failure hresult fun d hd => hnone d (List.mem_append_right _ hd)

theorem append (h : Looks ds (.ok ())) (h' : Looks ds' result) : Looks (ds ++ ds') result :=
  h'.prepend h.looks (h.succeeded rfl)

end Looks

/-- Nobody is waited for at an address that is refused. -/
theorem Readiness.perform_wait_of_endpoint {probe : String → Int → Number → Action σ Unit}
    {address : String} {fault : ValueFault}
    (h : Address.endpoint address = .error (.value fault)) (timeout interval : Number)
    (w : Logged σ) :
    (Readiness.wait probe address timeout interval).perform w = (.error (.value fault), w) := by
  have hendpoint : (Readiness.endpoint address : Action σ (String × Int)).perform w =
      (.error (.value fault), w) := by
    rw [Readiness.endpoint, h]
    rfl
  exact Action.perform_bind_error hendpoint

namespace Site

open SumTree.Action

variable (site : Site σ)

theorem perform_reach?_ok {site : Site σ} {timeout interval : Number} {h : Handle}
    {w after : Logged σ}
    (hready : (site.awaitReady h.address timeout interval).perform w = (.ok (), after)) :
    (site.reach? timeout interval h).perform w = (.ok none, after) := by
  have hattempt : (attempt (site.awaitReady h.address timeout interval)).perform w =
      (.ok (.ok ()), after) := by
    rw [perform_attempt, hready]
  exact perform_bind_ok hattempt

theorem perform_reach?_error {site : Site σ} {timeout interval : Number} {h : Handle}
    {w after : Logged σ} {failure : Failure}
    (hready : (site.awaitReady h.address timeout interval).perform w = (.error failure, after)) :
    (site.reach? timeout interval h).perform w = (.ok (some ⟨h.address, failure⟩), after) := by
  have hattempt : (attempt (site.awaitReady h.address timeout interval)).perform w =
      (.ok (.error failure), after) := by
    rw [perform_attempt, hready]
  exact perform_bind_ok hattempt

/-- One worker alone is waited for as it is. -/
theorem perform_awaitAll_singleton {site : Site σ} {timeout interval : Number} {h : Handle}
    {w after : Logged σ} {failure : Failure}
    (hready : (site.awaitReady h.address timeout interval).perform w = (.error failure, after)) :
    (site.awaitAll timeout interval [h]).perform w = (.error failure, after) := by
  have hall : ([h].mapM (site.reach? timeout interval)).perform w =
      (.ok [some ⟨h.address, failure⟩], after) := by
    rw [List.mapM_cons, perform_bind_ok (perform_reach?_error hready)]
    rfl
  -- There is no choice of the one that is given up first.
  have hfirst : (site.givenUpFirst ⟨h.address, failure⟩ []).1 = ⟨h.address, failure⟩ :=
    List.mem_singleton.mp (site.givenUpFirst ⟨h.address, failure⟩ []).2
  rw [awaitAll, perform_bind_ok hall]
  exact congrArg (fun u : Unreached => (Except.error u.failure, after)) hfirst

theorem deals_reach? (timeout interval : Number) (h : Handle) (w : Logged (Observed σ)) :
    ∃ (result : Except Failure Unit) (u? : Option Unreached) (after : Logged (Observed σ)),
      Deals Observed.dealings (site.observed.reach? timeout interval h) w
        [.awaitReady h.address result] (.ok u?) after ∧
      failureOf? result = u?.map Unreached.failure := by
  obtain ⟨result, after, hready⟩ := Observed.exists_noted
    (site.awaitReady h.address timeout interval) (.awaitReady h.address) w
  cases result with
  | ok u => exact ⟨.ok u, none, after, hready.attempt.bind (.pure none), rfl⟩
  | error failure =>
      exact ⟨.error failure, some ⟨h.address, failure⟩, after, hready.attempt.bind (.pure _), rfl⟩

/-- Every worker is waited for, whatever comes of the others. -/
theorem deals_attempts (timeout interval : Number) (handles : List Handle)
    (w : Logged (Observed σ)) : ∃ results ds after,
      Deals Observed.dealings (handles.mapM (site.observed.reach? timeout interval))
        w ds (.ok results) after ∧
      (∀ d ∈ ds, d.isLook = true) ∧
      ds.map Dealing.failure? = results.map (Option.map Unreached.failure) := by
  induction handles generalizing w with
  | nil => exact ⟨[], [], w, .pure [], fun _ h => absurd h List.not_mem_nil, rfl⟩
  | cons h rest ih =>
      obtain ⟨result, u?, between, hreach, hfailure⟩ := site.deals_reach? timeout interval h w
      obtain ⟨results, ds, after, hrest, hlooks, hfailures⟩ := ih between
      refine ⟨u? :: results, .awaitReady h.address result :: ds, after, ?_, ?_, ?_⟩
      · rw [List.mapM_cons, ← List.append_nil ds, ← List.singleton_append]
        exact .bind hreach (.bind hrest (.pure _))
      · exact List.forall_mem_cons.mpr ⟨rfl, hlooks⟩
      · rw [List.map_cons, List.map_cons, ← hfailure, ← hfailures]
        rfl

/-- When some worker is given up, one of the waits failed; when none is, no wait did. -/
theorem deals_awaitAll (timeout interval : Number) (handles : List Handle)
    (w : Logged (Observed σ)) : ∃ ds result after,
      Deals Observed.dealings (site.observed.awaitAll timeout interval handles) w ds result after ∧
      Looks ds result ∧ (result = .ok () → ∀ d ∈ ds, d.failure? = none) := by
  obtain ⟨results, ds, between, hall, hlooks, hfailures⟩ :=
    site.deals_attempts timeout interval handles w
  have hds := List.append_nil ds
  unfold awaitAll
  cases hfound : results.filterMap id with
  | nil =>
      have hquiet : ∀ d ∈ ds, d.failure? = none := by
        intro d hd
        have hmem : d.failure? ∈ results.map (Option.map Unreached.failure) := by
          rw [← hfailures]
          exact List.mem_map_of_mem hd
        obtain ⟨u?, hu, hu'⟩ := List.mem_map.mp hmem
        have hnone : u? = none := List.filterMap_eq_nil_iff.mp hfound u? hu
        rw [← hu', hnone]
        rfl
      refine ⟨ds, .ok (), between, ?_, ⟨hlooks, fun _ d hd failure hd' => ?_, fun _ h => nomatch h⟩,
        fun _ => hquiet⟩
      · rw [← hds]
        refine .bind hall ?_
        rw [hfound]
        exact .pure ()
      · rw [hquiet d hd] at hd'
        cases hd'
  | cons first rest =>
      let u := site.givenUpFirst first rest
      refine ⟨ds, .error u.1.failure, between, ?_, ⟨hlooks, (fun h => nomatch h), ?_⟩,
        fun h => nomatch h⟩
      · rw [← hds]
        refine .bind hall ?_
        rw [hfound]
        exact .fail _
      · intro failure' _ hnone
        have hu : u.1 ∈ results.filterMap id := by
          rw [hfound]
          exact u.2
        obtain ⟨u?, hmem, hu'⟩ := List.mem_filterMap.mp hu
        have hsome : some u.1.failure ∈ ds.map Dealing.failure? := by
          rw [hfailures]
          exact List.mem_map.mpr ⟨u?, hmem, congrArg (Option.map Unreached.failure) hu'⟩
        obtain ⟨d, hd, hd'⟩ := List.mem_map.mp hsome
        rw [hnone d hd] at hd'
        cases hd'

end Site

namespace Service

open Hosted SumTree.Action

variable (engine : Engine σ) (site : Site σ)

/-- One look at the replicas. -/
theorem goes_checkReplicas (name : String) (count : Nat) (w : Logged (Hosted (Observed σ))) :
    ∃ ds result after,
      Goes (checkReplicas engine.observed name count) w ds result w.state.lease after ∧
      Looks ds result ∧ (∀ running wanted, result = .error (.replicas running wanted) →
        ∀ d ∈ ds, ∀ failure, d.failure? = some failure → failure.isShortage = true) := by
  have hresult : ∀ {d : Dealing} {found : Except Failure Unit} {failure : Failure},
      d.failure? = failureOf? found → found = .error failure → d.failure? = some failure := by
    rintro d found failure hd rfl
    exact hd
  obtain ⟨refreshed, between, hrefresh⟩ :=
    Goes.exists_noted (engine.refreshService name) (.refreshService name) w
  cases refreshed with
  | error failure =>
      refine ⟨_, _, between, hrefresh.bind_error,
        Looks.failed [] rfl rfl fun _ h => absurd h List.not_mem_nil, ?_⟩
      rintro running wanted ⟨⟩ d hd failure' hd'
      rw [List.mem_singleton.mp hd] at hd'
      cases hd'
      rfl
  | ok u =>
      obtain ⟨answer, after, htasks⟩ := Goes.exists_noted (engine.tasks name) (.tasks name) between
      rw [hrefresh.lease] at htasks
      cases answer with
      | error failure =>
          refine ⟨_, _, after, hrefresh.bind htasks.bind_error,
            Looks.failed _ rfl rfl (List.forall_mem_singleton.mpr rfl), ?_⟩
          rintro running wanted ⟨⟩ d hd failure' hd'
          rcases List.mem_pair.mp hd with rfl | rfl
          · cases hd'
          · cases hd'
            rfl
      | ok states =>
          have hnone : ∀ d ∈ [Dealing.refreshService name (.ok u), .tasks name (.ok states)],
              d.isLook = true ∧ d.failure? = none := by
            intro d hd
            rcases List.mem_pair.mp hd with rfl | rfl
            · exact ⟨rfl, rfl⟩
            · exact ⟨rfl, rfl⟩
          have hquiet : ∀ d ∈ [Dealing.refreshService name (.ok u), .tasks name (.ok states)],
              ∀ failure, d.failure? = some failure → failure.isShortage = true := by
            intro d hd failure hd'
            rw [(hnone d hd).2] at hd'
            cases hd'
          by_cases hshort : states.countP (· == some "running") < count
          · refine ⟨_, .error (.replicas (states.countP (· == some "running")) count), after,
              hrefresh.bind (htasks.bind ?_),
              ⟨fun d hd => (hnone d hd).1, fun h => (nomatch h), ?_⟩, fun _ _ _ => hquiet⟩
            · show Goes (if _ then _ else _) after [] _ _ after
              rw [if_pos hshort, ← htasks.lease]
              exact .fail _
            · rintro failure ⟨⟩ -
              rfl
          · refine ⟨_, .ok (), after, hrefresh.bind (htasks.bind ?_),
              ⟨fun d hd => (hnone d hd).1, fun _ => hquiet, fun _ h => nomatch h⟩,
              fun _ _ _ => hquiet⟩
            show Goes (if _ then _ else _) after [] _ _ after
            rw [if_neg hshort, ← htasks.lease]
            exact .pure ()

theorem goes_awaitReplicas (name : String) (count left : Nat) (w : Logged (Hosted (Observed σ))) :
    ∃ ds result after,
      Goes (awaitReplicas engine.observed name count left) w ds result w.state.lease after ∧
      Looks ds result := by
  induction left generalizing w with
  | zero => exact ⟨[], .ok (), w, .pure (), .nil⟩
  | succ left ih =>
      obtain ⟨ds, result, between, hcheck, hlooks, hshort⟩ := goes_checkReplicas engine name count w
      unfold awaitReplicas
      cases result with
      | ok u =>
          refine ⟨ds ++ [], .ok (), between, hcheck.attempt.bind ?_, hlooks.append .nil⟩
          rw [← hcheck.lease]
          exact .pure ()
      | error failure =>
          have hstop : Goes (fail failure) between [] (.error failure : Except Failure Unit)
              w.state.lease between := by
            rw [← hcheck.lease]
            exact .fail failure
          have hstopped : Looks (ds ++ []) (.error failure) := by
            rw [List.append_nil]
            exact hlooks
          -- Only a shortage is waited out, unless it was the last look.
          cases failure with
          | replicas running wanted =>
              by_cases hleft : left = 0
              · refine ⟨ds ++ [], _, between, hcheck.attempt.bind ?_, hstopped⟩
                show Goes (if _ then _ else _) between [] _ _ between
                rw [if_pos hleft]
                exact hstop
              · obtain ⟨ds', result, after, hrest, hlooks'⟩ := ih between
                refine ⟨ds ++ ds', result, after, hcheck.attempt.bind ?_,
                  hlooks'.prepend hlooks.looks (hshort running wanted rfl)⟩
                show Goes (if _ then _ else _) between ds' _ _ after
                rw [if_neg hleft, ← hcheck.lease]
                exact hrest
          | run _ | value _ | compose _ | outside _ =>
              exact ⟨ds ++ [], _, between, hcheck.attempt.bind hstop, hstopped⟩

end Service

end SumTree
