import SumTree.Proofs.Spawner.Deployment
import SumTree.Proofs.Spawner.History

/-!
# Provisioning the workers of a service

What one acquisition and one release of a spawner of services do to the live handles, the lease and
the cluster (`Acquires`, `Releases`). An acquisition that asks the engine for anything either succeeds
or breaks down: bringing the service up ends with a failure, its *cause*, and the kind of the cause
alone decides whether what is held is given up and which failure is reported.

## Main Definitions

* `Service.workers` — the workers that a service is to give.
* `Service.ComesUp`, `Service.BreaksDown` — bringing the service up succeeds or ends with a failure.
* `Service.Acquires` — what an acquisition does.
* `Service.Releases` — what a release does.
-/

namespace SumTree

namespace Service

variable {σ : Type}

open Hosted SumTree.Action

/-- The workers that the service is to give, one for each node. -/
def workers (c : ServiceConfig) (tag : String) : List Handle :=
  c.nodes.zipIdx.map fun (node, index) =>
    { address := "http://" ++ node ++ ":" ++ Decimal.render c.port
      kind := .service
      token := .text (c.serviceName?.getD "static" ++ ":" ++ tag ++ ":" ++ toString index)
      index : Handle }

@[simp] theorem length_workers (c : ServiceConfig) (tag : String) :
    (workers c tag).length = c.nodes.length := by
  simp [workers]

theorem index_workers (c : ServiceConfig) (tag : String) :
    (workers c tag).map Handle.index = List.range c.nodes.length := by
  rw [workers, List.map_map, List.range_eq_range', ← List.zipIdx_map_snd 0 c.nodes]
  rfl

theorem nodup_token_workers (c : ServiceConfig) (tag : String) :
    ((workers c tag).map Handle.token).Nodup := by
  have htokens : (workers c tag).map Handle.token = (List.range c.nodes.length).map fun n =>
      Token.text (c.serviceName?.getD "static" ++ ":" ++ tag ++ ":" ++ toString n) := by
    rw [← index_workers c tag, workers, List.map_map, List.map_map, List.map_map]
    rfl
  rw [htokens]
  exact (List.nodup_range).map (Token.numbered_injective _)

variable (c : ServiceConfig) (engine : Engine σ) (site : Site σ)

/-- Bringing the service up succeeds, for the workers `handles`. -/
def ComesUp (w : Logged (Hosted (Observed σ))) (handles : List Handle) : Prop :=
  ∃ tag marked between, (onWorld site.observed.runTag).perform w = (.ok tag, marked) ∧
    handles = workers c tag ∧
    (bringUp c engine.observed site.observed handles).perform marked = (.ok (), between)

/-- Bringing the service up ends with the failure `cause`, when the spawner holds `between`. -/
def BreaksDown (w : Logged (Hosted (Observed σ))) (cause : Failure)
    (between : Logged (Hosted (Observed σ))) : Prop :=
  ∃ tag marked, (onWorld site.observed.runTag).perform w = (.ok tag, marked) ∧
    (bringUp c engine.observed site.observed (workers c tag)).perform marked =
      (.error cause, between)

/-- The failure of an acquisition once what was held is given up: that of the engine does not count. -/
def report (count : Nat) (cause : Failure) (undone : Except Failure Unit) : Failure :=
  match kept undone with
  | .ok _ => .run (.provisioning count cause.inFull)
  | .error failure => failure

/-- How workers are provisioned. -/
inductive Provisions (count : Nat) (w : Logged (Hosted (Observed σ))) :
    List Dealing → Except Failure (List Handle) → Lease → Prop
  | refused (hcount : c.nodes.length ≠ count) (reason : String) :
    Provisions count w [] (.error (.run (.provisioning count reason))) w.state.lease
  | unmarked {failure : Failure} {after : Logged (Hosted (Observed σ))}
    (h : (onWorld site.observed.runTag).perform w = (.error failure, after)) :
    Provisions count w [] (.error failure) w.state.lease
  | ready {handles : List Handle} (hcount : handles.length = count)
    (hup : ComesUp c engine site w handles) {ds : List Dealing} {l : Lease}
    (h : BringsUp c.serviceName? count w.state.lease ds (.ok ()) l) :
    Provisions count w ds (.ok handles) l
  | passedOn {cause : Failure} {between : Logged (Hosted (Observed σ))}
    (hbreak : BreaksDown c engine site w cause between) (hcause : isExpected cause = false)
    {ds : List Dealing}
    (h : BringsUp c.serviceName? count w.state.lease ds (.error cause) between.state.lease) :
    Provisions count w ds (.error cause) between.state.lease
  | reported {cause : Failure} {between : Logged (Hosted (Observed σ))}
    (hbreak : BreaksDown c engine site w cause between) (hcause : isExpected cause = true)
    (hnone : c.serviceName? = none) {ds : List Dealing}
    (h : BringsUp c.serviceName? count w.state.lease ds (.error cause) between.state.lease) :
    Provisions count w ds (.error (.run (.provisioning count cause.inFull))) between.state.lease
  | undone {cause : Failure} {between : Logged (Hosted (Observed σ))}
    (hbreak : BreaksDown c engine site w cause between) (hcause : isExpected cause = true)
    (hname : c.serviceName?.isSome = true) {ds ds' : List Dealing} {result : Except Failure Unit}
    {l : Lease}
    (h : BringsUp c.serviceName? count w.state.lease ds (.error cause) between.state.lease)
    (hgives : GivesUp between.state.lease ds' result l) :
    Provisions count w (ds ++ ds') (.error (report count cause result)) l

/-- What is done once it is known how bringing the service up ended. -/
def settle {τ : Type} (engine : Engine τ) (count : Nat) (handles : List Handle) :
    Except Failure Unit → Action (Hosted τ) (List Handle)
  | .ok () => return handles
  | .error failure =>
    if isExpected failure then do
      if c.serviceName?.isSome then retreat engine
      Provider.refuse count failure.inFull
    else Action.fail failure

theorem provision_eq {τ : Type} (engine : Engine τ) (site : Site τ) (count : Nat) :
    provision c engine site count = (
      if c.nodes.length != count then
        Provider.refuse count (toString c.nodes.length ++ " worker node(s) configured")
      else do
        let tag ← onWorld site.runTag
        let result ← Action.attempt (bringUp c engine site (workers c tag))
        settle c engine count (workers c tag) result) := by
  unfold provision
  split
  · rfl
  · refine bind_congr fun tag => bind_congr fun result => ?_
    cases result with
    | ok u => rfl
    | error failure => rfl

theorem goes_settle {count : Nat} {w marked between : Logged (Hosted (Observed σ))} {tag : String}
    {ds : List Dealing} {result : Except Failure Unit} {l : Lease} (hcount : c.nodes.length = count)
    (hmark : (onWorld site.observed.runTag).perform w = (.ok tag, marked))
    (hgoes : Goes (bringUp c engine.observed site.observed (workers c tag)) marked ds result l between)
    (hbrings : BringsUp c.serviceName? count w.state.lease ds result l) :
    ∃ ds' settled l' after,
      Goes (settle c engine.observed count (workers c tag) result) between ds' settled l' after ∧
      Provisions c engine site count w (ds ++ ds') settled l' := by
  have hlease := hgoes.lease
  have hds := List.append_nil ds
  cases result with
  | ok u =>
      refine ⟨[], _, _, between, .pure (workers c tag), ?_⟩
      rw [hds, hlease]
      exact .ready (by rw [length_workers, hcount]) ⟨tag, marked, between, hmark, rfl, hgoes.perform⟩
        hbrings
  | error cause =>
      have hbreak : BreaksDown c engine site w cause between := ⟨tag, marked, hmark, hgoes.perform⟩
      rw [← hlease] at hbrings
      unfold settle
      dsimp only
      cases hcause : isExpected cause with
      | false =>
          refine ⟨[], _, _, between, .fail cause, ?_⟩
          rw [hds]
          exact .passedOn hbreak hcause hbrings
      | true =>
          cases hname : c.serviceName? with
          | none =>
              refine ⟨[], _, _, between, .fail _, ?_⟩
              rw [hds]
              exact .reported hbreak hcause hname hbrings
          | some name =>
              obtain ⟨ds', undone, l', after, hretreat, hgives⟩ := goes_retreat engine between
              refine ⟨ds', .error (report count cause undone), l', after, ?_,
                .undone hbreak hcause (by rw [hname]; rfl) hbrings hgives⟩
              unfold report
              cases hkept : kept undone with
              | error failure =>
                  rw [hkept] at hretreat
                  exact hretreat.bind_error
              | ok failure? =>
                  rw [hkept] at hretreat
                  rw [← List.append_nil ds', ← hretreat.lease]
                  exact hretreat.bind (.fail _)

theorem goes_provision (count : Nat) (w : Logged (Hosted (Observed σ))) :
    ∃ ds result l after, Goes (provision c engine.observed site.observed count) w ds result l after ∧
      Provisions c engine site count w ds result l := by
  rw [provision_eq]
  by_cases hcount : c.nodes.length = count
  · rw [if_neg (by simp [hcount])]
    obtain ⟨answer, marked, hmark⟩ := Goes.exists_passed site.runTag w
    cases answer with
    | error failure => exact ⟨_, _, _, marked, hmark.bind_error, .unmarked hmark.perform⟩
    | ok tag =>
        obtain ⟨ds, result, l, between, hgoes, hbrings⟩ :=
          goes_bringUp engine site c (workers c tag) marked
        rw [hmark.lease, length_workers, hcount] at hbrings
        obtain ⟨ds', settled, l', after, hsettled, hprovisions⟩ :=
          goes_settle c engine site hcount hmark.perform hgoes hbrings
        exact ⟨ds ++ ds', settled, l', after, hmark.bind (hgoes.attempt.bind hsettled), hprovisions⟩
  · rw [if_pos (by simp [hcount])]
    exact ⟨[], _, _, w, .fail _, .refused hcount _⟩

/-! ### Acquisitions -/

/-- What an acquisition does: its dealings, its result and the lease that it leaves. -/
inductive Acquires (count : Int) (w : Logged (Ledger (Hosted (Observed σ)))) :
    List Dealing → Except Failure (List Handle) → Lease → Prop
  | refused (hcount : count < 1) (reason : String) :
    Acquires count w [] (.error (.run (.provisioning count reason))) w.state.inner.lease
  | provisioned (hcount : 1 ≤ count) {ds : List Dealing} {result : Except Failure (List Handle)}
    {l : Lease} (h : Provisions c engine site count.toNat
      ((provider c engine.observed site.observed).announced count w) ds result l) :
    Acquires count w ds result l

theorem length_of_provisions {count : Nat} {w : Logged (Hosted (Observed σ))} {ds : List Dealing}
    {result : Except Failure (List Handle)} {l : Lease}
    (h : Provisions c engine site count w ds result l) (handles : List Handle)
    (hresult : result = .ok handles) : handles.length = count := by
  cases h with
  | ready hcount hup hbrings =>
      cases hresult
      exact hcount
  | refused hcount reason => cases hresult
  | unmarked h => cases hresult
  | passedOn hbreak hcause h => cases hresult
  | reported hbreak hcause hnone h => cases hresult
  | undone hbreak hcause hname h hgives => cases hresult

theorem perform_acquire (count : Int) (w : Logged (Ledger (Hosted (Observed σ)))) :
    ∃ ds result l after,
      ((provider c engine.observed site.observed).acquire count).perform w = (result, after) ∧
      after.state.inner.world.dealings = w.state.inner.world.dealings ++ ds ∧
      after.state.inner.lease = l ∧
      after.state.live = (handed result).foldl Ledger.enter w.state.live ∧
      Acquires c engine site count w ds result l := by
  by_cases hcount : count < 1
  · exact ⟨[], _, _, w, Provider.perform_acquire_of_lt _ hcount w, (List.append_nil _).symm, rfl, rfl,
      .refused hcount _⟩
  · obtain ⟨ds, result, l, after, hgoes, hprovisions⟩ := goes_provision c engine site count.toNat
      ((provider c engine.observed site.observed).announced count w)
    refine ⟨ds, result, l, _, Provider.perform_acquire_of_provision _ _ (by omega) hgoes.perform
      (length_of_provisions c engine site hprovisions), hgoes.dealings, hgoes.lease, rfl,
      .provisioned (by omega) hprovisions⟩

/-! ### Releases -/

/-- Taking a worker of a service down only strikes it from the live ones. -/
theorem perform_releaseOne (done : Provider.Released) (h : Handle)
    (w : Logged (Ledger (Hosted (Observed σ)))) :
    ∃ turn live, turn.handle = h ∧
      (∀ rest last, Walk live rest last → Walk w.state.live (turn :: rest) last) ∧
      ((provider c engine.observed site.observed).releaseOne done h).perform w =
        (.ok ⟨done.failures ++ turn.leftovers, done.released ++ turn.released⟩,
          ⟨⟨live, w.state.inner⟩, w.journal⟩) := by
  by_cases hfind : Ledger.find? w.state.live h.token = some h
  · refine ⟨⟨h, .tornDown⟩, Ledger.strike w.state.live h.token, rfl,
      fun rest last hrest => .tornDown hfind hrest, ?_⟩
    rw [Provider.releaseOne, perform_bind_ok (perform_state w), if_neg (by simp [hfind]),
      Turn.leftovers, List.append_nil]
    rfl
  · refine ⟨⟨h, .notLive⟩, w.state.live, rfl, fun rest last hrest => .notLive hfind hrest, ?_⟩
    rw [Provider.releaseOne, perform_bind_ok (perform_state w), if_pos (by simp [hfind]),
      Turn.released, List.append_nil]
    · rfl
    · rintro h' ⟨⟩

theorem perform_releaseAll (handles : List Handle) (done : Provider.Released)
    (w : Logged (Ledger (Hosted (Observed σ)))) :
    ∃ turns live, turns.map Turn.handle = handles ∧ Walk w.state.live turns live ∧
      (handles.foldlM (provider c engine.observed site.observed).releaseOne done).perform w =
        (.ok ⟨done.failures ++ turns.flatMap Turn.leftovers,
          done.released ++ turns.flatMap Turn.released⟩, ⟨⟨live, w.state.inner⟩, w.journal⟩) := by
  induction handles generalizing done w with
  | nil =>
      refine ⟨[], w.state.live, rfl, .nil _, ?_⟩
      simp
  | cons h rest ih =>
      obtain ⟨turn, live, rfl, hwalk, hone⟩ := perform_releaseOne c engine site done h w
      obtain ⟨turns, last, rfl, hrest, hall⟩ := ih _ ⟨⟨live, w.state.inner⟩, w.journal⟩
      refine ⟨turn :: turns, last, rfl, hwalk _ _ hrest, ?_⟩
      rw [List.foldlM_cons, perform_bind_ok hone, hall]
      simp only [List.flatMap_cons, List.append_assoc]

/-- What a release does: nothing to the cluster, or the last workers are released and the service is
given up. -/
inductive Releases (before after : List Handle) (l : Lease) : List Dealing → Lease → Prop
  | kept (hidle : before = [] → after = [])
    (hkept : after = before ∨ after ≠ [] ∨ l.service? = none) : Releases before after l [] l
  | gaveUp (hnone : after = []) (hservice : l.service?.isSome = true) {ds : List Dealing}
    {result : Except Failure Unit} {l' : Lease} (h : GivesUp l ds result l') :
    Releases before after l ds l'

/-- A release: the turns of the handles, how it ends if any of them was taken down, and the report of
everything. -/
theorem perform_release_turns (handles : List Handle)
    (w : Logged (Ledger (Hosted (Observed σ)))) :
    ∃ turns ds late l, ∃ after : Logged (Ledger (Hosted (Observed σ))),
      turns.map Turn.handle = handles ∧ Walk w.state.live turns after.state.live ∧
      after.state.inner.world.dealings = w.state.inner.world.dealings ++ ds ∧
      after.state.inner.lease = l ∧
      (turns.flatMap Turn.released = [] → ds = [] ∧ l = w.state.inner.lease) ∧
      (turns.flatMap Turn.released ≠ [] → Finishes after.state.live (turns.flatMap Turn.released)
        w.state.inner.lease ds late l) ∧
      ((provider c engine.observed site.observed).release handles).perform w =
        (late.bind fun reports => verdict (turns.flatMap Turn.leftovers ++ reports), after) := by
  obtain ⟨turns, live, hhandles, hwalk, hall⟩ :=
    perform_releaseAll c engine site handles ⟨[], []⟩ w
  rw [List.nil_append, List.nil_append] at hall
  rw [Provider.release_eq, perform_bind_ok hall]
  by_cases hreleased : turns.flatMap Turn.released = []
  · obtain ⟨journal, hconclude⟩ := Provider.perform_conclude handles.length
      ⟨turns.flatMap Turn.leftovers, []⟩ [] ⟨⟨live, w.state.inner⟩, w.journal⟩
    rw [hreleased, if_pos List.isEmpty_nil, hconclude]
    exact ⟨turns, [], .ok [], _, ⟨⟨live, w.state.inner⟩, journal⟩, hhandles, hwalk,
      (List.append_nil _).symm, rfl, fun _ => ⟨rfl, rfl⟩, fun h => absurd hreleased h, rfl⟩
  · rw [if_neg (by simpa using hreleased), perform_bind_ok (perform_state _)]
    obtain ⟨ds, late, l, finished, hgoes, hfinishes⟩ :=
      goes_finishRelease engine live (turns.flatMap Turn.released) ⟨w.state.inner, w.journal⟩
    have hinner : (Provider.onInner ((provider c engine.observed site.observed).finishRelease live
        (turns.flatMap Turn.released))).perform ⟨⟨live, w.state.inner⟩, w.journal⟩ =
          (late, ⟨⟨live, finished.state⟩, finished.journal⟩) := by
      have hpart : Logged.map Ledger.inner ⟨⟨live, w.state.inner⟩, w.journal⟩ =
          ⟨w.state.inner, w.journal⟩ := rfl
      rw [Provider.onInner, perform_onPart, hpart]
      exact congrArg (fun r => (r.1, (⟨⟨live, r.2.state⟩, r.2.journal⟩ : Logged (Ledger _))))
        hgoes.perform
    cases late with
    | error failure =>
        exact ⟨turns, ds, .error failure, l, _, hhandles, hwalk, hgoes.dealings, hgoes.lease,
          fun h => absurd h hreleased, fun _ => hfinishes, perform_bind_error hinner⟩
    | ok reports =>
        obtain ⟨journal, hconclude⟩ := Provider.perform_conclude handles.length
          ⟨turns.flatMap Turn.leftovers, turns.flatMap Turn.released⟩ reports
          ⟨⟨live, finished.state⟩, finished.journal⟩
        exact ⟨turns, ds, .ok reports, l, _, hhandles, hwalk, hgoes.dealings, hgoes.lease,
          fun h => absurd h hreleased, fun _ => hfinishes,
          (perform_bind_ok hinner).trans hconclude⟩

theorem perform_release (handles : List Handle) (w : Logged (Ledger (Hosted (Observed σ)))) :
    ∃ ds result l after,
      ((provider c engine.observed site.observed).release handles).perform w = (result, after) ∧
      after.state.inner.world.dealings = w.state.inner.world.dealings ++ ds ∧
      after.state.inner.lease = l ∧
      Releases w.state.live after.state.live w.state.inner.lease ds l := by
  obtain ⟨turns, ds, late, l, after, -, hwalk, hdealings, hlease, hnothing, hsome, hperform⟩ :=
    perform_release_turns c engine site handles w
  refine ⟨ds, _, l, after, hperform, hdealings, hlease, ?_⟩
  have hidle : w.state.live = [] → after.state.live = [] := by
    intro hnone
    have hsubset := hwalk.subset
    rw [hnone] at hsubset
    exact List.subset_nil.mp hsubset
  by_cases hreleased : turns.flatMap Turn.released = []
  · obtain ⟨rfl, rfl⟩ := hnothing hreleased
    exact .kept hidle (.inl (hwalk.live_eq hreleased))
  · cases hsome hreleased with
    | kept hkept => exact .kept hidle (.inr hkept)
    | gaveUp hnone hservice hgives => exact .gaveUp hnone hservice hgives

/-! ### Acquisitions without a delay -/

section Prompt

variable {τ : Type} {c} {engine : Engine τ} {site : Site τ} {handles : List Handle}
  {w marked defined deployed checked after : Logged (Hosted τ)}

theorem perform_awaitReplicas_of_check {name : String} {count : Nat} (timeout interval : Number)
    (h : (checkReplicas engine name count).perform w = (.ok (), after)) :
    (awaitReplicas engine name count (Readiness.attempts timeout interval)).perform w =
      (.ok (), after) := by
  obtain ⟨left, hleft⟩ := exists_attempts timeout interval
  have hattempt : (Action.attempt (checkReplicas engine name count)).perform w =
      (.ok (.ok ()), after) := by
    rw [perform_attempt, h]
  rw [hleft, awaitReplicas, perform_bind_ok hattempt]
  rfl

/-- When the replicas run at the first look, all that is left is to wait for the workers. -/
theorem perform_bringUp_of_check {name : String} {spec : ServiceSpec}
    (hname : c.serviceName? = some name)
    (hdefine : (definition c site name).perform w = (.ok spec, defined))
    (hdeploy : (deploy engine spec handles.length).perform defined = (.ok (), deployed))
    (hcheck : (checkReplicas engine name handles.length).perform deployed = (.ok (), checked)) :
    (bringUp c engine site handles).perform w = (onWorld (site.awaitAll (.real c.readinessTimeout)
      (.real c.readinessInterval) handles)).perform checked := by
  unfold bringUp
  dsimp only
  rw [hname]
  exact (perform_bind_ok hdefine).trans ((perform_bind_ok hdeploy).trans
    (perform_bind_ok (perform_awaitReplicas_of_check _ _ hcheck)))

theorem perform_provision_of_bringUp (count : Nat) {tag : String} {result : Except Failure Unit}
    (hcount : c.nodes.length = count) (hmark : (onWorld site.runTag).perform w = (.ok tag, marked))
    (hbring : (bringUp c engine site (workers c tag)).perform marked = (result, after)) :
    (provision c engine site count).perform w =
      (settle c engine count (workers c tag) result).perform after := by
  have hattempt : (Action.attempt (bringUp c engine site (workers c tag))).perform marked =
      (.ok result, after) := by
    rw [perform_attempt, hbring]
  rw [provision_eq, if_neg (by simp [hcount]), perform_bind_ok hmark, perform_bind_ok hattempt]

theorem perform_acquire_of_bringUp (count : Int) {w : Logged (Ledger (Hosted τ))} {tag : String}
    (hcount : 1 ≤ count) (hnodes : c.nodes.length = count.toNat)
    (hmark : (onWorld site.runTag).perform ((provider c engine site).announced count w) =
      (.ok tag, marked))
    (hbring : (bringUp c engine site (workers c tag)).perform marked = (.ok (), after)) :
    ((provider c engine site).acquire count).perform w = (.ok (workers c tag),
      ⟨⟨(workers c tag).foldl Ledger.enter w.state.live, after.state⟩, after.journal⟩) := by
  refine Provider.perform_acquire_of_provision _ count hcount
    (perform_provision_of_bringUp _ hnodes hmark hbring) ?_
  rintro handles ⟨⟩
  rw [length_workers, hnodes]

end Prompt

end Service

/-! ### Workers that are reached at once -/

section Prompt

variable {σ : Type}

open SumTree.Action

/-- Nobody is waited for longer than the first attempt at a connection that succeeds. -/
theorem Readiness.perform_wait_of_connect {connect : String → Int → Number → Action σ Unit}
    {address host : String} {port : Int} {w after : Logged σ} (timeout interval : Number)
    (hendpoint : Address.endpoint address = .ok (host, port))
    (hconnect : (connect host port (attemptLimit interval)).perform w = (.ok (), after)) :
    (wait connect address timeout interval).perform w = (.ok (), after) := by
  have hfound : (endpoint address : Action σ (String × Int)).perform w = (.ok (host, port), w) := by
    rw [endpoint, hendpoint]
    rfl
  have hattempt : (attempt (connect host port (attemptLimit interval))).perform w =
      (.ok (.ok ()), after) := by
    rw [perform_attempt, hconnect]
  obtain ⟨left, hleft⟩ := exists_attempts timeout interval
  have hpersist : (persist (connect host port (attemptLimit interval))
      (attempts timeout interval)).perform w = (.ok none, after) := by
    rw [hleft, persist, perform_bind_ok hattempt]
    rfl
  exact (perform_bind_ok hfound).trans (perform_bind_ok hpersist)

/-- A worker that is reached leaves the others to be waited for. -/
theorem Site.perform_awaitAll_cons {site : Site σ} {timeout interval : Number} {h : Handle}
    {rest : List Handle} {w between after : Logged σ}
    (hready : (site.awaitReady h.address timeout interval).perform w = (.ok (), between))
    (hrest : (site.awaitAll timeout interval rest).perform between = (.ok (), after)) :
    (site.awaitAll timeout interval (h :: rest)).perform w = (.ok (), after) := by
  obtain ⟨results, waited, hresults, hrest⟩ := exists_of_perform_bind hrest
  have hall : ((h :: rest).mapM (site.reach? timeout interval)).perform w =
      (.ok (none :: results), waited) := by
    rw [List.mapM_cons, perform_bind_ok (perform_reach?_ok hready), perform_bind_ok hresults]
    rfl
  rw [awaitAll, perform_bind_ok hall]
  exact hrest

end Prompt

end SumTree
