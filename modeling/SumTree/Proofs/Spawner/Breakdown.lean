import SumTree.Proofs.Spawner.Effects
import SumTree.Proofs.Spawner.Provisioning

/-!
# Acquisitions that fail

A failing acquisition of a spawner of services breaks down for some cause, and the kind of the cause
decides everything else. An expected cause is reported as a failure of provisioning and what is held
is given up; any other cause is passed on and everything stays as it is. Both have their price. What is
passed on leaves services and networks behind that no worker uses (`Service.acquire_of_nothing`). What
is given up is whatever the spawner holds, also when live workers use it
(`Service.takesDown_iff_of_acquire_failed`).
-/

namespace SumTree

variable {σ : Type}

namespace Service

open Hosted SumTree.Action

variable (c : ServiceConfig) (engine : Engine σ) (site : Site σ)

/-! ### With nothing held before -/

section Provisions

variable {c engine site} {count : Nat} {w : Logged (Hosted (Observed σ))} {ds : List Dealing}
  {l : Lease}

theorem Provisions.succeeded {handles : List Handle}
    (h : Provisions c engine site count w ds (.ok handles) l) :
    ComesUp c engine site w handles ∧
      ∀ d ∈ ds, ∀ failure, d.failure? = some failure → failure.isShortage = true := by
  cases h with
  | ready hnumber hup hbrings => exact ⟨hup, hbrings.succeeded⟩

/-- A service that is found is not removed in the same acquisition. -/
theorem Provisions.removesService {result : Except Failure (List Handle)}
    (h : Provisions c engine site count w ds result l) (hcount : 0 < count) {name : String}
    {names : List String} (hname : c.serviceName? = some name)
    (hmem : .findServices name (.ok names) ∈ ds) (hfound : name ∈ names) :
    ∀ d ∈ ds, d.removesService = false := by
  have hkeeps : ∀ {ds : List Dealing} {result : Except Failure Unit} {l : Lease},
      BringsUp c.serviceName? count w.state.lease ds result l →
        ∀ d ∈ ds, d.removesService = false :=
    fun h d hd => Dealing.removesService_eq_false (h.takesDown hcount d hd)
  cases h with
  | refused hnodes reason => exact absurd hmem List.not_mem_nil
  | unmarked hmark => exact absurd hmem List.not_mem_nil
  | ready hnumber hup hbrings => exact hkeeps hbrings
  | passedOn hbreak hcause hbrings => exact hkeeps hbrings
  | reported hbreak hcause hnone hbrings => exact hkeeps hbrings
  | undone hbreak hcause hsome hbrings hgives =>
      -- The lease counts the service as found, so that giving it up only scales it.
      have hmem' := (List.mem_append.mp hmem).resolve_right hgives.findServices_notMem
      have hbrings' := hbrings
      rw [hname] at hbrings'
      have hgiven := hgives.removesService (hbrings'.held_of_found hmem' hfound).2
      intro d hd
      exact (List.mem_append.mp hd).elim (hkeeps hbrings d) (hgiven d)

/-- A service that is found is scaled to nothing when it is given up. -/
theorem exists_scaled_of_gives {between : Lease} {ds' : List Dealing}
    {result result' : Except Failure Unit}
    (hbrings : BringsUp c.serviceName? count w.state.lease ds result between)
    (hgives : GivesUp between ds' result' l) {name : String} {names : List String}
    (hname : c.serviceName? = some name) (hmem : .findServices name (.ok names) ∈ ds ++ ds')
    (hfound : name ∈ names) : ∃ answer, .scaleService name 0 answer ∈ ds ++ ds' := by
  have hmem' := (List.mem_append.mp hmem).resolve_right hgives.findServices_notMem
  rw [hname] at hbrings
  obtain ⟨hservice, hcreated⟩ := hbrings.held_of_found hmem' hfound
  obtain ⟨answer, hanswer⟩ := hgives.exists_dismissal hservice
  rw [Lease.dismissal, hcreated] at hanswer
  exact ⟨answer, List.mem_append_right _ hanswer⟩

/-- When a spawner that holds nothing cannot provision workers, the cause decides what is left. -/
theorem Provisions.broke {failure : Failure}
    (h : Provisions c engine site count w ds (.error failure) l) (hcount : 0 < count)
    (hnothing : w.state.lease = .none)
    (hmark : ∀ w, ∃ tag, (site.runTag.perform w).1 = .ok tag) :
    (ds = [] ∧ ∃ reason, failure = .run (.provisioning count reason)) ∨
      ∃ cause between, BreaksDown c engine site w cause between ∧
        (isExpected cause = true →
          (∀ name names, c.serviceName? = some name → .findServices name (.ok names) ∈ ds →
            name ∈ names → ∃ answer, .scaleService name 0 answer ∈ ds) ∧
          ((∀ d ∈ ds, d.takesDown = true → d.failure? = none) →
            failure = .run (.provisioning count cause.inFull) ∧ Cluster.made ds = .empty)) ∧
        (isExpected cause = false →
          failure = cause ∧ (∀ d ∈ ds, d.takesDown = false) ∧
            Cluster.made ds = between.state.lease.belongings) := by
  cases h with
  | refused hnodes reason => exact .inl ⟨rfl, reason, rfl⟩
  | unmarked hunmarked =>
      obtain ⟨tag, htag⟩ := hmark (w.map fun h => h.world.inner)
      have hfailed := congrArg Prod.fst hunmarked
      cases htag.symm.trans hfailed
  | passedOn hbreak hcause hbrings =>
      have hnone := hbrings.takesDown hcount
      rw [hnothing] at hbrings
      refine .inr ⟨_, _, hbreak, fun hexpected => ?_, fun _ => ⟨rfl, hnone, hbrings.made_eq⟩⟩
      simp [hcause] at hexpected
  | reported hbreak hcause hname hbrings =>
      rw [hname] at hbrings
      refine .inr ⟨_, _, hbreak, fun _ => ⟨fun name names hname' => ?_, fun _ =>
        ⟨rfl, hbrings.made_of_static⟩⟩, fun hpassed => ?_⟩
      · simp [hname] at hname'
      · simp [hcause] at hpassed
  | undone hbreak hcause hname hbrings hgives =>
      refine .inr ⟨_, _, hbreak, fun _ => ⟨fun name names hname' hmem hfound =>
        exists_scaled_of_gives hbrings hgives hname' hmem hfound, fun hdone => ?_⟩, fun hpassed => ?_⟩
      · rw [hnothing] at hbrings
        obtain ⟨hempty, hundone⟩ := hgives.afterAll_belongings fun d hd =>
          hdone d (List.mem_append_right _ hd) (hgives.takesDown d hd)
        subst hundone
        rw [Cluster.made_append, hbrings.made_eq]
        exact ⟨rfl, hempty⟩
      · simp [hcause] at hpassed

end Provisions

/-- The first acquisition of a spawner. It gives workers only if bringing the service up succeeded, and
then nothing that was asked for failed but for a shortage of replicas that did not last. When it fails
no worker is live, and a service that was found is not removed. When it asked for nothing it failed for
the number of workers. Otherwise it broke down for a cause: one that is expected is reported, a service
that was found is scaled to nothing, and nothing of what was created is left if taking it down succeeds;
any other is passed on, and all that was created is left. -/
theorem acquire_of_nothing {count : Int} {world : σ} {journal : List LogRecord}
    {result : Except Failure (List Handle)} {after : Logged (Ledger (Hosted (Observed σ)))}
    (hmark : ∀ w, ∃ tag, (site.runTag.perform w).1 = .ok tag)
    (hacquire : ((provider c engine.observed site.observed).acquire count).perform
      ⟨⟨[], start ⟨world, []⟩⟩, journal⟩ = (result, after)) :
    ((provider c engine site).acquire count).perform ⟨⟨[], start world⟩, journal⟩ =
      (result, after.map (Ledger.through (Hosted.through Observed.inner))) ∧
    (∀ handles, result = .ok handles →
      ComesUp c engine site ((provider c engine.observed site.observed).announced count
        ⟨⟨[], start ⟨world, []⟩⟩, journal⟩) handles ∧
      ∀ d ∈ after.state.inner.world.dealings, ∀ failure, d.failure? = some failure →
        failure.isShortage = true) ∧
    ∀ failure, result = .error failure →
      after.state.live = [] ∧
      (∀ name names, c.serviceName? = some name →
        .findServices name (.ok names) ∈ after.state.inner.world.dealings → name ∈ names →
        ∀ d ∈ after.state.inner.world.dealings, d.removesService = false) ∧
      ((after.state.inner.world.dealings = [] ∧
          ∃ reason, failure = .run (.provisioning count reason)) ∨
        ∃ cause between, BreaksDown c engine site
            ((provider c engine.observed site.observed).announced count
              ⟨⟨[], start ⟨world, []⟩⟩, journal⟩) cause between ∧
          (isExpected cause = true →
            (∀ name names, c.serviceName? = some name →
              .findServices name (.ok names) ∈ after.state.inner.world.dealings → name ∈ names →
              ∃ answer, .scaleService name 0 answer ∈ after.state.inner.world.dealings) ∧
            ((∀ d ∈ after.state.inner.world.dealings, d.takesDown = true → d.failure? = none) →
              failure = .run (.provisioning count cause.inFull) ∧
                Cluster.made after.state.inner.world.dealings = .empty)) ∧
          (isExpected cause = false →
            failure = cause ∧ (∀ d ∈ after.state.inner.world.dealings, d.takesDown = false) ∧
              Cluster.made after.state.inner.world.dealings = between.state.lease.belongings)) := by
  have hplain := (seen_observed engine site c).acquire count ⟨⟨[], start ⟨world, []⟩⟩, journal⟩
  rw [hacquire] at hplain
  obtain ⟨ds, result', l, after', hperform, hdealings, hlease, hlive, hacquires⟩ :=
    perform_acquire c engine site count ⟨⟨[], start ⟨world, []⟩⟩, journal⟩
  cases hacquire.symm.trans hperform
  have hds : after.state.inner.world.dealings = ds := hdealings
  rw [hds]
  cases hacquires with
  | refused hcount reason =>
      refine ⟨hplain, by rintro handles ⟨⟩, ?_⟩
      rintro failure ⟨⟩
      exact ⟨hlive, by simp, .inl ⟨rfl, reason, rfl⟩⟩
  | provisioned hcount hprovisions =>
      have hpositive : 0 < count.toNat := by omega
      have hcast : (count.toNat : Int) = count := by omega
      refine ⟨hplain, ?_, ?_⟩
      · rintro handles rfl
        exact hprovisions.succeeded
      · rintro failure rfl
        have hbroke := hprovisions.broke hpositive rfl hmark
        rw [hcast] at hbroke
        exact ⟨hlive, fun name names hname hmem hfound =>
          hprovisions.removesService hpositive hname hmem hfound, hbroke⟩

end Service

namespace Sample

/-- A host: what its engine runs, and how many acquisitions there were. -/
structure Host where
  cluster : Cluster
  serial : Nat

/-- A host does what its engine is asked for. -/
def does (d : Dealing) : Action Host Unit :=
  Action.change fun h => { h with cluster := h.cluster.after d }

/-- An engine that does what it is asked for, but may have trouble to find services in the course of
the second acquisition. -/
def obliging (trouble? : Option Failure) : Engine Host where
  runContainer _ := return ""
  findContainer _ := return ()
  stopContainer _ _ := return ()
  removeContainer _ := return ()
  hasNetwork name := return (← Action.state).cluster.networks.contains name
  createNetwork name driver := does (.createNetwork name driver (.ok ()))
  removeNetwork name := does (.removeNetwork name (.ok ()))
  findServices _ := do
    let h ← Action.state
    match trouble?.filter fun _ => h.serial == 2 with
    | some failure => Action.fail failure
    | none => return h.cluster.services
  createService d := does (.createService d (.ok ()))
  scaleService _ _ := return ()
  removeService name := does (.removeService name (.ok ()))
  refreshService _ := return ()
  tasks _ := return [some "running"]

/-- A machine that numbers the acquisitions, from which workers are reached as given. -/
def numbered (awaitReady : String → Number → Number → Action Host Unit) : Site Host where
  freePort _ := return 50000
  runTag := do
    let serial := (← Action.state).serial
    Action.change fun h => { h with serial := serial + 1 }
    return Decimal.render serial
  content? _ := return none
  complaint _ _ := ""
  awaitReady := awaitReady

/-- The service on a node, with the port of its workers. -/
def hostingAt (port : Int) : ServiceConfig :=
  { hosting with port := port }

/-- What an acquisition asks for where there is nothing, until the workers are waited for. -/
def opening (port : Int) : List Dealing :=
  [.hasNetwork "svc" (.ok false), .createNetwork "svc" "overlay" (.ok ()),
    .findServices "svc" (.ok []),
    .createService ⟨"svc", "image", 1, [⟨port, 4000⟩], some "svc", []⟩ (.ok ()),
    .refreshService "svc" (.ok ()), .tasks "svc" (.ok [some "running"])]

/-- What a spawner holds after the first acquisition, which asked for `ds`. -/
def opened (ds : List Dealing) : Hosted (Observed Host) :=
  ⟨some "svc", true, some "svc", ⟨⟨⟨["svc"], ["svc"]⟩, 1⟩, ds⟩⟩

end Sample

section Runs

open Sample

variable (port : Int) (trouble? : Option Failure)
  (awaitReady : String → Number → Number → Action Host Unit) (journal : List LogRecord)

/-- Where there is nothing a service is deployed, and its only replica runs at the first look. -/
theorem perform_bringUp_opening (h : Handle) : ∃ journal',
    (Service.bringUp (hostingAt port) (obliging trouble?).observed (numbered awaitReady).observed
        [h]).perform ⟨Service.start ⟨⟨.empty, 1⟩, []⟩, journal⟩ =
      (Service.onWorld ((numbered awaitReady).observed.awaitAll (.real hosting.readinessTimeout)
        (.real hosting.readinessInterval) [h])).perform ⟨opened (opening port), journal'⟩ := by
  let spec : ServiceSpec := ⟨"svc", "image", [], [⟨port, 4000⟩], "svc", "overlay"⟩
  have hdefine : (Service.definition (hostingAt port) (numbered awaitReady).observed "svc").perform
      ⟨Service.start ⟨⟨.empty, 1⟩, []⟩, journal⟩ =
        (.ok spec, ⟨Service.start ⟨⟨.empty, 1⟩, []⟩, journal⟩) := rfl
  obtain ⟨journal', hdeploy⟩ : ∃ journal',
      (Service.deploy (obliging trouble?).observed spec [h].length).perform
        ⟨Service.start ⟨⟨.empty, 1⟩, []⟩, journal⟩ =
          (.ok (), ⟨opened ((opening port).take 4), journal'⟩) := by
    cases trouble? with
    | none => exact ⟨_, rfl⟩
    | some trouble => exact ⟨_, rfl⟩
  have hcheck : (Service.checkReplicas (obliging trouble?).observed "svc" [h].length).perform
      ⟨opened ((opening port).take 4), journal'⟩ = (.ok (), ⟨opened (opening port), journal'⟩) := rfl
  exact ⟨journal', Service.perform_bringUp_of_check (c := hostingAt port) rfl hdefine hdeploy hcheck⟩

end Runs

namespace Sample

/-- A machine from which every worker is reached at once. -/
def reaching : Site (Observed Host) :=
  (numbered fun _ _ _ => return ()).observed

/-- A spawner of the replicas of that service, with the trouble of its engine. -/
def troubled (trouble? : Option Failure) : Provider (Hosted (Observed Host)) :=
  Service.provider (hostingAt 4000) (obliging trouble?).observed reaching

/-- A spawner before its first call, where there is nothing. -/
def fresh : Logged (Ledger (Hosted (Observed Host))) :=
  ⟨⟨[], Service.start ⟨⟨.empty, 0⟩, []⟩⟩, []⟩

/-- What there is once the worker is live. -/
def running : Ledger (Hosted (Observed Host)) :=
  ⟨[replica], opened (opening 4000 ++ [.awaitReady "http://node:4000" (.ok ())])⟩

/-- A failure of the engine. -/
def busy : Failure :=
  .outside ⟨.engine, "DockerException", "busy"⟩

/-- A failure of another kind. -/
def missing : Failure :=
  .elsewhere "KeyError" "'Name'"

end Sample

theorem perform_acquire_opening (trouble? : Option Failure) : ∃ journal,
    ((Sample.troubled trouble?).acquire 1).perform Sample.fresh =
      (.ok [Sample.replica], ⟨Sample.running, journal⟩) := by
  let marked := (Sample.troubled trouble?).announced 1 Sample.fresh
  have hmark : (Service.onWorld Sample.reaching.runTag).perform marked =
      (.ok "0", ⟨Service.start ⟨⟨.empty, 1⟩, []⟩, marked.journal⟩) := rfl
  obtain ⟨journal, hbring⟩ := perform_bringUp_opening 4000 trouble? (fun _ _ _ => return ())
    marked.journal Sample.replica
  have hready : (Service.onWorld (Sample.reaching.awaitAll
      (.real Sample.hosting.readinessTimeout) (.real Sample.hosting.readinessInterval)
      [Sample.replica])).perform ⟨Sample.opened (Sample.opening 4000), journal⟩ =
        (.ok (), ⟨Sample.running.inner, journal⟩) := rfl
  have hworkers : [Sample.replica] = Service.workers (Sample.hostingAt 4000) "0" := rfl
  replace hbring := hbring.trans hready
  rw [hworkers] at hbring
  exact ⟨journal, Service.perform_acquire_of_bringUp 1 (c := Sample.hostingAt 4000) (by decide) rfl
    hmark hbring⟩

/-- The first acquisition fails for a cause that is expected, and nothing is left of the network that it
created. -/
theorem Service.acquire_of_nothing_busy : ∃ after,
    ((Sample.troubled (some Sample.busy)).acquire 1).perform
        ⟨⟨[], Service.start ⟨⟨.empty, 1⟩, []⟩⟩, []⟩ =
      (.error (.run (.provisioning 1 "DockerException: busy")), after) ∧
    .createNetwork "svc" "overlay" (.ok ()) ∈ after.state.inner.world.dealings ∧
    Cluster.made after.state.inner.world.dealings = .empty := by
  obtain ⟨after, hacquire, hdealings⟩ : ∃ after,
      ((Sample.troubled (some Sample.busy)).acquire 1).perform
        ⟨⟨[], Service.start ⟨⟨.empty, 1⟩, []⟩⟩, []⟩ =
        (.error (.run (.provisioning 1 "DockerException: busy")), after) ∧
      after.state.inner.world.dealings = [.hasNetwork "svc" (.ok false),
        .createNetwork "svc" "overlay" (.ok ()), .findServices "svc" (.error Sample.busy),
        .removeNetwork "svc" (.ok ())] := ⟨_, rfl, rfl⟩
  obtain ⟨-, -, hfailed⟩ := Service.acquire_of_nothing (Sample.hostingAt 4000)
    (Sample.obliging (some Sample.busy)) (Sample.numbered fun _ _ _ => return ())
    (fun _ => ⟨_, rfl⟩) hacquire
  obtain ⟨-, -, hcases⟩ := hfailed _ rfl
  have hdone : ∀ d ∈ after.state.inner.world.dealings, d.takesDown = true → d.failure? = none := by
    rw [hdealings]
    simp [Dealing.takesDown, Dealing.failure?, failureOf?]
  refine ⟨after, hacquire, by rw [hdealings]; simp, ?_⟩
  rcases hcases with ⟨hnone, -⟩ | ⟨cause, between, ⟨tag, marked, hmark, hbring⟩, hexpected, -⟩
  · rw [hdealings] at hnone
    cases hnone
  · cases hmark
    cases hbring
    exact ((hexpected rfl).2 hdone).2

theorem endpoint_impliedPort :
    Address.endpoint "http://node:80" = .error (.value (.address "http://node:80")) := by
  decide +kernel

namespace Sample

/-- A machine that looks up the endpoint of a worker and then reaches it at once. -/
def resolving : Site Host :=
  numbered (Readiness.wait fun _ _ _ => return ())

/-- The worker of the node at the port that its scheme implies. -/
def implied : Handle :=
  ⟨"http://node:80", .service, .text "svc:0:0", 0⟩

end Sample

/-- The worker of a node has the port that its scheme implies, so that its address is refused after the
service was deployed. The failure is passed on, and the service and its network are left behind. -/
theorem Service.service_left_behind : ∃ after,
    ((Service.provider (Sample.hostingAt 80) (Sample.obliging none).observed
        Sample.resolving.observed).acquire 1).perform Sample.fresh =
      (.error (.value (.address "http://node:80")), after) ∧
    after.state.live = [] ∧
    (∀ d ∈ after.state.inner.world.dealings, d.takesDown = false) ∧
    Cluster.made after.state.inner.world.dealings = ⟨["svc"], ["svc"]⟩ ∧
    after.state.inner.world.inner.cluster = ⟨["svc"], ["svc"]⟩ := by
  let p := Service.provider (Sample.hostingAt 80) (Sample.obliging none).observed
    Sample.resolving.observed
  let marked := p.announced 1 Sample.fresh
  have hworkers : Service.workers (Sample.hostingAt 80) "0" = [Sample.implied] := rfl
  have hmark : (Service.onWorld Sample.resolving.observed.runTag).perform marked =
      (.ok "0", ⟨Service.start ⟨⟨.empty, 1⟩, []⟩, marked.journal⟩) := rfl
  obtain ⟨journal, hbring⟩ := perform_bringUp_opening 80 none
    (Readiness.wait fun _ _ _ => return ()) marked.journal Sample.implied
  have hwait : ∀ (timeout interval : Number) (w : Logged Sample.Host),
      (Sample.resolving.awaitReady "http://node:80" timeout interval).perform w =
        (.error (.value (.address "http://node:80")), w) := by
    intro timeout interval w
    have hsite : Sample.resolving.awaitReady = Readiness.wait fun _ _ _ => return () := rfl
    rw [hsite]
    exact Readiness.perform_wait_of_endpoint endpoint_impliedPort timeout interval w
  have hready : (Service.onWorld (Sample.resolving.observed.awaitAll
      (.real Sample.hosting.readinessTimeout) (.real Sample.hosting.readinessInterval)
      [Sample.implied])).perform ⟨Sample.opened (Sample.opening 80), journal⟩ =
        (.error (.value (.address "http://node:80")), ⟨Sample.opened (Sample.opening 80 ++
          [.awaitReady "http://node:80" (.error (.value (.address "http://node:80")))]), journal⟩) := by
    rw [Service.onWorld, Action.perform_onPart,
      Site.perform_awaitAll_singleton (Observed.perform_noting (hwait _ _ _))]
    rfl
  replace hbring := hbring.trans hready
  rw [← hworkers] at hbring
  have hprovision := Service.perform_provision_of_bringUp (c := Sample.hostingAt 80)
    1 rfl hmark hbring
  have hacquire := p.perform_acquire_of_provision 1 (w := Sample.fresh) (by decide)
    hprovision (by rintro handles ⟨⟩)
  exact ⟨_, hacquire, rfl, by simp [Sample.opened, Sample.opening, Dealing.takesDown], rfl, rfl⟩

namespace Service

open Hosted SumTree.Action

variable (c : ServiceConfig) (engine : Engine σ) (site : Site σ)

/-! ### While workers are live -/

/-- A failing acquisition changes nothing about the live workers themselves. What it takes down is
decided by its cause alone: nothing when it fails before it asks for anything, or for a cause that is
passed on. But for an expected cause whatever the spawner holds at that moment is asked to be taken
down, the service that live workers run on among it. -/
theorem takesDown_iff_of_acquire_failed {count : Int}
    {w after : Logged (Ledger (Hosted (Observed σ)))} {failure : Failure}
    (hfail : ((provider c engine.observed site.observed).acquire count).perform w =
      (.error failure, after)) :
    ((provider c engine site).acquire count).perform
        (w.map (Ledger.through (Hosted.through Observed.inner))) =
      (.error failure, after.map (Ledger.through (Hosted.through Observed.inner))) ∧
    after.state.live = w.state.live ∧
    ∃ more, after.state.inner.world.dealings = w.state.inner.world.dealings ++ more ∧
      ((more = [] ∧ after.state.inner.lease = w.state.inner.lease) ∨
        ∃ cause between, BreaksDown c engine site
            ((provider c engine.observed site.observed).announced count w) cause between ∧
          ((∃ d ∈ more, d.takesDown = true) ↔
            isExpected cause = true ∧ c.serviceName?.isSome = true ∧
              (between.state.service?.isSome = true ∨ between.state.network?.isSome = true)) ∧
          ∀ name, w.state.inner.service? = some name → c.serviceName? = some name →
            isExpected cause = true → ∃ answer, between.state.lease.dismissal name answer ∈ more) := by
  have hplain := (seen_observed engine site c).acquire count w
  rw [hfail] at hplain
  obtain ⟨more, result, l, after', hperform, hdealings, hlease, hlive, hacquires⟩ :=
    perform_acquire c engine site count w
  cases hfail.symm.trans hperform
  refine ⟨hplain, hlive, more, hdealings, ?_⟩
  cases hacquires with
  | refused hcount reason => exact .inl ⟨rfl, hlease⟩
  | provisioned hcount hprovisions =>
      have hpositive : 0 < count.toNat := by omega
      cases hprovisions with
      | refused hnodes reason => exact .inl ⟨rfl, hlease⟩
      | unmarked hmark => exact .inl ⟨rfl, hlease⟩
      | passedOn hbreak hcause hbrings =>
          have hnone := hbrings.takesDown hpositive
          refine .inr ⟨_, _, hbreak, ?_, ?_⟩
          · simpa [hcause] using hnone
          · intro name _ _ hcause'
            simp [hcause] at hcause'
      | reported hbreak hcause hname hbrings =>
          have hnone := hbrings.takesDown hpositive
          refine .inr ⟨_, _, hbreak, ?_, ?_⟩
          · simpa [hname] using hnone
          · intro name _ hname'
            simp [hname] at hname'
      | undone hbreak hcause hname hbrings hgives =>
          have hnone := hbrings.takesDown hpositive
          refine .inr ⟨_, _, hbreak, ?_, ?_⟩
          · -- Bringing the service up takes nothing down, and giving up does nothing else.
            have hheld := hgives.exists_mem_iff
            rw [← exists_takesDown_append hnone hgives.takesDown] at hheld
            rw [hheld, hcause, hname]
            simp [Hosted.lease]
          · intro name hheld hname' _
            have hservice := hbrings.service?_eq
            rw [hname'] at hservice
            have hbetween := hservice.elim (·.trans hheld) id
            obtain ⟨answer, hmem⟩ := hgives.exists_dismissal hbetween
            exact ⟨answer, List.mem_append_right _ hmem⟩

end Service

/-- While a worker is live an acquisition fails for a cause that is passed on. The service of the worker
is left alone. -/
theorem Service.takesDown_iff_of_acquire_failed_missing : ∃ w after more,
    (Sample.troubled (some Sample.missing)).serve [.acquire 1] Sample.fresh =
      ([.ok [Sample.replica]], w) ∧
    ((Sample.troubled (some Sample.missing)).acquire 1).perform w = (.error Sample.missing, after) ∧
    after.state.live = w.state.live ∧
    after.state.inner.world.dealings = w.state.inner.world.dealings ++ more ∧
    ∀ d ∈ more, d.takesDown = false := by
  obtain ⟨journal, hacquire⟩ := perform_acquire_opening (some Sample.missing)
  obtain ⟨after, hfail⟩ : ∃ after, ((Sample.troubled (some Sample.missing)).acquire 1).perform
      ⟨Sample.running, journal⟩ = (.error Sample.missing, after) := ⟨_, rfl⟩
  obtain ⟨-, hlive, more, hmore, hcases⟩ :=
    Service.takesDown_iff_of_acquire_failed (Sample.hostingAt 4000)
      (Sample.obliging (some Sample.missing)) (Sample.numbered fun _ _ _ => return ()) hfail
  refine ⟨_, after, more, Provider.serve_cons _ hacquire rfl, hfail, hlive, hmore, ?_⟩
  rcases hcases with ⟨rfl, -⟩ | ⟨cause, between, ⟨tag, marked, hmark, hbring⟩, htakes, -⟩
  · simp
  · cases hmark
    cases hbring
    have hpassed : Service.isExpected Sample.missing = false := rfl
    simpa [hpassed] using htakes

/-- While a worker is live an acquisition fails for a cause that is expected. The service and the
network of the worker are removed, and the worker stays live. -/
theorem Service.live_worker_dismissed : ∃ w after,
    (Sample.troubled (some Sample.busy)).serve [.acquire 1] Sample.fresh =
      ([.ok [Sample.replica]], w) ∧
    w.state.inner.world.inner.cluster = ⟨["svc"], ["svc"]⟩ ∧
    ((Sample.troubled (some Sample.busy)).acquire 1).perform w =
      (.error (.run (.provisioning 1 "DockerException: busy")), after) ∧
    after.state.live = [Sample.replica] ∧
    after.state.inner.world.dealings = w.state.inner.world.dealings ++
      [.hasNetwork "svc" (.ok true), .findServices "svc" (.error Sample.busy),
        .removeService "svc" (.ok ()), .removeNetwork "svc" (.ok ())] ∧
    after.state.inner.world.inner.cluster = .empty := by
  obtain ⟨journal, hacquire⟩ := perform_acquire_opening (some Sample.busy)
  exact ⟨_, _, Provider.serve_cons _ hacquire rfl, rfl, rfl, rfl, rfl, rfl⟩

end SumTree
