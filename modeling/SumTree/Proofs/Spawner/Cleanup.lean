import SumTree.Proofs.Spawner.History
import SumTree.Proofs.Spawner.Lease
import SumTree.Spawner.Readiness

/-!
# Cleaning up containers

An acquisition of a spawner of containers starts one after the other and waits for all of them. When
this breaks down for a cause of the engine or of the system, every container that was started is taken
down once, whatever comes of it; for any other cause the containers stay as they are and nobody knows
of them (`Containers.cleanup_of_acquire_failed`).

## Main Definitions

* `TakesDown` — the dealings by which a container is taken down.
* `Containers.ComesUp`, `Containers.BreaksDown` — starting the workers and waiting for them succeeds or
  ends with a failure.
-/

namespace SumTree

variable {σ : Type}

namespace Dealing

/-- The container that is started. -/
def started? : Dealing → Option String
  | .runContainer _ (.ok id) => some id
  | _ => none

/-- Whether a container is dealt with that was started before. -/
def isCleanup : Dealing → Bool
  | .findContainer .. | .stopContainer .. | .removeContainer .. => true
  | _ => false

end Dealing

/-- The dealings by which a container is taken down: it is found, stopped and removed, as far as this
succeeds. -/
inductive TakesDown (id : String) : List Dealing → Prop
  | lost (failure : Failure) : TakesDown id [.findContainer id (.error failure)]
  | stuck (failure : Failure) :
    TakesDown id [.findContainer id (.ok ()), .stopContainer id 5 (.error failure)]
  | asked (result : Except Failure Unit) :
    TakesDown id [.findContainer id (.ok ()), .stopContainer id 5 (.ok ()),
      .removeContainer id result]

namespace Containers

open SumTree.Action

/-- The dealings by which workers are started and waited for, and the handles that come of it. -/
structure Starts (ds : List Dealing) (handles : List Handle) : Prop where
  tokens : handles.map Handle.token = (ds.filterMap Dealing.started?).map Token.text
  forward : ∀ d ∈ ds, d.isCleanup = false

namespace Starts

variable {ds ds' : List Dealing} {handles handles' : List Handle}

theorem append (h : Starts ds handles) (h' : Starts ds' handles') :
    Starts (ds ++ ds') (handles ++ handles') where
  tokens := by rw [List.map_append, List.filterMap_append, List.map_append, h.tokens, h'.tokens]
  forward d hd := (List.mem_append.mp hd).elim (h.forward d) (h'.forward d)

theorem looks {result : Except Failure Unit} (h : Looks ds result) : Starts ds [] := by
  have hnone : ∀ d ∈ ds, d.started? = none ∧ d.isCleanup = false := by
    intro d hd
    have hlook := h.looks d hd
    cases d <;> first | exact ⟨rfl, rfl⟩ | cases hlook
  refine ⟨?_, fun d hd => (hnone d hd).2⟩
  rw [List.filterMap_eq_nil_iff.mpr fun d hd => (hnone d hd).1]
  rfl

end Starts

variable (c : ContainerConfig) (engine : Engine σ) (site : Site σ)

theorem deals_start (tag : String) (index : Nat) (w : Logged (Observed σ)) : ∃ ds result after,
    Deals Observed.dealings (start c engine.observed site.observed tag index) w ds result after ∧
      Starts ds (result.toOption.toList) ∧ (result.isOk = true → ∀ d ∈ ds, d.failure? = none) := by
  obtain ⟨port, chosen, hport⟩ := Observed.exists_passed (site.freePort c.host) w
  cases port with
  | error failure =>
      exact ⟨[], .error failure, chosen, hport.bind_error, ⟨rfl, by simp⟩, fun _ => by simp⟩
  | ok port =>
      let spec : ContainerSpec :=
        ⟨c.namesFrom ++ "_" ++ tag ++ "_" ++ toString index, c.image, c.port, c.host, port⟩
      obtain ⟨answer, run, hrun⟩ :=
        Observed.exists_noted (engine.runContainer spec) (.runContainer spec) chosen
      cases answer with
      | error failure =>
          exact ⟨[.runContainer spec (.error failure)], .error failure, run,
            .bind hport hrun.bind_error, ⟨rfl, by simp [Dealing.isCleanup]⟩, fun h => nomatch h⟩
      | ok id =>
          exact ⟨[.runContainer spec (.ok id)], .ok _, run, .bind hport (.bind hrun (.pure _)),
            ⟨rfl, by simp [Dealing.isCleanup]⟩, fun _ => List.forall_mem_singleton.mpr rfl⟩

/-- Workers are started until one cannot be. -/
theorem deals_startFrom (tag : String) (left index : Nat) (started : List Handle)
    (w : Logged (Observed σ)) : ∃ ds handles failure? after,
    Deals Observed.dealings (startFrom c engine.observed site.observed tag left index started) w ds
      (.ok (started ++ handles, failure?)) after ∧
    Starts ds handles ∧
      (failure? = none → handles.length = left ∧ ∀ d ∈ ds, d.failure? = none) := by
  induction left generalizing index started w with
  | zero =>
      refine ⟨[], [], none, w, ?_, ⟨rfl, by simp⟩, fun _ => ⟨rfl, by simp⟩⟩
      rw [List.append_nil]
      exact .pure _
  | succ left ih =>
      obtain ⟨ds, result, between, hstart, hstarts, hquiet⟩ := deals_start c engine site tag index w
      cases result with
      | error failure =>
          refine ⟨ds ++ [], [], some failure, between, ?_, ?_, fun h => nomatch h⟩
          · rw [List.append_nil started]
            exact .bind hstart.attempt (.pure _)
          · rw [List.append_nil]
            exact hstarts
      | ok h =>
          -- The worker that was started is the first of those that come of the rest.
          obtain ⟨ds', handles, failure?, after, hrest, hstarts', hall⟩ :=
            ih (index + 1) (started ++ [h]) between
          refine ⟨ds ++ ds', [h] ++ handles, failure?, after, ?_, hstarts.append hstarts', ?_⟩
          · rw [← List.append_assoc]
            exact .bind hstart.attempt hrest
          · intro hnone
            obtain ⟨hlength, hquiet'⟩ := hall hnone
            refine ⟨?_, fun d hd => (List.mem_append.mp hd).elim (hquiet rfl d) (hquiet' d)⟩
            rw [List.length_append, hlength, Nat.add_comm]
            rfl

theorem deals_bringUp (count : Nat) (tag : String) (w : Logged (Observed σ)) :
    ∃ ds handles failure? after,
      Deals Observed.dealings (bringUp c engine.observed site.observed count tag) w ds
        (.ok (handles, failure?)) after ∧
      Starts ds handles ∧
        (failure? = none → handles.length = count ∧ ∀ d ∈ ds, d.failure? = none) := by
  obtain ⟨ds, handles, failure?, started, hstart, hstarts, hall⟩ :=
    deals_startFrom c engine site tag count 0 [] w
  cases failure? with
  | some failure =>
      refine ⟨ds ++ [], handles, some failure, started, .bind hstart (.pure _), ?_,
        fun h => nomatch h⟩
      rw [List.append_nil]
      exact hstarts
  | none =>
      obtain ⟨ds', result, after, hready, hlooks, hreached⟩ := site.deals_awaitAll
        (.real c.readinessTimeout) (.real c.readinessInterval) handles started
      have hboth := hstarts.append (.looks hlooks)
      rw [List.append_nil] at hboth
      cases result with
      | ok u =>
          obtain ⟨hlength, hquiet⟩ := hall rfl
          refine ⟨ds ++ (ds' ++ []), handles, none, after,
            .bind hstart (.bind hready.attempt (.pure _)), ?_, fun _ => ⟨hlength, ?_⟩⟩
          · rw [List.append_nil]
            exact hboth
          · rw [List.append_nil]
            exact fun d hd => (List.mem_append.mp hd).elim (hquiet d) (hreached rfl d)
      | error failure =>
          refine ⟨ds ++ (ds' ++ []), handles, some failure, after,
            .bind hstart (.bind hready.attempt (.pure _)), ?_, fun h => nomatch h⟩
          rw [List.append_nil]
          exact hboth

theorem deals_teardown {h : Handle} {id : String} (htoken : h.token = .text id)
    (w : Logged (Observed σ)) : ∃ ds result after,
      Deals Observed.dealings (teardown engine.observed h) w ds result after ∧ TakesDown id ds := by
  unfold teardown
  rw [htoken]
  obtain ⟨answer, found, hfind⟩ :=
    Observed.exists_noted (engine.findContainer id) (.findContainer id) w
  cases answer with
  | error failure => exact ⟨_, _, found, hfind.bind_error, .lost failure⟩
  | ok u =>
      obtain ⟨answer, stopped, hstop⟩ :=
        Observed.exists_noted (engine.stopContainer id 5) (.stopContainer id 5) found
      cases answer with
      | error failure => exact ⟨_, _, stopped, .bind hfind hstop.bind_error, .stuck failure⟩
      | ok u =>
          obtain ⟨result, removed, hremove⟩ :=
            Observed.exists_noted (engine.removeContainer id) (.removeContainer id) stopped
          exact ⟨_, result, removed, .bind hfind (.bind hstop hremove), .asked result⟩

/-- All of the containers are taken down, whatever comes of the others. -/
theorem deals_discard {handles : List Handle} {ids : List String}
    (htokens : handles.map Handle.token = ids.map Token.text) (w : Logged (Observed σ)) :
    ∃ parts after, Deals Observed.dealings ((base engine.observed).discard handles) w parts.flatten
        (.ok ()) after ∧ List.Forall₂ TakesDown ids parts := by
  induction handles generalizing ids w with
  | nil =>
      rw [List.map_nil] at htokens
      rw [List.map_eq_nil_iff.mp htokens.symm]
      exact ⟨[], w, .pure (), .nil⟩
  | cons h rest ih =>
      cases ids with
      | nil => cases htokens
      | cons id ids =>
          rw [List.map_cons, List.map_cons, List.cons.injEq] at htokens
          obtain ⟨ds, result, torn, hteardown, htakes⟩ := deals_teardown engine htokens.1 w
          cases result with
          | ok u =>
              obtain ⟨parts, after, hrest, hall⟩ := ih htokens.2 torn
              refine ⟨ds :: parts, after, ?_, .cons htakes hall⟩
              rw [List.flatten_cons]
              exact .bind hteardown.attempt hrest
          | error failure =>
              let text := "Failed to clean up worker " ++ h.address ++ " after provisioning error: " ++
                failure.text
              obtain ⟨parts, after, hrest, hall⟩ :=
                ih htokens.2 ⟨torn.state, torn.journal ++ [⟨.warning, text⟩]⟩
              refine ⟨ds :: parts, after, ?_, .cons htakes hall⟩
              rw [List.flatten_cons, ← List.nil_append parts.flatten]
              exact .bind hteardown.attempt (.bind (.log _ _) hrest)

/-- Starting `count` workers and waiting for them succeeds, for the workers `handles`. -/
def ComesUp (count : Nat) (w : Logged (Observed σ)) (handles : List Handle) : Prop :=
  ∃ tag marked between, site.observed.runTag.perform w = (.ok tag, marked) ∧
    (bringUp c engine.observed site.observed count tag).perform marked =
      (.ok (handles, none), between)

/-- Starting `count` workers and waiting for them ends with the failure `cause`. -/
def BreaksDown (count : Nat) (w : Logged (Observed σ)) (cause : Failure) : Prop :=
  ∃ tag marked handles between, site.observed.runTag.perform w = (.ok tag, marked) ∧
    (bringUp c engine.observed site.observed count tag).perform marked =
      (.ok (handles, some cause), between)

/-- Whether a failure is reported as one of provisioning. -/
def isExpected (failure : Failure) : Bool :=
  failure.isEngine || failure.isSystem

/-- What provisioning does. -/
inductive Provisions (count : Nat) (w : Logged (Observed σ)) :
    List Dealing → Except Failure (List Handle) → Prop
  | unmarked {failure : Failure} {after : Logged (Observed σ)}
    (h : site.observed.runTag.perform w = (.error failure, after)) :
    Provisions count w [] (.error failure)
  | ready {handles : List Handle} (hcount : handles.length = count)
    (hup : ComesUp c engine site count w handles) {ds : List Dealing} (h : Starts ds handles)
    (hquiet : ∀ d ∈ ds, d.failure? = none) :
    Provisions count w ds (.ok handles)
  | passedOn {cause : Failure} (hbreak : BreaksDown c engine site count w cause)
    (hcause : isExpected cause = false) {ds : List Dealing} {handles : List Handle}
    (h : Starts ds handles) : Provisions count w ds (.error cause)
  | cleanedUp {cause : Failure} (hbreak : BreaksDown c engine site count w cause)
    (hcause : isExpected cause = true) {ds : List Dealing} {handles : List Handle}
    (h : Starts ds handles) {parts : List (List Dealing)}
    (hparts : List.Forall₂ TakesDown (ds.filterMap Dealing.started?) parts) :
    Provisions count w (ds ++ parts.flatten) (.error (.run (.provisioning count cause.inFull)))

theorem deals_provision (count : Nat) (w : Logged (Observed σ)) : ∃ ds result after,
    Deals Observed.dealings (provision c engine.observed site.observed count) w ds result after ∧
      Provisions c engine site count w ds result := by
  rw [provision_eq]
  obtain ⟨answer, marked, hmark⟩ := Observed.exists_passed site.runTag w
  cases answer with
  | error failure => exact ⟨[], _, marked, hmark.bind_error, .unmarked hmark.perform⟩
  | ok tag =>
      obtain ⟨ds, handles, failure?, between, hbring, hstarts, hall⟩ :=
        deals_bringUp c engine site count tag marked
      cases failure? with
      | none =>
          have hsettled : Deals Observed.dealings (settle engine.observed count (handles, none)) between
              [] (.ok handles) between := .pure handles
          refine ⟨ds ++ [], .ok handles, between, hmark.bind (hbring.bind hsettled), ?_⟩
          obtain ⟨hlength, hquiet⟩ := hall rfl
          rw [List.append_nil]
          exact .ready hlength ⟨tag, marked, between, hmark.perform, hbring.perform⟩ hstarts hquiet
      | some cause =>
          have hbreak : BreaksDown c engine site count w cause :=
            ⟨tag, marked, handles, between, hmark.perform, hbring.perform⟩
          cases hcause : isExpected cause with
          | false =>
              refine ⟨ds ++ [], .error cause, between, hmark.bind (hbring.bind ?_), ?_⟩
              · unfold settle
                dsimp only
                rw [if_neg (by simpa [isExpected] using hcause)]
                exact .fail cause
              · rw [List.append_nil]
                exact .passedOn hbreak hcause hstarts
          | true =>
              let text := "Provisioning failed after " ++ toString handles.length
                ++ " container(s), cleaning up"
              obtain ⟨parts, after, hdiscard, hparts⟩ := deals_discard engine hstarts.tokens
                ⟨between.state, between.journal ++ [⟨.warning, text⟩]⟩
              refine ⟨ds ++ parts.flatten, .error (.run (.provisioning count cause.inFull)), after,
                hmark.bind (hbring.bind ?_), .cleanedUp hbreak hcause hstarts hparts⟩
              unfold settle
              dsimp only
              rw [if_pos (by simpa [isExpected] using hcause), ← List.nil_append parts.flatten,
                ← List.append_nil parts.flatten]
              exact .bind (.log _ _) (.bind hdiscard (.fail _))

/-- An acquisition gives workers only if all of them were started and waited for, and then nothing
failed. A failing acquisition changes nothing about the live workers. When it asked for nothing it
failed for the number of workers. Otherwise it broke down for a cause: when that comes of the engine or
of the system it is reported, and the containers that were started are taken down, all of them in order
and each once, whatever comes of it. Any other cause is passed on, and no container is taken down. -/
theorem cleanup_of_acquire_failed {count : Int} {w after : Logged (Ledger (Observed σ))}
    {result : Except Failure (List Handle)}
    (hmark : ∀ w, ∃ tag, (site.runTag.perform w).1 = .ok tag)
    (hacquire : ((provider c engine.observed site.observed).acquire count).perform w =
      (result, after)) :
    ((provider c engine site).acquire count).perform (w.map (Ledger.through Observed.inner)) =
      (result, after.map (Ledger.through Observed.inner)) ∧
    ∃ more, after.state.inner.dealings = w.state.inner.dealings ++ more ∧
      (∀ handles, result = .ok handles →
        ComesUp c engine site count.toNat
          ((provider c engine.observed site.observed).announced count w) handles ∧
        ∀ d ∈ more, d.failure? = none) ∧
      ∀ failure, result = .error failure →
        after.state.live = w.state.live ∧
        ((more = [] ∧ ∃ reason, failure = .run (.provisioning count reason)) ∨
          ∃ cause, BreaksDown c engine site count.toNat
              ((provider c engine.observed site.observed).announced count w) cause ∧
            (isExpected cause = true →
              failure = .run (.provisioning count cause.inFull) ∧
              ∃ begun parts, more = begun ++ parts.flatten ∧ (∀ d ∈ begun, d.isCleanup = false) ∧
                List.Forall₂ TakesDown (begun.filterMap Dealing.started?) parts) ∧
            (isExpected cause = false →
              failure = cause ∧ ∀ d ∈ more, d.isCleanup = false)) := by
  have hplain := (seen_observed engine site c).acquire count w
  rw [hacquire] at hplain
  by_cases hcount : count < 1
  · cases hacquire.symm.trans (Provider.perform_acquire_of_lt _ hcount w)
    refine ⟨hplain, [], (List.append_nil _).symm, (by rintro handles ⟨⟩), ?_⟩
    rintro failure ⟨⟩
    exact ⟨rfl, .inl ⟨rfl, _, rfl⟩⟩
  · obtain ⟨ds, result', provisioned, hdeals, hprovisions⟩ := deals_provision c engine site
      count.toNat ((provider c engine.observed site.observed).announced count w)
    have hperform := Provider.perform_acquire_of_provision (provider c engine.observed site.observed)
      count (by omega) hdeals.perform (by
        rintro handles rfl
        cases hprovisions with
        | ready hcount hup h hquiet => exact hcount)
    cases hacquire.symm.trans hperform
    have hcast : (count.toNat : Int) = count := by omega
    refine ⟨hplain, ds, hdeals.dealings, ?_, ?_⟩
    · rintro handles rfl
      cases hprovisions with
      | ready hcount hup h hquiet => exact ⟨hup, hquiet⟩
    · rintro failure rfl
      refine ⟨rfl, ?_⟩
      cases hprovisions with
      | unmarked hunmarked =>
          obtain ⟨tag, htag⟩ := hmark (((provider c engine.observed site.observed).announced count
            w).map Observed.inner)
          have hfailed := congrArg Prod.fst hunmarked
          cases htag.symm.trans hfailed
      | passedOn hbreak hcause h =>
          refine .inr ⟨_, hbreak, fun hexpected => ?_, fun _ => ⟨rfl, h.forward⟩⟩
          rw [hcause] at hexpected
          cases hexpected
      | cleanedUp hbreak hcause h hparts =>
          refine .inr ⟨_, hbreak, fun _ => ⟨by rw [hcast], _, _, rfl, h.forward, hparts⟩, ?_⟩
          intro hpassed
          rw [hcause] at hpassed
          cases hpassed

end Containers

namespace Sample

/-- Workers in containers, whose ports are published on a host. -/
def shipping (host : String) : ContainerConfig :=
  { image := "image", namesFrom := "worker", port := 4000, host := host, readinessTimeout := 1.0,
    readinessInterval := 1.0 }

/-- An engine that numbers its containers, has trouble with the second one, and does not get them
stopped. -/
def docking (trouble? : Option Failure) : Engine Nat :=
  { leaving with
    runContainer := fun _ => do
      let serial ← Action.state
      Action.change (· + 1)
      match trouble?.filter fun _ => serial == 2 with
      | some failure => Action.fail failure
      | none => return "c" ++ Decimal.render serial
    stopContainer := fun _ _ => Action.fail (.elsewhere "RuntimeError" "stuck") }

end Sample

/-- The second container cannot be started, and the first one is found but cannot be stopped. -/
theorem Containers.cleanup_of_acquire_failed_second : ∃ after begun parts,
    ((Containers.provider (Sample.shipping "host")
        (Sample.docking (some (.system "OSError" "no space"))).observed
        Sample.machine.observed).acquire 2).perform ⟨⟨[], ⟨0, []⟩⟩, []⟩ =
      (.error (.run (.provisioning 2 "OSError: no space")), after) ∧
    after.state.inner.dealings = begun ++ parts.flatten ∧
    after.state.inner.dealings.filterMap Dealing.started? = ["c1"] ∧
    (∀ d ∈ begun, d.isCleanup = false) ∧
    List.Forall₂ TakesDown (begun.filterMap Dealing.started?) parts := by
  obtain ⟨after, hfail, hstarted⟩ : ∃ after, ((Containers.provider (Sample.shipping "host")
      (Sample.docking (some (.system "OSError" "no space"))).observed
      Sample.machine.observed).acquire 2).perform ⟨⟨[], ⟨0, []⟩⟩, []⟩ =
        (.error (.run (.provisioning 2 "OSError: no space")), after) ∧
      after.state.inner.dealings.filterMap Dealing.started? = ["c1"] := ⟨_, rfl, rfl⟩
  obtain ⟨-, more, hmore, -, hfailed⟩ := Containers.cleanup_of_acquire_failed
    (Sample.shipping "host") (Sample.docking (some (.system "OSError" "no space"))) Sample.machine
    (fun _ => ⟨_, rfl⟩) hfail
  obtain ⟨-, hcases⟩ := hfailed _ rfl
  rcases hcases with ⟨rfl, -⟩ | ⟨cause, hbreak, hexpected, -⟩
  · rw [hmore] at hstarted
    cases hstarted
  · obtain ⟨tag, marked, handles, between, hmark, hbring⟩ := hbreak
    cases hmark
    cases hbring
    obtain ⟨-, begun, parts, rfl, hforward, hparts⟩ := hexpected rfl
    exact ⟨after, begun, parts, hfail, hmore, hstarted, hforward, hparts⟩

theorem endpoint_noHost :
    Address.endpoint "http://:50000" = .error (.value (.address "http://:50000")) := by
  decide +kernel

namespace Sample

/-- A machine that looks up the endpoint of a worker and then reaches it at once. -/
def lookingUp : Site Nat :=
  { machine with awaitReady := Readiness.wait fun _ _ _ => return () }

/-- The worker of the first container, which has no host. -/
def hostless : Handle :=
  ⟨"http://:50000", .container, .text "c1", 0⟩

end Sample

/-- The host of the workers is the empty text, which stands for every host when ports are published.
The address of the worker is refused, and its container is left behind. -/
theorem Containers.container_left_behind : ∃ after,
    ((Containers.provider (Sample.shipping "") (Sample.docking none).observed
        Sample.lookingUp.observed).acquire 1).perform ⟨⟨[], ⟨0, []⟩⟩, []⟩ =
      (.error (.value (.address "http://:50000")), after) ∧
    after.state.live = [] ∧
    after.state.inner.dealings.filterMap Dealing.started? = ["c1"] ∧
    ∀ d ∈ after.state.inner.dealings, d.isCleanup = false := by
  let c := Sample.shipping ""
  let engine := (Sample.docking none).observed
  let site := Sample.lookingUp.observed
  let refusal : Failure := .value (.address "http://:50000")
  let marked := (Containers.provider c engine site).announced 1 ⟨⟨[], ⟨0, []⟩⟩, []⟩
  have hmark : site.runTag.perform marked = (.ok "0", ⟨⟨1, []⟩, marked.journal⟩) := rfl
  obtain ⟨spec, hstart⟩ : ∃ spec,
      (Containers.startFrom c engine site "0" 1 0 []).perform ⟨⟨1, []⟩, marked.journal⟩ =
        (.ok ([Sample.hostless], none), ⟨⟨2, [.runContainer spec (.ok "c1")]⟩, marked.journal⟩) :=
    ⟨_, rfl⟩
  have hwait : ∀ (timeout interval : Number) (w : Logged Nat),
      (Sample.lookingUp.awaitReady "http://:50000" timeout interval).perform w =
        (.error refusal, w) := by
    intro timeout interval w
    have hsite : Sample.lookingUp.awaitReady = Readiness.wait fun _ _ _ => return () := rfl
    rw [hsite]
    exact Readiness.perform_wait_of_endpoint endpoint_noHost timeout interval w
  have hready : (site.awaitAll (.real c.readinessTimeout) (.real c.readinessInterval)
      [Sample.hostless]).perform ⟨⟨2, [.runContainer spec (.ok "c1")]⟩, marked.journal⟩ =
        (.error refusal, ⟨⟨2, [.runContainer spec (.ok "c1"),
          .awaitReady "http://:50000" (.error refusal)]⟩, marked.journal⟩) := by
    rw [Site.perform_awaitAll_singleton (Observed.perform_noting (hwait _ _ _))]
    rfl
  have hattempt : (Action.attempt (site.awaitAll (.real c.readinessTimeout)
      (.real c.readinessInterval) [Sample.hostless])).perform
        ⟨⟨2, [.runContainer spec (.ok "c1")]⟩, marked.journal⟩ =
        (.ok (.error refusal), ⟨⟨2, [.runContainer spec (.ok "c1"),
          .awaitReady "http://:50000" (.error refusal)]⟩, marked.journal⟩) := by
    rw [Action.perform_attempt, hready]
  have hbring : (Containers.bringUp c engine site 1 "0").perform ⟨⟨1, []⟩, marked.journal⟩ =
      (.ok ([Sample.hostless], some refusal), ⟨⟨2, [.runContainer spec (.ok "c1"),
        .awaitReady "http://:50000" (.error refusal)]⟩, marked.journal⟩) :=
    (Action.perform_bind_ok hstart).trans (Action.perform_bind_ok hattempt)
  have hprovision : ((Containers.provider c engine site).provision 1).perform marked =
      (.error refusal, ⟨⟨2, [.runContainer spec (.ok "c1"),
        .awaitReady "http://:50000" (.error refusal)]⟩, marked.journal⟩) := by
    show (Containers.provision c engine site 1).perform marked = _
    rw [Containers.provision_eq, Action.perform_bind_ok hmark, Action.perform_bind_ok hbring]
    rfl
  have hacquire := (Containers.provider c engine site).perform_acquire_of_provision 1
    (w := ⟨⟨[], ⟨0, []⟩⟩, []⟩) (by decide) hprovision (by rintro handles ⟨⟩)
  exact ⟨_, hacquire, rfl, rfl, by simp [Dealing.isCleanup]⟩

end SumTree
