import SumTree.Proofs.Spawner.Books
import SumTree.Spawner.Service

/-!
# Histories of a spawner

Over any sequence of acquisitions and releases, whatever the provider does and whatever fails, the
books are kept (`Provider.serve_books`), so that handles are accounted for at every moment
(`Provider.accounts_for_handles`). What a release reports depends on its turns and on how the provider
finishes. It does not report them when finishing fails: the failure of the provider takes the place of
the report (`Service.stranger_unreported`).
-/

namespace SumTree

variable {σ : Type}

/-- The requests of a whole release keep the books, the one to finish included. -/
theorem Walk.books_finishing {acquired live last : List Handle} {turns : List Turn}
    (hwalk : Walk live turns last) {asked : List Asked} (h : Books acquired live asked)
    (released : List Handle) (late : Except Failure (List Leftover))
    (hfresh : Asked.Fresh (asked ++ (turns.flatMap Turn.asked ++ finishing last released late))) :
    Books acquired last (asked ++ (turns.flatMap Turn.asked ++ finishing last released late)) := by
  rw [← List.append_assoc] at hfresh ⊢
  have hwalked := hwalk.books h hfresh.left.left
  unfold finishing at hfresh ⊢
  split
  · rw [List.append_nil]
    exact hwalked
  · have hstep := hwalked.made (a := .finish last released late) rfl (List.nil_sublist _)
      (hfresh.left.append rfl)
    rw [List.append_nil, List.append_nil] at hstep
    exact hstep

namespace Provider

open SumTree.Action

variable (p : Provider σ)

theorem perform_answer_release {handles : List Handle} {w after : Logged (Ledger σ)}
    {result : Except Failure Unit} (h : (p.release handles).perform w = (result, after)) :
    (p.answer (.release handles)).perform w = (result.map fun _ => [], after) := by
  cases result with
  | ok u => exact perform_bind_ok h
  | error failure => exact perform_bind_error h

/-- One call keeps the books. -/
theorem answer_books (call : Call) (w : Logged (Ledger (Recorded σ))) :
    ∃ more result after, (p.recorded.answer call).perform w = (result, after) ∧
      after.state.inner.asked = w.state.inner.asked ++ more ∧
      ∀ acquired, Books acquired w.state.live w.state.inner.asked →
        Asked.Fresh (w.state.inner.asked ++ more) →
        Books (acquired ++ handed result) after.state.live (w.state.inner.asked ++ more) := by
  cases call with
  | acquire count =>
      obtain ⟨more, result, after, hacquisition, hasked, hperform⟩ := p.perform_acquire count w
      exact ⟨more, result, after, hperform, hasked, fun acquired h hfresh =>
        hacquisition.books h hfresh⟩
  | release handles =>
      obtain ⟨turns, late, after, -, hwalk, -, hasked, hperform⟩ := p.perform_release handles w
      rw [List.append_assoc] at hasked
      refine ⟨_, _, after, p.recorded.perform_answer_release hperform, hasked, ?_⟩
      intro acquired h hfresh
      rw [handed_map_nil, List.append_nil]
      exact hwalk.books_finishing h _ late hfresh

/-- Any sequence of calls keeps the books. -/
theorem serve_books (calls : List Call) (w : Logged (Ledger (Recorded σ))) :
    ∃ more results after, p.recorded.serve calls w = (results, after) ∧
      after.state.inner.asked = w.state.inner.asked ++ more ∧
      ∀ acquired, Books acquired w.state.live w.state.inner.asked →
        Asked.Fresh (w.state.inner.asked ++ more) →
        Books (acquired ++ results.flatMap handed) after.state.live
          (w.state.inner.asked ++ more) := by
  induction calls generalizing w with
  | nil =>
      refine ⟨[], [], w, rfl, (List.append_nil _).symm, fun acquired h _ => ?_⟩
      rw [List.flatMap_nil, List.append_nil, List.append_nil]
      exact h
  | cons call rest ih =>
      obtain ⟨more, result, between, hanswer, hasked, hbooks⟩ := p.answer_books call w
      obtain ⟨more', results, after, hserve, hasked', hbooks'⟩ := ih between
      refine ⟨more ++ more', result :: results, after, ?_, ?_, ?_⟩
      · rw [serve, hanswer]
        show (result :: (p.recorded.serve rest between).1, (p.recorded.serve rest between).2) = _
        rw [hserve]
      · rw [hasked', hasked, List.append_assoc]
      · intro acquired h hfresh
        rw [← List.append_assoc] at hfresh ⊢
        have hstep := hbooks acquired h hfresh.left
        rw [← hasked] at hstep hfresh ⊢
        rw [List.flatMap_cons, ← List.append_assoc]
        exact hbooks' _ hstep hfresh

/-- The handles of a spawner are accounted for, over any sequence of calls in which no token is handed
out twice, and whatever fails. What the provider was asked for is remembered without changing an
answer. After any calls, and at any moment of one more release, when a part of its list had its turns:
the live handles are the acquired ones that were not taken down, in the order of acquisition, and no
handle is to be taken down after it was. In such a release every listed handle has its turn, in order;
the provider is asked to take it down if it is live then, that is if it was live before and no earlier
turn took it down, and not otherwise. When something was taken down the provider finishes. If that
succeeds, all turns that did not take down a handle and then the provider's own reports make up the
error of the release, and there is none only when there is nothing to report; if it fails, its failure
is that of the release. -/
theorem accounts_for_handles (s : σ) (journal : List LogRecord) (calls : List Call)
    {results : List (Except Failure (List Handle))} {w : Logged (Ledger (Recorded σ))}
    (hserve : p.recorded.serve calls ⟨⟨[], ⟨s, []⟩⟩, journal⟩ = (results, w))
    (hfresh : Asked.Fresh w.state.inner.asked) :
    p.serve calls ⟨⟨[], s⟩, journal⟩ = (results, w.map Ledger.erase) ∧
    (∀ part : List Handle, ∃ done after,
      (part.foldlM p.recorded.releaseOne ⟨[], []⟩).perform w = (.ok done, after) ∧
      after.state.live = (results.flatMap handed).filter
        (fun h => h ∉ after.state.inner.asked.flatMap Asked.tornDown) ∧
      Asked.Once after.state.inner.asked) ∧
    ∀ handles : List Handle, ∃ turns late result, ∃ after : Logged (Ledger (Recorded σ)),
      (p.recorded.release handles).perform w = (result, after) ∧
      (p.release handles).perform (w.map Ledger.erase) = (result, after.map Ledger.erase) ∧
      turns.map Turn.handle = handles ∧
      (∀ before turn rest, turns = before ++ turn :: rest →
        (turn.fate = .notLive ↔
          turn.handle ∉ w.state.live ∨ turn.handle ∈ before.flatMap Turn.released)) ∧
      after.state.inner.asked = w.state.inner.asked ++ turns.flatMap Turn.asked ++
        finishing after.state.live (turns.flatMap Turn.released) late ∧
      (turns.flatMap Turn.released = [] → late = .ok []) ∧
      (∀ failure, late = .error failure → result = .error failure) ∧
      ∀ reports, late = .ok reports →
        result = verdict (turns.flatMap Turn.leftovers ++ reports) ∧
        (result = .ok () ↔ (∀ turn ∈ turns, turn.fate = .tornDown) ∧ reports = []) := by
  have hbooks : Books (results.flatMap handed) w.state.live w.state.inner.asked := by
    obtain ⟨more, results', w', hserve', hasked, hkept⟩ :=
      p.serve_books calls ⟨⟨[], ⟨s, []⟩⟩, journal⟩
    cases hserve.symm.trans hserve'
    rw [hasked] at hfresh ⊢
    exact hkept [] .empty hfresh
  refine ⟨?_, ?_, ?_⟩
  · have herased := p.serve_recorded calls ⟨⟨[], ⟨s, []⟩⟩, journal⟩
    rw [hserve] at herased
    exact herased
  · intro part
    obtain ⟨turns, after, -, hwalk, hasked, hall⟩ := p.perform_releaseAll part ⟨[], []⟩ w
    have hkept := hwalk.books hbooks hfresh
    rw [← hasked] at hkept
    exact ⟨_, after, hall, hkept.live, hkept.once⟩
  · intro handles
    obtain ⟨turns, late, after, hhandles, hwalk, hnone, hasked, hrelease⟩ :=
      p.perform_release handles w
    have herased := p.projects_release handles w
    rw [hrelease] at herased
    refine ⟨turns, late, _, after, hrelease, herased, hhandles, ?_, hasked, hnone, ?_, ?_⟩
    · intro before turn rest hturns
      exact hwalk.notLive_iff (hbooks.tokens hfresh) hturns
    · rintro failure rfl
      rfl
    · rintro reports rfl
      exact ⟨rfl, verdict_eq_ok_iff⟩

end Provider

namespace Sample

/-- A worker of the provider below. -/
def worker (serial index : Nat) : Handle :=
  ⟨"http://worker:4000", .mock, .number serial, index⟩

/-- A provider that numbers its workers, and cannot take down the second one of an acquisition. -/
def numbering : Provider Nat where
  kind := .mock
  provision count := do
    let serial ← Action.state
    Action.change (· + count)
    return (List.range count).map fun i => worker (serial + i) i
  teardown h := if h.index = 1 then Action.fail (.elsewhere "RuntimeError" "stuck") else return ()
  finishRelease _ _ := return []

/-- Two acquisitions with a release in between, whose list repeats a handle. -/
def busyCalls : List Call :=
  [.acquire 2, .release [worker 0 0, worker 1 1, worker 0 0], .acquire 1]

end Sample

/-- After these calls the books are kept, and another release of the first handle reports it. -/
theorem Provider.accounts_for_handles_repeated :
    ∃ results w, Sample.numbering.recorded.serve Sample.busyCalls ⟨⟨[], ⟨0, []⟩⟩, []⟩ = (results, w) ∧
      Asked.Fresh w.state.inner.asked ∧
      results.flatMap handed = [Sample.worker 0 0, Sample.worker 1 1, Sample.worker 2 0] ∧
      w.state.live = [Sample.worker 1 1, Sample.worker 2 0] ∧
      w.state.live = (results.flatMap handed).filter
        (fun h => h ∉ w.state.inner.asked.flatMap Asked.tornDown) ∧
      Asked.Once w.state.inner.asked ∧
      ∃ after, (Sample.numbering.recorded.release [Sample.worker 0 0]).perform w =
        (.error (.run (.cleanup
          ⟨[⟨Sample.worker 0 0, "not live (already released or unknown)"⟩]⟩)), after) := by
  obtain ⟨⟨results, w⟩, hserve⟩ : ∃ served,
      Sample.numbering.recorded.serve Sample.busyCalls ⟨⟨[], ⟨0, []⟩⟩, []⟩ = served := ⟨_, rfl⟩
  have hfresh : Asked.Fresh w.state.inner.asked := by
    cases hserve
    decide
  have hworkers : w.state.live = [Sample.worker 1 1, Sample.worker 2 0] := by
    cases hserve
    rfl
  obtain ⟨-, hmoments, hreleases⟩ :=
    Sample.numbering.accounts_for_handles 0 [] Sample.busyCalls hserve hfresh
  obtain ⟨done, after, hpart, hlive, honce⟩ := hmoments []
  cases hpart
  obtain ⟨turns, late, result, after, hrelease, -, hhandles, hnotLive, -, hnone, -, hreport⟩ :=
    hreleases [Sample.worker 0 0]
  obtain ⟨⟨h, fate⟩, rfl, rfl⟩ := List.map_eq_singleton_iff.mp hhandles
  have habsent : Sample.worker 0 0 ∉ w.state.live := by
    rw [hworkers]
    decide
  have hfate : fate = .notLive := (hnotLive [] _ [] rfl).mpr (.inl habsent)
  subst hfate
  obtain ⟨hresult, -⟩ := hreport [] (hnone rfl)
  subst hresult
  refine ⟨results, w, hserve, hfresh, ?_, hworkers, hlive, honce, after, hrelease⟩
  cases hserve
  rfl

namespace Sample

/-- A service on one node. -/
def hosting : ServiceConfig :=
  ⟨["node"], 4000, some "svc", none, "image", 120.0, 1.0⟩

/-- An engine that runs the service, and is gone when the service is to be removed. -/
def leaving : Engine Nat where
  runContainer _ := return ""
  findContainer _ := return ()
  stopContainer _ _ := return ()
  removeContainer _ := return ()
  hasNetwork _ := return true
  createNetwork _ _ := return ()
  removeNetwork _ := return ()
  findServices _ := return []
  createService _ := return ()
  scaleService _ _ := return ()
  removeService _ := Action.fail (.system "OSError" "socket gone")
  refreshService _ := return ()
  tasks _ := return [some "running"]

/-- A machine that numbers the acquisitions, and from which every worker can be reached. -/
def machine : Site Nat where
  freePort _ := return 50000
  runTag := do
    let serial ← Action.state
    Action.change (· + 1)
    return Decimal.render serial
  content? _ := return none
  complaint _ _ := ""
  awaitReady _ _ _ := return ()

/-- The provider of the replicas of that service. -/
def cluster : Provider (Hosted Nat) :=
  Service.provider hosting leaving machine

/-- The first worker of the service. -/
def replica : Handle :=
  ⟨"http://node:4000", .service, .text "svc:0:0", 0⟩

end Sample

theorem exists_attempts (timeout interval : Number) :
    ∃ left, Readiness.attempts timeout interval = left + 1 := by
  unfold Readiness.attempts
  dsimp only
  split
  · exact ⟨0, rfl⟩
  · exact ⟨_, rfl⟩

/-- The service is brought up at the first attempt, whatever the patience. -/
theorem perform_bringUp (serial : Nat) (journal : List LogRecord) : ∃ journal',
    (Service.bringUp Sample.hosting Sample.leaving Sample.machine [Sample.replica]).perform
        ⟨Service.start serial, journal⟩ =
      (.ok (), ⟨⟨some "svc", true, none, serial⟩, journal'⟩) := by
  obtain ⟨left, hleft⟩ := exists_attempts (.real Sample.hosting.readinessTimeout)
    (.real Sample.hosting.readinessInterval)
  unfold Service.bringUp
  simp only [hleft]
  exact ⟨_, rfl⟩

theorem perform_provision (journal : List LogRecord) : ∃ journal',
    (Sample.cluster.provision 1).perform ⟨Service.start 0, journal⟩ =
      (.ok [Sample.replica], ⟨⟨some "svc", true, none, 1⟩, journal'⟩) := by
  obtain ⟨journal', hbring⟩ := perform_bringUp 1 journal
  have htag : (Service.onWorld Sample.machine.runTag).perform ⟨Service.start 0, journal⟩ =
      (.ok "0", ⟨Service.start 1, journal⟩) := rfl
  have hattempt : (Action.attempt (Service.bringUp Sample.hosting Sample.leaving Sample.machine
      [Sample.replica])).perform ⟨Service.start 1, journal⟩ =
        (.ok (.ok ()), ⟨⟨some "svc", true, none, 1⟩, journal'⟩) := by
    rw [Action.perform_attempt, hbring]
  refine ⟨journal', ?_⟩
  show (Service.provision Sample.hosting Sample.leaving Sample.machine 1).perform _ = _
  rw [Service.provision, if_neg (by decide), Action.perform_bind_ok htag]
  exact Action.perform_bind_ok hattempt

/-- A handle that is not live is listed with the last worker of a service. Removing the service fails
with an error that is none of the engine's, and the release fails with that error, which lists
nothing. -/
theorem Service.stranger_unreported :
    (Sample.cluster.serve [.acquire 1, .release [Sample.worker 7 0, Sample.replica]]
        ⟨⟨[], Service.start 0⟩, []⟩).1 =
      [.ok [Sample.replica], .error (.system "OSError" "socket gone")] ∧
    Sample.worker 7 0 ∉ [Sample.replica] ∧
    ∀ e, Failure.system "OSError" "socket gone" ≠ .run (.cleanup e) := by
  let text := "Provisioning " ++ Decimal.render 1 ++ " " ++ Sample.cluster.kind.name ++ " worker(s)"
  have hlog := Action.perform_log .info text
    (⟨⟨[], Service.start 0⟩, []⟩ : Logged (Ledger (Hosted Nat)))
  obtain ⟨journal, hprovision⟩ := perform_provision [⟨.info, text⟩]
  have hinner : (Provider.onInner (Sample.cluster.provision 1)).perform
      ⟨⟨[], Service.start 0⟩, [⟨.info, text⟩]⟩ =
        (.ok [Sample.replica], ⟨⟨[], ⟨some "svc", true, none, 1⟩⟩, journal⟩) := by
    have hpart : Logged.map Ledger.inner ⟨⟨[], Service.start 0⟩, [⟨.info, text⟩]⟩ =
        ⟨Service.start 0, [⟨.info, text⟩]⟩ := rfl
    rw [Provider.onInner, Action.perform_onPart, hpart, hprovision]
  have hacquire : (Sample.cluster.acquire 1).perform ⟨⟨[], Service.start 0⟩, []⟩ =
      (.ok [Sample.replica], ⟨⟨[Sample.replica], ⟨some "svc", true, none, 1⟩⟩, journal⟩) := by
    rw [Provider.acquire, if_neg (by decide)]
    exact (Action.perform_bind_ok hlog).trans (Action.perform_bind_ok hinner)
  refine ⟨?_, by decide, ?_⟩
  · rw [Provider.serve, Provider.answer, hacquire]
    rfl
  · intro e h
    cases h

end SumTree
