import SumTree.Proofs.Spawner.Breakdown
import SumTree.Proofs.Spawner.Cleanup
import SumTree.Proofs.Spawner.Sightings

/-!
# Workers are ready when they are handed out

Whoever acquires workers gets as many as were asked for, in the order of their positions, all of them
live and each of them reached at its endpoint in the course of the acquisition. Workers of a service are
handed out only after a poll that counted enough running tasks and that came before every attempt at a
connection (`Provider.ready_of_acquire`).

Every wait is a loop that ends for one of two reasons, that it succeeded or that its patience ran out,
and the failure of the second kind is passed on. What such a loop saw when it succeeds is shown by
induction on the attempts that are left (`Readiness.shows_persist`, `Service.shows_awaitReplicas`).

## Main Definitions

* `Sighting.Reached` — a connection to the endpoint of an address succeeded.
* `Sighting.Counted` — a poll counted enough running tasks.
* `Provider.Ready` — the handles of an acquisition are as they should be.
-/

namespace SumTree

open Surveyed SumTree.Action

variable {σ : Type}

namespace Sighting

/-- A connection to the endpoint of an address succeeded. -/
def Reached (address : String) (seen : List Sighting) : Prop :=
  ∃ host port, Address.endpoint address = .ok (host, port) ∧ .probed host port (.ok ()) ∈ seen

/-- A poll of the tasks of a service counted enough of them running. -/
def Counted (service : String) (count : Nat) (seen : List Sighting) : Prop :=
  ∃ states, .polled service (.ok states) ∈ seen ∧ count ≤ states.countP (· == some "running")

variable {address service : String} {count : Nat} {seen : List Sighting}

theorem Reached.prepend (h : Reached address seen) (before : List Sighting) :
    Reached address (before ++ seen) := by
  obtain ⟨host, port, hendpoint, hmem⟩ := h
  exact ⟨host, port, hendpoint, List.mem_append_right before hmem⟩

theorem Reached.append (h : Reached address seen) (later : List Sighting) :
    Reached address (seen ++ later) := by
  obtain ⟨host, port, hendpoint, hmem⟩ := h
  exact ⟨host, port, hendpoint, List.mem_append_left later hmem⟩

theorem Counted.prepend (h : Counted service count seen) (before : List Sighting) :
    Counted service count (before ++ seen) := by
  obtain ⟨states, hmem, hcount⟩ := h
  exact ⟨states, List.mem_append_right before hmem, hcount⟩

end Sighting

open Sighting

theorem Engine.shows_runContainer (engine : Engine σ) (spec : ContainerSpec) :
    Shows Surveyed.sightings (engine.surveyed.runContainer spec)
      fun result seen => seen = [.started result] :=
  .seeing _ _

theorem Engine.shows_tasks (engine : Engine σ) (name : String) :
    Shows Surveyed.sightings (engine.surveyed.tasks name)
      fun result seen => seen = [.polled name result] :=
  .seeing _ _

/-! ### Waiting for workers -/

namespace Readiness

variable (connect : String → Int → Number → Action σ Unit)

/-- Attempts that end well have seen a connection succeed. -/
theorem shows_persist (host : String) (port : Int) (limit : Number) (left : Nat) :
    Shows Surveyed.sightings (persist (probe connect host port limit) left) fun result seen =>
      result = .ok none → 0 < left → .probed host port (.ok ()) ∈ seen := by
  induction left with
  | zero => exact .pure fun _ h => absurd h (Nat.lt_irrefl 0)
  | succ left ih =>
      refine (Shows.seeing (connect host port limit) _).attempt_bind fun made seen hseen => ?_
      subst hseen
      cases made with
      | ok u => exact .pure fun _ _ => List.mem_append_left _ (List.mem_singleton_self _)
      | error failure =>
          dsimp only
          split
          · exact .fail nofun
          · split
            · exact .pure nofun
            · rename_i hleft
              exact ih.mono fun result seen h hresult _ =>
                List.mem_append_right _ (h hresult (Nat.pos_of_ne_zero hleft))

theorem shows_endpoint (address : String) :
    Shows Surveyed.sightings (endpoint address : Action (Surveyed σ) (String × Int))
      fun result seen => seen = [] ∧ ∀ found, result = .ok found →
        Address.endpoint address = .ok found := by
  unfold endpoint
  split
  · rename_i found hendpoint
    refine .pure ⟨rfl, fun found' h => ?_⟩
    cases h
    exact hendpoint
  · exact .fail ⟨rfl, nofun⟩
  · exact .fail ⟨rfl, nofun⟩

/-- A wait that ends well has seen its address reached. -/
theorem shows_wait (address : String) (timeout interval : Number) :
    Shows Surveyed.sightings (wait (probe connect) address timeout interval) fun result seen =>
      result = .ok () → Reached address seen := by
  refine (shows_endpoint address).bind ?_ fun _ _ _ => nofun
  rintro ⟨host, port⟩ seen ⟨rfl, hendpoint⟩
  refine (shows_persist connect host port _ _).bind (fun failure? seen hseen => ?_) fun _ _ _ => nofun
  cases failure? with
  | none =>
      obtain ⟨left, hleft⟩ := exists_attempts timeout interval
      refine .pure fun _ => ⟨host, port, hendpoint _ rfl, ?_⟩
      rw [List.nil_append, List.append_nil]
      exact hseen rfl (by omega)
  | some failure => exact .fail nofun

end Readiness

namespace Site

variable (site : Site σ) (connect : String → Int → Number → Action σ Unit)

theorem shows_reach? (timeout interval : Number) (h : Handle) :
    Shows Surveyed.sightings ((site.surveyed connect).reach? timeout interval h)
      fun result seen => result = .ok none → Reached h.address seen := by
  refine (Readiness.shows_wait connect h.address timeout interval).attempt_bind
    fun made seen hmade => ?_
  cases made with
  | ok u => exact .pure fun _ => (hmade rfl).append []
  | error failure => exact .pure nofun

/-- A wait for all workers that ends well has seen all of them reached. -/
theorem shows_awaitAll (timeout interval : Number) (handles : List Handle) :
    Shows Surveyed.sightings ((site.surveyed connect).awaitAll timeout interval handles)
      fun result seen => result = .ok () → ∀ h ∈ handles, Reached h.address seen := by
  have hall : Shows Surveyed.sightings
      (handles.mapM ((site.surveyed connect).reach? timeout interval))
      fun result seen => ∀ results, result = .ok results → (∀ u? ∈ results, u? = none) →
        ∀ h ∈ handles, Reached h.address seen := by
    induction handles with
    | nil => exact .pure fun _ _ _ h hh => absurd hh List.not_mem_nil
    | cons h rest ih =>
        rw [List.mapM_cons]
        refine (site.shows_reach? connect timeout interval h).bind
          (fun u? seen hreach => ih.bind (fun results seen' hrest => ?_) fun _ _ _ => nofun)
          fun _ _ _ => nofun
        refine .pure ?_
        rintro _ ⟨⟩ hresults x hx
        obtain ⟨rfl, hnone⟩ := List.forall_mem_cons.mp hresults
        rcases List.mem_cons.mp hx with rfl | hx
        · exact (hreach rfl).append _
        · exact ((hrest results rfl hnone x hx).append []).prepend seen
  refine hall.bind (fun results seen hseen => ?_) fun _ _ _ => nofun
  split
  · rename_i hnone
    exact .pure fun _ h hh =>
      (hseen results rfl (List.filterMap_eq_nil_iff.mp hnone) h hh).append []
  · exact .fail nofun

end Site

/-! ### Containers -/

namespace Containers

variable (c : ContainerConfig) (engine : Engine σ) (site : Site σ)
  (connect : String → Int → Number → Action σ Unit)

theorem shows_start (tag : String) (index : Nat) :
    Shows Surveyed.sightings (start c engine.surveyed (site.surveyed connect) tag index)
      fun result seen => ∀ h, result = .ok h →
        h.index = index ∧ (seen.filterMap Sighting.container?).map Token.text = [h.token] := by
  refine .bind_unseen (.passing _) (fun port => ?_) fun _ _ => nofun
  refine (engine.shows_runContainer _).bind (fun id seen hseen => ?_) ?_
  · subst hseen
    refine .pure ?_
    rintro _ ⟨⟩
    exact ⟨rfl, rfl⟩
  · rintro failure seen - h ⟨⟩

/-- Workers that were all started have their positions in order, and the containers that were started
are theirs. -/
theorem shows_startFrom (tag : String) (left index : Nat) (started : List Handle) :
    Shows Surveyed.sightings
      (startFrom c engine.surveyed (site.surveyed connect) tag left index started)
      fun result seen => ∀ handles, result = .ok (handles, none) → ∃ new, handles = started ++ new ∧
        new.map Handle.index = List.range' index left ∧
        (seen.filterMap Sighting.container?).map Token.text = new.map Handle.token := by
  induction left generalizing index started with
  | zero =>
      refine .pure ?_
      rintro _ ⟨⟩
      exact ⟨[], (List.append_nil _).symm, rfl, rfl⟩
  | succ left ih =>
      refine (shows_start c engine site connect tag index).attempt_bind fun made seen hmade => ?_
      cases made with
      | error failure => exact .pure nofun
      | ok h =>
          obtain ⟨hindex, htoken⟩ := hmade h rfl
          refine (ih (index + 1) (started ++ [h])).mono fun result seen' hrest handles hresult => ?_
          obtain ⟨new, rfl, hindexes, htokens⟩ := hrest handles hresult
          refine ⟨h :: new, by simp, ?_, ?_⟩
          · rw [List.map_cons, hindexes, hindex, List.range'_succ]
          · rw [List.filterMap_append, List.map_append, htoken, htokens]
            rfl

/-- Workers that were brought up have their positions in order and were reached, and among the
containers that were started are theirs. -/
theorem shows_bringUp (count : Nat) (tag : String) :
    Shows Surveyed.sightings (bringUp c engine.surveyed (site.surveyed connect) count tag)
      fun result seen => ∀ handles, result = .ok (handles, none) →
        handles.map Handle.index = List.range count ∧
        (handles.map Handle.token).Sublist
          ((seen.filterMap Sighting.container?).map Token.text) ∧
        ∀ h ∈ handles, Reached h.address seen := by
  refine (shows_startFrom c engine site connect tag count 0 []).bind ?_ fun _ _ _ _ => nofun
  rintro ⟨handles, failure?⟩ seen hstarted
  cases failure? with
  | some failure => exact .pure fun _ => nofun
  | none =>
      obtain ⟨new, rfl, hindexes, htokens⟩ := hstarted handles rfl
      refine (site.shows_awaitAll connect _ _ _).attempt_bind fun result seen' hready => ?_
      cases result with
      | error failure => exact .pure fun _ => nofun
      | ok u =>
          refine .pure ?_
          rintro _ ⟨⟩
          rw [List.append_nil]
          refine ⟨?_, ?_, fun h hh => (hready rfl h hh).prepend seen⟩
          · rw [hindexes, List.range_eq_range']
          · rw [List.filterMap_append, List.map_append, htokens]
            exact List.sublist_append_left _ _

/-- Workers are handed out only when they were brought up. -/
theorem of_settle_eq_ok {count : Nat} {brought : List Handle × Option Failure} {handles : List Handle}
    {w after : Logged (Surveyed σ)}
    (h : (settle engine.surveyed count brought).perform w = (.ok handles, after)) :
    brought = (handles, none) ∧ after = w := by
  obtain ⟨started, failure?⟩ := brought
  cases failure? with
  | none =>
      cases h
      exact ⟨rfl, rfl⟩
  | some failure =>
      rw [settle] at h
      split at h
      · obtain ⟨-, logged, -, h⟩ := exists_of_perform_bind h
        obtain ⟨-, discarded, -, h⟩ := exists_of_perform_bind h
        cases h
      · cases h

theorem exists_seen_of_provision {count : Nat} {handles : List Handle} {w after : Logged (Surveyed σ)}
    (h : (provision c engine.surveyed (site.surveyed connect) count).perform w =
      (.ok handles, after)) :
    ∃ seen, after.state.sightings = w.state.sightings ++ seen ∧
      handles.map Handle.index = List.range count ∧
      (handles.map Handle.token).Sublist ((seen.filterMap Sighting.container?).map Token.text) ∧
      ∀ h ∈ handles, Reached h.address seen := by
  rw [provision_eq] at h
  obtain ⟨tag, marked, hmark, h⟩ := exists_of_perform_bind h
  obtain ⟨brought, between, hbring, h⟩ := exists_of_perform_bind h
  obtain ⟨rfl, rfl⟩ := of_settle_eq_ok engine h
  have hmarked := (Unseen.passing site.runTag).of_perform hmark
  obtain ⟨seen, hseen, hready⟩ :=
    (shows_bringUp c engine site connect count tag).of_perform hbring
  refine ⟨seen, ?_, hready handles rfl⟩
  rw [hseen, hmarked]

end Containers

/-! ### Services -/

/-- What was seen of the world that a spawner acts on. -/
def Hosted.sightings (h : Hosted (Surveyed σ)) : List Sighting :=
  h.world.sightings

namespace Service

theorem shows_onWorld {α : Type} {a : Action (Surveyed σ) α}
    {P : Except Failure α → List Sighting → Prop} (ha : Shows Surveyed.sightings a P) :
    Shows Hosted.sightings (onWorld a) P :=
  fun w => ha (w.map Hosted.world)

theorem unseen_onWorld {α : Type} {a : Action (Surveyed σ) α} (ha : Unseen Surveyed.sightings a) :
    Unseen Hosted.sightings (onWorld a) :=
  fun w => ha (w.map Hosted.world)

variable (c : ServiceConfig) (engine : Engine σ) (site : Site σ)
  (connect : String → Int → Number → Action σ Unit)

theorem unseen_definition (name : String) :
    Unseen Hosted.sightings (definition c (site.surveyed connect) name) := by
  unfold definition
  split
  · refine .bind (unseen_onWorld (.passing _)) fun content? => ?_
    split
    · exact .pure _
    · exact .fail _
  · exact .pure _

theorem unseen_ensureNetwork (spec : ServiceSpec) :
    Unseen Hosted.sightings (ensureNetwork engine.surveyed spec) := by
  unfold ensureNetwork
  split
  · exact .pure ()
  · refine .bind (unseen_onWorld (.passing _)) fun present => ?_
    split
    · exact .pure ()
    · exact .bind (.log _ _) fun _ => .bind (unseen_onWorld (.passing _)) fun _ =>
        .change fun _ => rfl

theorem unseen_deploy (spec : ServiceSpec) (count : Nat) :
    Unseen Hosted.sightings (deploy engine.surveyed spec count) := by
  refine .bind (unseen_ensureNetwork engine spec) fun _ =>
    .bind (unseen_onWorld (.passing _)) fun found => ?_
  split
  · exact .bind (.change fun _ => rfl) fun _ => .bind (.log _ _) fun _ =>
      unseen_onWorld (.passing _)
  · exact .bind (.log _ _) fun _ => .bind (unseen_onWorld (.passing _)) fun _ =>
      .change fun _ => rfl

theorem shows_checkReplicas (name : String) (count : Nat) :
    Shows Hosted.sightings (checkReplicas engine.surveyed name count) fun result seen =>
      (∀ s ∈ seen, ¬ s.IsProbe) ∧ (result = .ok () → Counted name count seen) := by
  have hpoll : ∀ made s, s ∈ [Sighting.polled name made] → ¬ s.IsProbe := by
    intro made s hs
    rw [List.mem_singleton.mp hs]
    exact id
  refine .bind_unseen (unseen_onWorld (.passing _)) (fun _ => ?_)
    fun _ => ⟨List.forall_mem_nil _, nofun⟩
  refine (shows_onWorld (engine.shows_tasks name)).bind (fun states seen hseen => ?_)
    fun failure seen hseen => ?_
  · subst hseen
    dsimp only
    split
    · refine .fail ⟨?_, nofun⟩
      rw [List.append_nil]
      exact hpoll _
    · rename_i hcount
      refine .pure ⟨?_, fun _ => ⟨states, List.mem_cons_self, Nat.le_of_not_lt hcount⟩⟩
      rw [List.append_nil]
      exact hpoll _
  · subst hseen
    exact ⟨hpoll _, nofun⟩

/-- Polls that end well have counted enough running tasks, and among them is no attempt at a
connection. -/
theorem shows_awaitReplicas (name : String) (count left : Nat) :
    Shows Hosted.sightings (awaitReplicas engine.surveyed name count left) fun result seen =>
      (∀ s ∈ seen, ¬ s.IsProbe) ∧ (result = .ok () → 0 < left → Counted name count seen) := by
  induction left with
  | zero => exact .pure ⟨List.forall_mem_nil _, fun _ h => absurd h (Nat.lt_irrefl 0)⟩
  | succ left ih =>
      refine (shows_checkReplicas engine name count).attempt_bind fun result seen hchecked => ?_
      obtain ⟨hpolls, hcounted⟩ := hchecked
      split
      · refine .pure ?_
        rw [List.append_nil]
        exact ⟨hpolls, fun _ _ => hcounted rfl⟩
      · split
        · refine .fail ?_
          rw [List.append_nil]
          exact ⟨hpolls, nofun⟩
        · rename_i hleft
          refine ih.mono fun result seen' hrest => ⟨?_, fun hresult _ => ?_⟩
          · exact List.forall_mem_append.mpr ⟨hpolls, hrest.1⟩
          · exact (hrest.2 hresult (Nat.pos_of_ne_zero hleft)).prepend seen
      · refine .fail ?_
        rw [List.append_nil]
        exact ⟨hpolls, nofun⟩

/-- Workers of a service that was brought up were reached, after a poll that counted enough running
tasks. -/
theorem shows_bringUp (handles : List Handle) :
    Shows Hosted.sightings (bringUp c engine.surveyed (site.surveyed connect) handles)
      fun result seen => result = .ok () → (∀ h ∈ handles, Reached h.address seen) ∧
        ∀ name, c.serviceName? = some name → ∃ early late, seen = early ++ late ∧
          (∀ s ∈ early, ¬ s.IsProbe) ∧ Counted name handles.length early := by
  have hwait := shows_onWorld (site.shows_awaitAll connect (.real c.readinessTimeout)
    (.real c.readinessInterval) handles)
  unfold bringUp
  dsimp only
  split
  · rename_i name hname
    refine .bind_unseen (unseen_definition c site connect name) (fun spec => ?_) nofun
    refine .bind_unseen (unseen_deploy engine spec handles.length) (fun _ => ?_) nofun
    refine (shows_awaitReplicas engine name handles.length _).bind (fun _ early hearly => ?_)
      fun _ _ _ => nofun
    obtain ⟨left, hleft⟩ := exists_attempts (.real c.readinessTimeout) (.real c.readinessInterval)
    refine hwait.mono fun result late hready hresult => ⟨?_, ?_⟩
    · exact fun h hh => (hready hresult h hh).prepend early
    · intro name' hname'
      rw [hname] at hname'
      cases hname'
      exact ⟨early, late, rfl, hearly.1, hearly.2 rfl (by omega)⟩
  · rename_i hnone
    refine .bind_unseen (.pure ()) (fun _ => hwait.mono ?_) nofun
    refine fun result seen hready hresult => ⟨hready hresult, fun name hname => ?_⟩
    rw [hnone] at hname
    cases hname

/-- Workers are handed out only when the service was brought up. -/
theorem of_settle_eq_ok {count : Nat} {workers handles : List Handle} {result : Except Failure Unit}
    {w after : Logged (Hosted (Surveyed σ))}
    (h : (settle c engine.surveyed count workers result).perform w = (.ok handles, after)) :
    result = .ok () ∧ handles = workers ∧ after = w := by
  cases result with
  | ok u =>
      cases h
      exact ⟨rfl, rfl, rfl⟩
  | error failure =>
      rw [settle] at h
      split at h
      · dsimp only at h
        split at h
        · obtain ⟨-, retreated, -, h⟩ := exists_of_perform_bind h
          cases h
        · cases h
      · cases h

theorem exists_seen_of_provision {count : Nat} {handles : List Handle}
    {w after : Logged (Hosted (Surveyed σ))}
    (h : (provision c engine.surveyed (site.surveyed connect) count).perform w =
      (.ok handles, after)) :
    ∃ tag seen, after.state.sightings = w.state.sightings ++ seen ∧ c.nodes.length = count ∧
      handles = workers c tag ∧ (∀ h ∈ handles, Reached h.address seen) ∧
      ∀ name, c.serviceName? = some name → ∃ early late, seen = early ++ late ∧
        (∀ s ∈ early, ¬ s.IsProbe) ∧ Counted name handles.length early := by
  rw [provision_eq] at h
  split at h
  · cases h
  · rename_i hcount
    obtain ⟨tag, marked, hmark, h⟩ := exists_of_perform_bind h
    obtain ⟨result, between, hbring, h⟩ := exists_of_perform_bind h
    obtain ⟨rfl, rfl, rfl⟩ := of_settle_eq_ok c engine h
    have hmarked := (unseen_onWorld (.passing site.runTag)).of_perform hmark
    obtain ⟨seen, hseen, hready⟩ :=
      (shows_bringUp c engine site connect (workers c tag)).of_perform (of_perform_attempt hbring)
    obtain ⟨hreached, hcounted⟩ := hready rfl
    refine ⟨tag, seen, ?_, by simpa using hcount, rfl, hreached, hcounted⟩
    rw [hseen, hmarked]

end Service

/-! ### Acquisitions -/

namespace Provider

/-- The handles that an acquisition of `count` workers gives are as they should be: as many as were
asked for, in the order of their positions, all of them live, and each of them reached. -/
structure Ready (count : Int) (handles live : List Handle) (seen : List Sighting) : Prop where
  number : (handles.length : Int) = count
  indexes : handles.map Handle.index = List.range count.toNat
  live : ∀ h ∈ handles, Ledger.find? live h.token = some h
  reached : ∀ h ∈ handles, Reached h.address seen

/-- An acquisition that a provider answers is answered in the same way by the one that remembers. -/
theorem Seen.of_perform_acquire {τ : Type} {f : τ → σ} {p : Provider τ} {q : Provider σ}
    (h : Seen f p q) {count : Int} {w : Logged (Ledger τ)} {after : Logged (Ledger σ)}
    {result : Except Failure (List Handle)}
    (hplain : (q.acquire count).perform (w.map (Ledger.through f)) = (result, after)) :
    ∃ surveyed, (p.acquire count).perform w = (result, surveyed) ∧
      surveyed.map (Ledger.through f) = after := by
  rw [h.acquire count w] at hplain
  cases hplain
  exact ⟨_, rfl, rfl⟩

/-- Whatever an engine answers and however attempts at a connection end, an acquisition that gives
workers gives as many as it was asked for, in the order of their positions. All of them are live, those
in containers if no identifier of a container was given twice, and a connection to each of them succeeded
in the course of the acquisition. Before the first attempt at a connection to a worker of a service, one
poll of its tasks counted as many running ones. What is seen of the workers has no influence: the
acquisition that remembers it gives the same workers and leaves the same behind. -/
theorem ready_of_acquire (engine : Engine σ) (site : Site σ)
    (connect : String → Int → Number → Action σ Unit) (count : Int) :
    (∀ (c : ContainerConfig) (w after : Logged (Ledger σ)) (handles : List Handle),
      ((Containers.provider c engine (site.probing connect)).acquire count).perform w =
        (.ok handles, after) →
      ∃ seen,
        ((Containers.provider c engine.surveyed (site.surveyed connect)).acquire count).perform
            (w.map (Ledger.through fresh)) =
          (.ok handles, after.map (Ledger.through (Surveyed.mk · seen))) ∧
        ((seen.filterMap Sighting.container?).Nodup →
          Ready count handles after.state.live seen)) ∧
    ∀ (c : ServiceConfig) (w after : Logged (Ledger (Hosted σ))) (handles : List Handle),
      ((Service.provider c engine (site.probing connect)).acquire count).perform w =
        (.ok handles, after) →
      ∃ seen,
        ((Service.provider c engine.surveyed (site.surveyed connect)).acquire count).perform
            (w.map (Ledger.through (Hosted.through fresh))) =
          (.ok handles, after.map (Ledger.through (Hosted.through (Surveyed.mk · seen)))) ∧
        Ready count handles after.state.live seen ∧
        ∀ service, c.serviceName? = some service → ∃ before states late,
          seen = before ++ .polled service (.ok states) :: late ∧ (∀ s ∈ before, ¬ s.IsProbe) ∧
          count ≤ (states.countP (· == some "running") : Int) := by
  constructor
  · intro c w after handles hplain
    obtain ⟨surveyed, hsurveyed, rfl⟩ := (Containers.seen_surveyed engine site connect c).of_perform_acquire
      (w := w.map (Ledger.through fresh)) hplain
    obtain ⟨hcount, made, hmade, rfl⟩ := of_perform_acquire _ hsurveyed
    obtain ⟨seen, hseen, hindexes, htokens, hreached⟩ :=
      Containers.exists_seen_of_provision c engine site connect hmade
    obtain ⟨⟨inner, sightings⟩, journal⟩ := made
    have hsame : sightings = seen := hseen
    subst hsame
    refine ⟨sightings, hsurveyed, fun hdistinct => ⟨hcount, hindexes, ?_, hreached⟩⟩
    have htexts : ((sightings.filterMap Sighting.container?).map Token.text).Nodup :=
      hdistinct.map fun _ _ => Token.text.inj
    exact Ledger.find?_foldl_enter _ (htexts.sublist htokens)
  · intro c w after handles hplain
    obtain ⟨surveyed, hsurveyed, rfl⟩ := (Service.seen_surveyed engine site connect c).of_perform_acquire
      (w := w.map (Ledger.through (Hosted.through fresh))) hplain
    obtain ⟨hcount, made, hmade, rfl⟩ := of_perform_acquire _ hsurveyed
    obtain ⟨tag, seen, hseen, hnodes, rfl, hreached, hcounted⟩ :=
      Service.exists_seen_of_provision c engine site connect hmade
    obtain ⟨⟨service?, created, network?, inner, sightings⟩, journal⟩ := made
    have hsame : sightings = seen := hseen
    subst hsame
    refine ⟨sightings, hsurveyed, ⟨hcount, ?_, ?_, hreached⟩, fun service hname => ?_⟩
    · rw [Service.index_workers, hnodes]
    · exact Ledger.find?_foldl_enter _ (Service.nodup_token_workers c tag)
    · obtain ⟨early, late, rfl, hquiet, states, hpolled, hrunning⟩ := hcounted service hname
      obtain ⟨before, between, rfl⟩ := List.append_of_mem hpolled
      refine ⟨before, states, between ++ late, ?_, ?_, ?_⟩
      · rw [List.append_assoc, List.cons_append]
      · exact fun s hs => hquiet s (List.mem_append_left _ hs)
      · rw [← hcount]
        exact Int.ofNat_le.mpr hrunning

end Provider

/-! ### Two workers that are reached at once -/

namespace Sample

/-- An engine that numbers its containers, and runs two of three tasks. -/
def crewed : Engine Nat :=
  { docking none with
    tasks := fun _ => return [some "running", some "starting", some "running"] }

/-- Every connection succeeds. -/
def answering (_ : String) (_ : Int) (_ : Number) : Action Nat Unit :=
  return ()

/-- The service on two nodes. -/
def paired : ServiceConfig :=
  { hosting with nodes := ["left", "right"] }

/-- The workers of two containers. -/
def crew : List Handle :=
  [⟨"http://host:50000", .container, .text "c1", 0⟩, ⟨"http://host:50000", .container, .text "c2", 1⟩]

/-- The workers of the two nodes. -/
def twins : List Handle :=
  [⟨"http://left:4000", .service, .text "svc:0:0", 0⟩,
    ⟨"http://right:4000", .service, .text "svc:0:1", 1⟩]

/-- What is seen of the containers. -/
def crewSeen : List Sighting :=
  [.started (.ok "c1"), .started (.ok "c2"), .probed "host" 50000 (.ok ()),
    .probed "host" 50000 (.ok ())]

end Sample

theorem endpoint_crew : Address.endpoint "http://host:50000" = .ok ("host", 50000) := by
  decide +kernel

theorem perform_acquire_crew : ∃ journal,
    ((Containers.provider (Sample.shipping "host") Sample.crewed.surveyed
        (Sample.machine.surveyed Sample.answering)).acquire 2).perform ⟨⟨[], ⟨0, []⟩⟩, []⟩ =
      (.ok Sample.crew, ⟨⟨Sample.crew, ⟨3, Sample.crewSeen⟩⟩, journal⟩) := by
  let c := Sample.shipping "host"
  let engine := Sample.crewed.surveyed
  let site := Sample.machine.surveyed Sample.answering
  let marked := (Containers.provider c engine site).announced 2 ⟨⟨[], ⟨0, []⟩⟩, []⟩
  have hmark : site.runTag.perform marked = (.ok "0", ⟨⟨1, []⟩, marked.journal⟩) := rfl
  have hstart : (Containers.startFrom c engine site "0" 2 0 []).perform ⟨⟨1, []⟩, marked.journal⟩ =
      (.ok (Sample.crew, none), ⟨⟨3, Sample.crewSeen.take 2⟩, marked.journal⟩) := rfl
  have hready : ∀ seen, (site.awaitReady "http://host:50000" (.real c.readinessTimeout)
      (.real c.readinessInterval)).perform ⟨⟨3, seen⟩, marked.journal⟩ =
        (.ok (), ⟨⟨3, seen ++ [.probed "host" 50000 (.ok ())]⟩, marked.journal⟩) := fun seen =>
    Readiness.perform_wait_of_connect _ _ endpoint_crew rfl
  have hwait : (site.awaitAll (.real c.readinessTimeout) (.real c.readinessInterval)
      Sample.crew).perform ⟨⟨3, Sample.crewSeen.take 2⟩, marked.journal⟩ =
        (.ok (), ⟨⟨3, Sample.crewSeen⟩, marked.journal⟩) :=
    Site.perform_awaitAll_cons (hready _) (Site.perform_awaitAll_cons (hready _) rfl)
  have hattempt : (attempt (site.awaitAll (.real c.readinessTimeout) (.real c.readinessInterval)
      Sample.crew)).perform ⟨⟨3, Sample.crewSeen.take 2⟩, marked.journal⟩ =
        (.ok (.ok ()), ⟨⟨3, Sample.crewSeen⟩, marked.journal⟩) := by
    rw [perform_attempt, hwait]
  have hbring : (Containers.bringUp c engine site 2 "0").perform ⟨⟨1, []⟩, marked.journal⟩ =
      (.ok (Sample.crew, none), ⟨⟨3, Sample.crewSeen⟩, marked.journal⟩) :=
    (perform_bind_ok hstart).trans (perform_bind_ok hattempt)
  have hprovision : ((Containers.provider c engine site).provision 2).perform marked =
      (.ok Sample.crew, ⟨⟨3, Sample.crewSeen⟩, marked.journal⟩) := by
    show (Containers.provision c engine site 2).perform marked = _
    rw [Containers.provision_eq, perform_bind_ok hmark, perform_bind_ok hbring]
    rfl
  exact ⟨_, (Containers.provider c engine site).perform_acquire_of_provision 2
    (w := ⟨⟨[], ⟨0, []⟩⟩, []⟩) (by decide) hprovision (by rintro handles ⟨⟩; rfl)⟩

theorem perform_acquire_twins : ∃ after,
    ((Service.provider Sample.paired Sample.crewed
        (Sample.machine.probing Sample.answering)).acquire 2).perform ⟨⟨[], Service.start 0⟩, []⟩ =
      (.ok Sample.twins, after) := by
  let c := Sample.paired
  let site := Sample.machine.probing Sample.answering
  let spec : ServiceSpec := ⟨"svc", "image", [], [⟨4000, 4000⟩], "svc", "overlay"⟩
  let marked := (Service.provider c Sample.crewed site).announced 2 ⟨⟨[], Service.start 0⟩, []⟩
  have hmark : (Service.onWorld site.runTag).perform marked =
      (.ok "0", ⟨Service.start 1, marked.journal⟩) := rfl
  have hdefine : (Service.definition c site "svc").perform ⟨Service.start 1, marked.journal⟩ =
      (.ok spec, ⟨Service.start 1, marked.journal⟩) := rfl
  obtain ⟨journal, hdeploy⟩ : ∃ journal,
      (Service.deploy Sample.crewed spec Sample.twins.length).perform ⟨Service.start 1, marked.journal⟩ =
        (.ok (), ⟨⟨some "svc", true, none, 1⟩, journal⟩) := ⟨_, rfl⟩
  have hcheck : (Service.checkReplicas Sample.crewed "svc" Sample.twins.length).perform
      ⟨⟨some "svc", true, none, 1⟩, journal⟩ =
        (.ok (), ⟨⟨some "svc", true, none, 1⟩, journal⟩) := rfl
  have hleft : Address.endpoint "http://left:4000" = .ok ("left", 4000) := by
    decide +kernel
  have hright : Address.endpoint "http://right:4000" = .ok ("right", 4000) := by
    decide +kernel
  have hready : (site.awaitAll (.real c.readinessTimeout) (.real c.readinessInterval)
      Sample.twins).perform ⟨1, journal⟩ = (.ok (), ⟨1, journal⟩) :=
    Site.perform_awaitAll_cons (Readiness.perform_wait_of_connect _ _ hleft rfl)
      (Site.perform_awaitAll_cons (Readiness.perform_wait_of_connect _ _ hright rfl) rfl)
  have hworld : (Service.onWorld (site.awaitAll (.real c.readinessTimeout)
      (.real c.readinessInterval) Sample.twins)).perform ⟨⟨some "svc", true, none, 1⟩, journal⟩ =
        (.ok (), ⟨⟨some "svc", true, none, 1⟩, journal⟩) := by
    rw [Service.onWorld, perform_onPart]
    simp only [Logged.map, hready]
  have hbring := (Service.perform_bringUp_of_check (c := c) rfl hdefine hdeploy hcheck).trans hworld
  have hworkers : Sample.twins = Service.workers Sample.paired "0" := by
    decide +kernel
  rw [hworkers] at hbring ⊢
  exact ⟨_, Service.perform_acquire_of_bringUp 2 (c := c) (by decide) rfl hmark hbring⟩

/-- Two containers and two nodes of a service. -/
theorem Provider.ready_of_acquire_pair :
    (∃ after seen, ((Containers.provider (Sample.shipping "host") Sample.crewed
        (Sample.machine.probing Sample.answering)).acquire 2).perform ⟨⟨[], 0⟩, []⟩ =
          (.ok Sample.crew, after) ∧
      (seen.filterMap Sighting.container?).Nodup ∧ Ready 2 Sample.crew after.state.live seen) ∧
    ∃ after seen, ((Service.provider Sample.paired Sample.crewed
        (Sample.machine.probing Sample.answering)).acquire 2).perform ⟨⟨[], Service.start 0⟩, []⟩ =
          (.ok Sample.twins, after) ∧
      Ready 2 Sample.twins after.state.live seen ∧ ∃ before states late,
        seen = before ++ .polled "svc" (.ok states) :: late ∧ (∀ s ∈ before, ¬ s.IsProbe) ∧
        2 ≤ states.countP (· == some "running") := by
  obtain ⟨hcontainers, hservice⟩ :=
    ready_of_acquire Sample.crewed Sample.machine Sample.answering 2
  constructor
  · obtain ⟨journal, hsurveyed⟩ := perform_acquire_crew
    have hplain := (Containers.seen_surveyed Sample.crewed Sample.machine Sample.answering
      (Sample.shipping "host")).acquire 2 ⟨⟨[], ⟨0, []⟩⟩, []⟩
    rw [hsurveyed] at hplain
    obtain ⟨seen, hsame, hready⟩ := hcontainers (Sample.shipping "host") ⟨⟨[], 0⟩, []⟩ _ _ hplain
    have hseen : seen = Sample.crewSeen :=
      congrArg (fun r => r.2.state.inner.sightings) (hsame.symm.trans hsurveyed)
    have hdistinct : (seen.filterMap Sighting.container?).Nodup := by
      rw [hseen]
      decide
    exact ⟨_, seen, hplain, hdistinct, hready hdistinct⟩
  · obtain ⟨after, hplain⟩ := perform_acquire_twins
    obtain ⟨seen, -, hready, hpolled⟩ := hservice Sample.paired ⟨⟨[], Service.start 0⟩, []⟩ _ _ hplain
    obtain ⟨before, states, late, hseen, hquiet, hrunning⟩ := hpolled "svc" rfl
    exact ⟨after, seen, hplain, hready, before, states, late, hseen, hquiet, by omega⟩

end SumTree
