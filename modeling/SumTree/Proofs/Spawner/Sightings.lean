import SumTree.Proofs.Spawner.Projection
import SumTree.Spawner.Readiness

/-!
# What a spawner sees of its workers

Containers that are started, polls of the tasks of a service and attempts at a connection, as one list
in order, each with what came of it. The list is kept by an engine that remembers the first two and by a
machine that waits for workers by attempts that it remembers. The providers over them are the providers
over the engine and over a machine that attempts without remembering (`Containers.seen_surveyed`,
`Service.seen_surveyed`).

What is said of an action and its sightings says what its result is worth (`Action.Shows`); there is one
rule for each way to build actions.

## Main Definitions

* `Sighting`, `Surveyed` — something that is seen, and a world with all that was seen so far.
* `Site.probing` — the machine that waits by attempts at a connection.
* `Engine.surveyed`, `Site.surveyed` — the engine and the machine that remember.
* `Action.Shows` — what the result of an action says about its sightings.
* `Action.Unseen` — an action without sightings.
-/

namespace SumTree

/-- Something that a spawner sees of its workers, with what came of it. -/
inductive Sighting
  | started (result : Except Failure String)
  | polled (service : String) (result : Except Failure (List (Option String)))
  | probed (host : String) (port : Int) (result : Except Failure Unit)

namespace Sighting

/-- An attempt at a connection. -/
def IsProbe : Sighting → Prop
  | probed .. => True
  | _ => False

/-- The identifier of a container that was started. -/
def container? : Sighting → Option String
  | started (.ok id) => some id
  | _ => none

end Sighting

/-- A world with all that was seen so far. -/
structure Surveyed (σ : Type) where
  inner : σ
  sightings : List Sighting

variable {σ τ α β : Type}

namespace Surveyed

/-- A world of which nothing was seen yet. -/
def fresh (s : σ) : Surveyed σ :=
  ⟨s, []⟩

/-- An action on a world of which something is seen. -/
def seeing (a : Action σ α) (sight : Except Failure α → List Sighting) : Action (Surveyed σ) α :=
  ExceptT.mk fun w =>
    let (result, after) := a.run ⟨w.state.inner, w.journal⟩
    (result, ⟨⟨after.state, w.state.sightings ++ sight result⟩, after.journal⟩)

/-- An action on a world of which nothing is seen. -/
def passing (a : Action σ α) : Action (Surveyed σ) α :=
  seeing a fun _ => []

/-- An attempt at a connection that is seen. -/
def probe (connect : String → Int → Number → Action σ Unit) (host : String) (port : Int)
    (limit : Number) : Action (Surveyed σ) Unit :=
  seeing (connect host port limit) fun result => [.probed host port result]

end Surveyed

open Surveyed

/-- The engine that remembers which containers it started and what its polls found. -/
def Engine.surveyed (e : Engine σ) : Engine (Surveyed σ) where
  runContainer spec := seeing (e.runContainer spec) fun result => [.started result]
  findContainer id := passing (e.findContainer id)
  stopContainer id grace := passing (e.stopContainer id grace)
  removeContainer id := passing (e.removeContainer id)
  hasNetwork name := passing (e.hasNetwork name)
  createNetwork name driver := passing (e.createNetwork name driver)
  removeNetwork name := passing (e.removeNetwork name)
  findServices name := passing (e.findServices name)
  createService d := passing (e.createService d)
  scaleService name count := passing (e.scaleService name count)
  removeService name := passing (e.removeService name)
  refreshService name := passing (e.refreshService name)
  tasks name := seeing (e.tasks name) fun result => [.polled name result]

/-- The machine that waits for workers by attempts at a connection. -/
def Site.probing (s : Site σ) (connect : String → Int → Number → Action σ Unit) : Site σ :=
  { s with awaitReady := Readiness.wait connect }

/-- The machine that remembers the attempts by which it waits. -/
def Site.surveyed (s : Site σ) (connect : String → Int → Number → Action σ Unit) :
    Site (Surveyed σ) where
  freePort host := passing (s.freePort host)
  runTag := passing s.runTag
  content? path := passing (s.content? path)
  complaint := s.complaint
  awaitReady := Readiness.wait (probe connect)
  givenUpFirst := s.givenUpFirst

open SumTree.Action

/-! ### Looking changes nothing -/

theorem Surveyed.projects_seeing (a : Action σ α) (sight : Except Failure α → List Sighting) :
    Projects Surveyed.inner (seeing a sight) a :=
  fun _ => rfl

namespace Readiness

variable {f : τ → σ}

theorem projects_persist {a : Action τ Unit} {b : Action σ Unit} (h : Projects f a b) (left : Nat) :
    Projects f (persist a left) (persist b left) := by
  induction left with
  | zero => exact .pure none
  | succ left ih =>
      refine .bind (.attempt h) fun result => ?_
      cases result with
      | ok u => exact .pure none
      | error failure =>
          dsimp only
          split
          · exact .fail failure
          · split
            · exact .pure _
            · exact ih

theorem projects_wait {connect : String → Int → Number → Action τ Unit}
    {connect' : String → Int → Number → Action σ Unit}
    (h : ∀ host port limit, Projects f (connect host port limit) (connect' host port limit))
    (address : String) (timeout interval : Number) :
    Projects f (wait connect address timeout interval) (wait connect' address timeout interval) := by
  have hendpoint : Projects f (endpoint address : Action τ (String × Int)) (endpoint address) := by
    unfold endpoint
    split
    · exact .pure _
    · exact .fail _
    · exact .fail _
  refine .bind hendpoint fun (host, port) => .bind (projects_persist (h _ _ _) _) fun failure? => ?_
  cases failure? with
  | none => exact .pure ()
  | some failure => exact .fail _

end Readiness

variable (engine : Engine σ) (site : Site σ) (connect : String → Int → Number → Action σ Unit)

theorem Engine.seen_surveyed : Engine.Seen Surveyed.inner engine.surveyed engine where
  runContainer _ := projects_seeing _ _
  findContainer _ := projects_seeing _ _
  stopContainer _ _ := projects_seeing _ _
  removeContainer _ := projects_seeing _ _
  hasNetwork _ := projects_seeing _ _
  createNetwork _ _ := projects_seeing _ _
  removeNetwork _ := projects_seeing _ _
  findServices _ := projects_seeing _ _
  createService _ := projects_seeing _ _
  scaleService _ _ := projects_seeing _ _
  removeService _ := projects_seeing _ _
  refreshService _ := projects_seeing _ _
  tasks _ := projects_seeing _ _

theorem Site.seen_surveyed :
    Site.Seen Surveyed.inner (site.surveyed connect) (site.probing connect) where
  freePort _ := projects_seeing _ _
  runTag := projects_seeing _ _
  content? _ := projects_seeing _ _
  complaint := rfl
  awaitReady := Readiness.projects_wait fun _ _ _ => projects_seeing _ _
  givenUpFirst _ _ := rfl

/-- The provider of containers over an engine that remembers is the provider over the engine. -/
theorem Containers.seen_surveyed (c : ContainerConfig) :
    Provider.Seen Surveyed.inner (provider c engine.surveyed (site.surveyed connect))
      (provider c engine (site.probing connect)) :=
  seen_provider engine.seen_surveyed (site.seen_surveyed connect) c

/-- The provider of a service over an engine that remembers is the provider over the engine. -/
theorem Service.seen_surveyed (c : ServiceConfig) :
    Provider.Seen (Hosted.through Surveyed.inner) (provider c engine.surveyed (site.surveyed connect))
      (provider c engine (site.probing connect)) :=
  seen_provider engine.seen_surveyed (site.seen_surveyed connect) c

/-! ### What a result says about the sightings -/

namespace Action

variable {sighted : τ → List Sighting} {a : Action τ α} {k : α → Action τ β}
  {P : Except Failure α → List Sighting → Prop} {Q : Except Failure β → List Sighting → Prop}

/-- The result of an action and what is seen meanwhile belong together in some way, whatever state the
action is done to. -/
def Shows (sighted : τ → List Sighting) (a : Action τ α)
    (P : Except Failure α → List Sighting → Prop) : Prop :=
  ∀ w, ∃ seen, sighted (a.perform w).2.state = sighted w.state ++ seen ∧ P (a.perform w).1 seen

/-- An action of which nothing is seen. -/
def Unseen (sighted : τ → List Sighting) (a : Action τ α) : Prop :=
  ∀ w, sighted (a.perform w).2.state = sighted w.state

namespace Shows

theorem of_perform (ha : Shows sighted a P) {w after : Logged τ} {result : Except Failure α}
    (h : a.perform w = (result, after)) :
    ∃ seen, sighted after.state = sighted w.state ++ seen ∧ P result seen := by
  obtain ⟨seen, hseen, hP⟩ := ha w
  rw [h] at hseen hP
  exact ⟨seen, hseen, hP⟩

theorem mono {P' : Except Failure α → List Sighting → Prop} (ha : Shows sighted a P)
    (h : ∀ result seen, P result seen → P' result seen) : Shows sighted a P' := by
  intro w
  obtain ⟨seen, hseen, hP⟩ := ha w
  exact ⟨seen, hseen, h _ _ hP⟩

theorem pure {x : α} (h : P (.ok x) []) : Shows sighted (Pure.pure x) P :=
  fun _ => ⟨[], (List.append_nil _).symm, h⟩

theorem fail {failure : Failure} (h : P (.error failure) []) :
    Shows sighted (Action.fail failure) P :=
  fun _ => ⟨[], (List.append_nil _).symm, h⟩

theorem bind (ha : Shows sighted a P)
    (hok : ∀ x seen, P (.ok x) seen → Shows sighted (k x) fun result seen' => Q result (seen ++ seen'))
    (herror : ∀ failure seen, P (.error failure) seen → Q (.error failure) seen) :
    Shows sighted (a >>= k) Q := by
  intro w
  obtain ⟨seen, hseen, hP⟩ := ha w
  rw [perform_bind]
  cases hperform : a.perform w with
  | mk result after =>
      rw [hperform] at hseen hP
      cases result with
      | ok x =>
          obtain ⟨seen', hseen', hQ⟩ := hok x seen hP after
          refine ⟨seen ++ seen', ?_, hQ⟩
          rw [hseen', hseen, List.append_assoc]
      | error failure => exact ⟨seen, hseen, herror failure seen hP⟩

/-- An action behind one of which nothing is seen. -/
theorem bind_unseen (ha : Unseen sighted a) (hk : ∀ x, Shows sighted (k x) Q)
    (herror : ∀ failure, Q (.error failure) []) : Shows sighted (a >>= k) Q := by
  have hshows : Shows sighted a fun _ seen => seen = [] := fun w =>
    ⟨[], (ha w).trans (List.append_nil _).symm, rfl⟩
  refine hshows.bind (fun x seen hseen => ?_) fun failure seen hseen => ?_
  · rw [hseen]
    exact hk x
  · rw [hseen]
    exact herror failure

/-- An action behind one whose failure is a value. -/
theorem attempt_bind {k : Except Failure α → Action τ β} (ha : Shows sighted a P)
    (hk : ∀ result seen, P result seen →
      Shows sighted (k result) fun final seen' => Q final (seen ++ seen')) :
    Shows sighted (Action.attempt a >>= k) Q := by
  intro w
  obtain ⟨seen, hseen, hP⟩ := ha w
  obtain ⟨seen', hseen', hQ⟩ := hk _ seen hP (a.perform w).2
  have hperform : (Action.attempt a >>= k).perform w =
      (k (a.perform w).1).perform (a.perform w).2 := perform_bind_ok (perform_attempt a w)
  rw [hperform]
  refine ⟨seen ++ seen', ?_, hQ⟩
  rw [hseen', hseen, List.append_assoc]

theorem seeing (a : Action σ α) (sight : Except Failure α → List Sighting) :
    Shows Surveyed.sightings (Surveyed.seeing a sight) fun result seen => seen = sight result :=
  fun _ => ⟨_, rfl, rfl⟩

end Shows

namespace Unseen

theorem of_perform (ha : Unseen sighted a) {w after : Logged τ} {result : Except Failure α}
    (h : a.perform w = (result, after)) : sighted after.state = sighted w.state := by
  have hsame := ha w
  rw [h] at hsame
  exact hsame

theorem pure (x : α) : Unseen sighted (Pure.pure x : Action τ α) :=
  fun _ => rfl

theorem fail (failure : Failure) : Unseen sighted (Action.fail failure : Action τ α) :=
  fun _ => rfl

theorem log (level : LogLevel) (text : String) : Unseen sighted (Action.log level text) :=
  fun _ => rfl

theorem change {g : τ → τ} (h : ∀ s, sighted (g s) = sighted s) : Unseen sighted (Action.change g) :=
  fun w => h w.state

theorem bind (ha : Unseen sighted a) (hk : ∀ x, Unseen sighted (k x)) :
    Unseen sighted (a >>= k) := by
  intro w
  rw [perform_bind]
  have hsame := ha w
  cases hperform : a.perform w with
  | mk result after =>
      rw [hperform] at hsame
      cases result with
      | ok x => exact (hk x after).trans hsame
      | error failure => exact hsame

theorem passing (a : Action σ α) : Unseen Surveyed.sightings (Surveyed.passing a) :=
  fun _ => List.append_nil _

end Unseen

end Action

end SumTree
