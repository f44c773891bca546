import SumTree.Proofs.Spawner.Projection

/-!
# Dealings with an engine

What the spawners of containers and of services ask of an engine, and their waits for workers, as one
list in order, each with what came of it. The list is kept by an engine and a machine that pass
everything on to others and remember it. The providers over them are the providers over the others,
seen through the projection that forgets the list (`Containers.seen_observed`,
`Service.seen_observed`), so that what is said of the list is said of the plain run.

## Main Definitions

* `Dealing` — something asked of an engine, or a wait for a worker.
* `Observed` — a world with all dealings so far.
* `Engine.observed`, `Site.observed` — the engine and the machine that remember.
* `Action.Deals` — an action with its dealings.
-/

namespace SumTree

/-- Something asked of an engine, or a wait for a worker, with what came of it. -/
inductive Dealing
  | runContainer (spec : ContainerSpec) (result : Except Failure String)
  | findContainer (id : String) (result : Except Failure Unit)
  | stopContainer (id : String) (grace : Nat) (result : Except Failure Unit)
  | removeContainer (id : String) (result : Except Failure Unit)
  | hasNetwork (name : String) (result : Except Failure Bool)
  | createNetwork (name driver : String) (result : Except Failure Unit)
  | removeNetwork (name : String) (result : Except Failure Unit)
  | findServices (name : String) (result : Except Failure (List String))
  | createService (d : Deployment) (result : Except Failure Unit)
  | scaleService (name : String) (count : Nat) (result : Except Failure Unit)
  | removeService (name : String) (result : Except Failure Unit)
  | refreshService (name : String) (result : Except Failure Unit)
  | tasks (name : String) (result : Except Failure (List (Option String)))
  | awaitReady (address : String) (result : Except Failure Unit)

/-- The failure of an answer. -/
def failureOf? {α : Type} : Except Failure α → Option Failure
  | .ok _ => none
  | .error failure => some failure

/-- Why what was asked for was not done. -/
def Dealing.failure? : Dealing → Option Failure
  | runContainer _ result => failureOf? result
  | findContainer _ result => failureOf? result
  | stopContainer _ _ result => failureOf? result
  | removeContainer _ result => failureOf? result
  | hasNetwork _ result => failureOf? result
  | createNetwork _ _ result => failureOf? result
  | removeNetwork _ result => failureOf? result
  | findServices _ result => failureOf? result
  | createService _ result => failureOf? result
  | scaleService _ _ result => failureOf? result
  | removeService _ result => failureOf? result
  | refreshService _ result => failureOf? result
  | tasks _ result => failureOf? result
  | awaitReady _ result => failureOf? result

/-- A world with all dealings so far. -/
structure Observed (σ : Type) where
  inner : σ
  dealings : List Dealing

variable {σ τ α : Type}

/-- An action on a world that is remembered. -/
def Observed.noting (a : Action σ α) (note : Except Failure α → Dealing) :
    Action (Observed σ) α :=
  ExceptT.mk fun w =>
    let (result, after) := a.run ⟨w.state.inner, w.journal⟩
    (result, ⟨⟨after.state, w.state.dealings ++ [note result]⟩, after.journal⟩)

/-- An action on a world that is not remembered. -/
def Observed.passing (a : Action σ α) : Action (Observed σ) α :=
  Action.onPart Observed.inner (fun o s => { o with inner := s }) a

/-- The engine that remembers what it is asked for. -/
def Engine.observed (e : Engine σ) : Engine (Observed σ) where
  runContainer spec := Observed.noting (e.runContainer spec) (.runContainer spec)
  findContainer id := Observed.noting (e.findContainer id) (.findContainer id)
  stopContainer id grace := Observed.noting (e.stopContainer id grace) (.stopContainer id grace)
  removeContainer id := Observed.noting (e.removeContainer id) (.removeContainer id)
  hasNetwork name := Observed.noting (e.hasNetwork name) (.hasNetwork name)
  createNetwork name driver :=
    Observed.noting (e.createNetwork name driver) (.createNetwork name driver)
  removeNetwork name := Observed.noting (e.removeNetwork name) (.removeNetwork name)
  findServices name := Observed.noting (e.findServices name) (.findServices name)
  createService d := Observed.noting (e.createService d) (.createService d)
  scaleService name count := Observed.noting (e.scaleService name count) (.scaleService name count)
  removeService name := Observed.noting (e.removeService name) (.removeService name)
  refreshService name := Observed.noting (e.refreshService name) (.refreshService name)
  tasks name := Observed.noting (e.tasks name) (.tasks name)

/-- The machine that remembers which workers were waited for. -/
def Site.observed (s : Site σ) : Site (Observed σ) where
  freePort host := Observed.passing (s.freePort host)
  runTag := Observed.passing s.runTag
  content? path := Observed.passing (s.content? path)
  complaint := s.complaint
  awaitReady address timeout interval :=
    Observed.noting (s.awaitReady address timeout interval) (.awaitReady address)
  givenUpFirst := s.givenUpFirst

open SumTree.Action

/-! ### The list of dealings changes nothing -/

theorem Observed.projects_noting (a : Action σ α) (note : Except Failure α → Dealing) :
    Projects Observed.inner (Observed.noting a note) a :=
  fun _ => rfl

theorem Observed.perform_noting {a : Action σ α} {note : Except Failure α → Dealing}
    {w : Logged (Observed σ)} {result : Except Failure α} {after : Logged σ}
    (h : a.perform (w.map Observed.inner) = (result, after)) :
    (Observed.noting a note).perform w =
      (result, ⟨⟨after.state, w.state.dealings ++ [note result]⟩, after.journal⟩) :=
  congrArg (fun r : Except Failure α × Logged σ => (r.1,
    (⟨⟨r.2.state, w.state.dealings ++ [note r.1]⟩, r.2.journal⟩ : Logged (Observed σ)))) h

theorem Observed.projects_passing (a : Action σ α) :
    Projects Observed.inner (Observed.passing a) a :=
  fun _ => rfl

open Observed

variable (engine : Engine σ) (site : Site σ)

theorem Engine.seen_observed : Engine.Seen Observed.inner engine.observed engine where
  runContainer _ := projects_noting _ _
  findContainer _ := projects_noting _ _
  stopContainer _ _ := projects_noting _ _
  removeContainer _ := projects_noting _ _
  hasNetwork _ := projects_noting _ _
  createNetwork _ _ := projects_noting _ _
  removeNetwork _ := projects_noting _ _
  findServices _ := projects_noting _ _
  createService _ := projects_noting _ _
  scaleService _ _ := projects_noting _ _
  removeService _ := projects_noting _ _
  refreshService _ := projects_noting _ _
  tasks _ := projects_noting _ _

theorem Site.seen_observed : Site.Seen Observed.inner site.observed site where
  freePort _ := projects_passing _
  runTag := projects_passing _
  content? _ := projects_passing _
  complaint := rfl
  awaitReady _ _ _ := projects_noting _ _
  givenUpFirst _ _ := rfl

/-- The provider of containers over an engine that remembers is the provider over the engine. -/
theorem Containers.seen_observed (c : ContainerConfig) :
    Provider.Seen Observed.inner (provider c engine.observed site.observed)
      (provider c engine site) :=
  seen_provider engine.seen_observed site.seen_observed c

/-- The provider of a service over an engine that remembers is the provider over the engine. -/
theorem Service.seen_observed (c : ServiceConfig) :
    Provider.Seen (Hosted.through Observed.inner) (provider c engine.observed site.observed)
      (provider c engine site) :=
  seen_provider engine.seen_observed site.seen_observed c

/-! ### The dealings of an action -/

/-- An action with its dealings, its result and what it leaves, where `dealt` gives all dealings up to a
state. -/
structure Action.Deals (dealt : τ → List Dealing) (a : Action τ α) (w : Logged τ) (ds : List Dealing)
    (result : Except Failure α) (after : Logged τ) : Prop where
  perform : a.perform w = (result, after)
  dealings : dealt after.state = dealt w.state ++ ds

namespace Action.Deals

variable {β : Type} {dealt : τ → List Dealing} {a : Action τ α} {k : α → Action τ β}
  {w between after : Logged τ} {ds ds' : List Dealing}

theorem pure (x : α) : Deals dealt (Pure.pure x) w [] (.ok x) w :=
  ⟨rfl, (List.append_nil _).symm⟩

theorem fail (failure : Failure) :
    Deals dealt (Action.fail failure : Action τ α) w [] (.error failure) w :=
  ⟨rfl, (List.append_nil _).symm⟩

theorem bind {x : α} {result : Except Failure β} (ha : Deals dealt a w ds (.ok x) between)
    (hk : Deals dealt (k x) between ds' result after) :
    Deals dealt (a >>= k) w (ds ++ ds') result after := by
  refine ⟨(perform_bind_ok ha.perform).trans hk.perform, ?_⟩
  rw [hk.dealings, ha.dealings, List.append_assoc]

theorem bind_error {failure : Failure} (ha : Deals dealt a w ds (.error failure) after) :
    Deals dealt (a >>= k) w ds (.error failure) after :=
  ⟨perform_bind_error ha.perform, ha.dealings⟩

theorem attempt {result : Except Failure α} (ha : Deals dealt a w ds result after) :
    Deals dealt (Action.attempt a) w ds (.ok result) after := by
  refine ⟨?_, ha.dealings⟩
  rw [perform_attempt, ha.perform]

theorem log (level : LogLevel) (text : String) :
    Deals dealt (Action.log level text) w [] (.ok ()) ⟨w.state, w.journal ++ [⟨level, text⟩]⟩ :=
  ⟨rfl, (List.append_nil _).symm⟩

theorem change {f : τ → τ} (hdealt : dealt (f w.state) = dealt w.state) :
    Deals dealt (Action.change f) w [] (.ok ()) ⟨f w.state, w.journal⟩ := by
  refine ⟨perform_change f w, ?_⟩
  rw [List.append_nil, hdealt]

theorem state : Deals dealt (Action.state : Action τ τ) w [] (.ok w.state) w :=
  ⟨rfl, (List.append_nil _).symm⟩

end Action.Deals

theorem Observed.exists_noted (a : Action σ α) (note : Except Failure α → Dealing)
    (w : Logged (Observed σ)) : ∃ result after,
      Action.Deals Observed.dealings (noting a note) w [note result] result after :=
  ⟨_, _, rfl, rfl⟩

theorem Observed.exists_passed (a : Action σ α) (w : Logged (Observed σ)) : ∃ result after,
    Action.Deals Observed.dealings (passing a) w [] result after :=
  ⟨_, _, rfl, (List.append_nil _).symm⟩

end SumTree
