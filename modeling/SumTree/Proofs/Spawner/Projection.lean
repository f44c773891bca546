import SumTree.Proofs.Spawner.Calls
import SumTree.Spawner.Containers
import SumTree.Spawner.Service

/-!
# Spawners over engines seen through a projection

An engine and a machine that remember what they are asked for, and pass it on, are others seen through
the projection that forgets it (`Engine.Seen`, `Site.Seen`). So are the providers over them
(`Containers.seen_provider`, `Service.seen_provider`), whatever it is that is remembered.

## Main Definitions

* `Engine.Seen`, `Site.Seen` — an engine and a machine that are others seen through a projection.
* `Hosted.through` — what a spawner holds, seen through a projection of the world.
* `Containers.bringUp`, `Containers.settle` — the two parts of provisioning containers.
-/

namespace SumTree

variable {σ τ α : Type}

/-- What a spawner holds, seen through a projection of the world. -/
def Hosted.through (f : τ → σ) (h : Hosted τ) : Hosted σ :=
  ⟨h.service?, h.created, h.network?, f h.world⟩

open SumTree.Action

theorem Action.Projects.mapM {β : Type} {f : τ → σ} {a : α → Action τ β} {b : α → Action σ β}
    (h : ∀ x, Projects f (a x) (b x)) (xs : List α) : Projects f (xs.mapM a) (xs.mapM b) := by
  induction xs with
  | nil => exact .pure []
  | cons x rest ih =>
      rw [List.mapM_cons, List.mapM_cons]
      exact .bind (h x) fun y => .bind ih fun ys => .pure (y :: ys)

/-- The one engine is the other one seen through a projection of the worlds. -/
structure Engine.Seen (f : τ → σ) (engine : Engine τ) (engine' : Engine σ) : Prop where
  runContainer : ∀ spec, Projects f (engine.runContainer spec) (engine'.runContainer spec)
  findContainer : ∀ id, Projects f (engine.findContainer id) (engine'.findContainer id)
  stopContainer : ∀ id grace,
    Projects f (engine.stopContainer id grace) (engine'.stopContainer id grace)
  removeContainer : ∀ id, Projects f (engine.removeContainer id) (engine'.removeContainer id)
  hasNetwork : ∀ name, Projects f (engine.hasNetwork name) (engine'.hasNetwork name)
  createNetwork : ∀ name driver,
    Projects f (engine.createNetwork name driver) (engine'.createNetwork name driver)
  removeNetwork : ∀ name, Projects f (engine.removeNetwork name) (engine'.removeNetwork name)
  findServices : ∀ name, Projects f (engine.findServices name) (engine'.findServices name)
  createService : ∀ d, Projects f (engine.createService d) (engine'.createService d)
  scaleService : ∀ name count,
    Projects f (engine.scaleService name count) (engine'.scaleService name count)
  removeService : ∀ name, Projects f (engine.removeService name) (engine'.removeService name)
  refreshService : ∀ name, Projects f (engine.refreshService name) (engine'.refreshService name)
  tasks : ∀ name, Projects f (engine.tasks name) (engine'.tasks name)

/-- The one machine is the other one seen through a projection of the worlds. -/
structure Site.Seen (f : τ → σ) (site : Site τ) (site' : Site σ) : Prop where
  freePort : ∀ host, Projects f (site.freePort host) (site'.freePort host)
  runTag : Projects f site.runTag site'.runTag
  content? : ∀ path, Projects f (site.content? path) (site'.content? path)
  complaint : site.complaint = site'.complaint
  awaitReady : ∀ address timeout interval,
    Projects f (site.awaitReady address timeout interval) (site'.awaitReady address timeout interval)
  givenUpFirst : ∀ first rest, site.givenUpFirst first rest = site'.givenUpFirst first rest

variable {f : τ → σ} {engine : Engine τ} {engine' : Engine σ} {site : Site τ} {site' : Site σ}

theorem Site.Seen.awaitAll (h : Site.Seen f site site') (timeout interval : Number)
    (handles : List Handle) : Projects f (site.awaitAll timeout interval handles)
      (site'.awaitAll timeout interval handles) := by
  have hreach : ∀ x, Projects f (site.reach? timeout interval x) (site'.reach? timeout interval x) := by
    refine fun x => .bind (.attempt (h.awaitReady _ _ _)) fun result => ?_
    cases result with
    | ok _ => exact .pure none
    | error failure => exact .pure _
  refine .bind (.mapM hreach handles) fun results => ?_
  split
  · exact .pure ()
  · rw [h.givenUpFirst]
    exact .fail _

namespace Containers

/-- Starts `count` workers and waits for them: those that were started, and the failure that ended
it. -/
def bringUp {τ : Type} (c : ContainerConfig) (engine : Engine τ) (site : Site τ) (count : Nat)
    (tag : String) : Action τ (List Handle × Option Failure) := do
  let (handles, failure?) ← startFrom c engine site tag count 0 []
  match failure? with
  | some failure => return (handles, some failure)
  | none =>
    match ← Action.attempt (site.awaitAll (.real c.readinessTimeout) (.real c.readinessInterval)
      handles) with
    | .ok () => return (handles, none)
    | .error failure => return (handles, some failure)

/-- What is done with the workers that were started: they are handed out, or after a failure that is
expected taken down. -/
def settle {τ : Type} (engine : Engine τ) (count : Nat) :
    List Handle × Option Failure → Action τ (List Handle)
  | (handles, none) => return handles
  | (handles, some failure) =>
    if failure.isEngine || failure.isSystem then do
      Action.log .warning ("Provisioning failed after " ++ toString handles.length
        ++ " container(s), cleaning up")
      (base engine).discard handles
      Provider.refuse count failure.inFull
    else Action.fail failure

theorem provision_eq {τ : Type} (c : ContainerConfig) (engine : Engine τ) (site : Site τ)
    (count : Nat) :
    provision c engine site count = (do
      let tag ← site.runTag
      let brought ← bringUp c engine site count tag
      settle engine count brought) := by
  refine bind_congr fun tag => ?_
  rw [bringUp, bind_assoc]
  refine bind_congr fun (handles, failure?) => ?_
  cases failure? with
  | some failure => rfl
  | none =>
      dsimp only
      rw [bind_assoc]
      refine bind_congr fun result => ?_
      cases result with
      | ok u => rfl
      | error failure => rfl

variable (hengine : Engine.Seen f engine engine') (hsite : Site.Seen f site site')

include hengine

theorem projects_teardown (h : Handle) : Projects f (teardown engine h) (teardown engine' h) := by
  unfold teardown
  cases h.token with
  | number n => exact .pure ()
  | text id =>
      exact .bind (hengine.findContainer id) fun _ => .bind (hengine.stopContainer id 5) fun _ =>
        hengine.removeContainer id

theorem seen_base : Provider.Seen f (base engine) (base engine') :=
  ⟨rfl, fun _ => .pure [], projects_teardown hengine, fun _ _ => .pure []⟩

include hsite

theorem projects_start (c : ContainerConfig) (tag : String) (index : Nat) :
    Projects f (start c engine site tag index) (start c engine' site' tag index) :=
  .bind (hsite.freePort c.host) fun _ => .bind (hengine.runContainer _) fun _ => .pure _

theorem projects_startFrom (c : ContainerConfig) (tag : String) (left index : Nat)
    (started : List Handle) :
    Projects f (startFrom c engine site tag left index started)
      (startFrom c engine' site' tag left index started) := by
  induction left generalizing index started with
  | zero => exact .pure _
  | succ left ih =>
      refine .bind (.attempt (projects_start hengine hsite c tag index)) fun result => ?_
      cases result with
      | ok h => exact ih _ _
      | error failure => exact .pure _

theorem projects_provision (c : ContainerConfig) (count : Nat) :
    Projects f (provision c engine site count) (provision c engine' site' count) := by
  rw [provision_eq, provision_eq]
  refine .bind hsite.runTag fun tag => .bind ?_ fun (handles, failure?) => ?_
  · refine .bind (projects_startFrom hengine hsite c tag _ _ _) fun (handles, failure?) => ?_
    cases failure? with
    | some failure => exact .pure _
    | none =>
        refine .bind (.attempt (hsite.awaitAll _ _ handles)) fun result => ?_
        cases result with
        | ok u => exact .pure _
        | error failure => exact .pure _
  · cases failure? with
    | none => exact .pure handles
    | some failure =>
        unfold settle
        dsimp only
        split
        · exact .bind (.log _ _) fun _ => .bind ((seen_base hengine).discard handles) fun _ => .fail _
        · exact .fail failure

/-- The provider of containers over an engine that is seen through a projection is seen through it. -/
theorem seen_provider (c : ContainerConfig) :
    Provider.Seen f (provider c engine site) (provider c engine' site') :=
  ⟨rfl, projects_provision hengine hsite c, projects_teardown hengine, fun _ _ => .pure []⟩

end Containers

namespace Service

theorem projects_onWorld {a : Action τ α} {b : Action σ α} (h : Projects f a b) :
    Projects (Hosted.through f) (onWorld a) (onWorld b) :=
  .onPart (fun _ => rfl) (fun _ _ => rfl) h

theorem projects_guarded {a : Action (Hosted τ) Unit} {b : Action (Hosted σ) Unit}
    (h : Projects (Hosted.through f) a b) :
    Projects (Hosted.through f) (guarded a) (guarded b) := by
  refine .bind (.attempt h) fun result => ?_
  cases result with
  | ok u => exact .pure none
  | error failure =>
      dsimp only
      split
      · exact .pure _
      · exact .fail _

theorem projects_definition (hsite : Site.Seen f site site') (c : ServiceConfig) (name : String) :
    Projects (Hosted.through f) (definition c site name) (definition c site' name) := by
  unfold definition
  split
  · rw [hsite.complaint]
    refine .bind (projects_onWorld (hsite.content? _)) fun content? => ?_
    split
    · exact .pure _
    · exact .fail _
  · exact .pure _

variable (hengine : Engine.Seen f engine engine')

include hengine

theorem projects_ensureNetwork (spec : ServiceSpec) :
    Projects (Hosted.through f) (ensureNetwork engine spec) (ensureNetwork engine' spec) := by
  unfold ensureNetwork
  split
  · exact .pure ()
  · refine .bind (projects_onWorld (hengine.hasNetwork _)) fun present => ?_
    split
    · exact .pure ()
    · exact .bind (.log _ _) fun _ => .bind (projects_onWorld (hengine.createNetwork _ _)) fun _ =>
        .change fun _ => rfl

theorem projects_deploy (spec : ServiceSpec) (count : Nat) :
    Projects (Hosted.through f) (deploy engine spec count) (deploy engine' spec count) := by
  refine .bind (projects_ensureNetwork hengine spec) fun _ =>
    .bind (projects_onWorld (hengine.findServices _)) fun found => ?_
  split
  · exact .bind (.change fun _ => rfl) fun _ => .bind (.log _ _) fun _ =>
      projects_onWorld (hengine.scaleService _ _)
  · exact .bind (.log _ _) fun _ => .bind (projects_onWorld (hengine.createService _)) fun _ =>
      .change fun _ => rfl

theorem projects_awaitReplicas (name : String) (count left : Nat) :
    Projects (Hosted.through f) (awaitReplicas engine name count left)
      (awaitReplicas engine' name count left) := by
  have hcheck : Projects (Hosted.through f) (checkReplicas engine name count)
      (checkReplicas engine' name count) := by
    refine .bind (projects_onWorld (hengine.refreshService _)) fun _ =>
      .bind (projects_onWorld (hengine.tasks _)) ?_
    intro states
    dsimp only
    split
    · exact .fail _
    · exact .pure ()
  induction left with
  | zero => exact .pure ()
  | succ left ih =>
      refine .bind (.attempt hcheck) fun result => ?_
      split
      · exact .pure ()
      · split
        · exact .fail _
        · exact ih
      · exact .fail _

theorem projects_retireNetwork (logged : Bool) :
    Projects (Hosted.through f) (retireNetwork engine logged) (retireNetwork engine' logged) := by
  refine .state_bind fun h => ?_
  obtain ⟨service?, created, network?, world⟩ := h
  cases network? with
  | none => exact .pure ()
  | some network =>
      refine .bind (.change fun _ => rfl) fun _ => ?_
      dsimp only
      split
      · exact .bind (.log _ _) fun _ => projects_onWorld (hengine.removeNetwork _)
      · exact .bind (.pure ()) fun _ => projects_onWorld (hengine.removeNetwork _)

theorem projects_retire (name : String) :
    Projects (Hosted.through f) (retire engine name) (retire engine' name) := by
  refine .bind (.change fun _ => rfl) fun _ => .state_bind fun h => ?_
  show Projects _ (if h.created then _ else _) (if h.created then _ else _)
  split
  · exact .bind (.log _ _) fun _ => .bind (projects_onWorld (hengine.removeService _)) fun _ =>
      projects_retireNetwork hengine true
  · exact .bind (.log _ _) fun _ => .bind (projects_onWorld (hengine.scaleService _ _)) fun _ =>
      projects_retireNetwork hengine true

theorem projects_retreat :
    Projects (Hosted.through f) (retreat engine) (retreat engine') := by
  refine .state_bind fun h => ?_
  obtain ⟨service?, created, network?, world⟩ := h
  refine .bind (projects_guarded ?_) fun failure? => ?_
  · cases service? with
    | none => exact projects_retireNetwork hengine false
    | some name => exact projects_retire hengine name
  · cases failure? with
    | none => exact .pure ()
    | some failure => exact .log _ _

theorem projects_bringUp (hsite : Site.Seen f site site') (c : ServiceConfig) (handles : List Handle) :
    Projects (Hosted.through f) (bringUp c engine site handles) (bringUp c engine' site' handles) := by
  have hwait := projects_onWorld (hsite.awaitAll (.real c.readinessTimeout)
    (.real c.readinessInterval) handles)
  unfold bringUp
  dsimp only
  split
  · exact .bind (projects_definition hsite c _) fun spec =>
      .bind (projects_deploy hengine spec _) fun _ =>
        .bind (projects_awaitReplicas hengine _ _ _) fun _ => hwait
  · exact .bind (.pure ()) fun _ => hwait

theorem projects_provision (hsite : Site.Seen f site site') (c : ServiceConfig) (count : Nat) :
    Projects (Hosted.through f) (provision c engine site count) (provision c engine' site' count) := by
  unfold provision
  split
  · exact .fail _
  · refine .bind (projects_onWorld hsite.runTag) fun tag =>
      .bind (.attempt (projects_bringUp hengine hsite c _)) fun result => ?_
    cases result with
    | ok u => exact .pure _
    | error failure =>
        dsimp only
        split
        · split
          · exact .bind (projects_retreat hengine) fun _ => .fail _
          · exact .bind (.pure ()) fun _ => .fail _
        · exact .fail failure

theorem projects_finishRelease (live released : List Handle) :
    Projects (Hosted.through f) (finishRelease engine live released)
      (finishRelease engine' live released) := by
  refine .state_bind fun h => ?_
  obtain ⟨service?, created, network?, world⟩ := h
  cases service? with
  | none => exact .pure []
  | some name =>
      dsimp only
      split
      · exact .pure []
      · refine .bind (projects_guarded (projects_retire hengine name)) fun failure? => ?_
        cases failure? with
        | none => exact .pure []
        | some failure => exact .bind (.log _ _) fun _ => .pure _

/-- The provider of a service over an engine that is seen through a projection is seen through it. -/
theorem seen_provider (hsite : Site.Seen f site site') (c : ServiceConfig) :
    Provider.Seen (Hosted.through f) (provider c engine site) (provider c engine' site') :=
  ⟨rfl, projects_provision hengine hsite c, fun _ => .pure (), projects_finishRelease hengine⟩

end Service

end SumTree
