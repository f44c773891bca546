import SumTree.Proofs.Spawner.Lease

/-!
# Deploying and retiring a service

What bringing a service up and giving it up can do, whatever the engine answers: which dealings there
are, how they end, and which lease they leave. There is one relation for each part, and one lemma that
reads it off the action. The theorems on services argue by the cases of these relations and look at no
action again.

## Main Definitions

* `NetworkStep`, `ServiceStep` — what is done about the network of a service and about the service.
* `Deploys`, `BringsUp` — how a service is deployed, and how it is brought up.
* `DropsNetwork`, `GivesUp` — how the network is dropped, and how all that is held is given up.
* `Service.Finishes` — how a release ends.
-/

namespace SumTree

variable {σ : Type}

/-! ### The definition of a service -/

namespace ServiceSpec

/-- Whatever definition a computation gives is one of the service `name`. -/
def Names (name : String) (x : Except Failure ServiceSpec) : Prop :=
  ∀ spec, x = .ok spec → spec.name = name

theorem Names.bind {name : String} {α : Type} {x : Except Failure α}
    {f : α → Except Failure ServiceSpec} (h : ∀ a, Names name (f a)) : Names name (x >>= f) := by
  intro spec hspec
  obtain ⟨a, -, hspec⟩ := exists_of_bind_eq_ok hspec
  exact h a spec hspec

/-- A definition is one of the service that was asked for. -/
theorem names_ofDocument (name : String) (document : Document) :
    Names name (ofDocument name document) := by
  unfold ofDocument
  refine .bind fun compose => .bind fun services => ?_
  extract_lets withService
  have hservice : ∀ service, Names name (withService service) := by
    intro service
    unfold withService
    extract_lets image withImage
    have himage : ∀ u, Names name (withImage u) := by
      intro u
      refine .bind fun _ => .bind fun _ => .bind fun _ => .bind fun _ => .bind fun _ => ?_
      extract_lets withNetwork
      have hnetwork : ∀ network, Names name (withNetwork network) := by
        intro network
        refine .bind fun _ => .bind fun _ => .bind fun _ => .bind fun _ => .bind fun _ => ?_
        extract_lets withDriver
        have hdriver : ∀ driver, Names name (withDriver driver) := by
          rintro driver spec ⟨⟩
          rfl
        split
        · exact .bind hdriver
        · exact .bind hdriver
      split
      · exact .bind hnetwork
      · exact .bind hnetwork
    split
    · exact .bind himage
    · exact himage ()
  split
  · exact .bind hservice
  · exact .bind hservice

theorem names_load (path name : String) (complaint : Option (List UInt8) → String)
    (content? : Option (List UInt8)) : Names name (load path name complaint content?) := by
  unfold load
  split
  · rintro spec ⟨⟩
  · split
    · rintro spec ⟨⟩
    · split
      · rintro spec ⟨⟩
      · rintro spec ⟨⟩
      · exact names_ofDocument name _

end ServiceSpec

/-! ### Bringing a service up -/

/-- What is done about the network of a service: it is needless or there already, or it is created. -/
inductive NetworkStep (spec : ServiceSpec) (l : Lease) :
    List Dealing → Except Failure Unit → Lease → Prop
  | needless (hnone : spec.network.isEmpty = true) : NetworkStep spec l [] (.ok ()) l
  | unknown (failure : Failure) :
    NetworkStep spec l [.hasNetwork spec.network (.error failure)] (.error failure) l
  | present : NetworkStep spec l [.hasNetwork spec.network (.ok true)] (.ok ()) l
  | refused (failure : Failure) :
    NetworkStep spec l [.hasNetwork spec.network (.ok false),
      .createNetwork spec.network spec.networkDriver (.error failure)] (.error failure) l
  | created :
    NetworkStep spec l [.hasNetwork spec.network (.ok false),
      .createNetwork spec.network spec.networkDriver (.ok ())] (.ok ())
      { l with network? := some spec.network }

/-- What is done about the service itself: it is found and scaled, or it is created. -/
inductive ServiceStep (name : String) (count : Nat) (l : Lease) :
    List Dealing → Except Failure Unit → Lease → Prop
  | unknown (failure : Failure) :
    ServiceStep name count l [.findServices name (.error failure)] (.error failure) l
  | found {names : List String} (hfound : name ∈ names) (result : Except Failure Unit) :
    ServiceStep name count l [.findServices name (.ok names), .scaleService name count result] result
      { l with service? := some name, created := false }
  | refused {names : List String} (hfound : name ∉ names) {d : Deployment} (hname : d.name = name)
    (failure : Failure) :
    ServiceStep name count l [.findServices name (.ok names), .createService d (.error failure)]
      (.error failure) l
  | created {names : List String} (hfound : name ∉ names) {d : Deployment} (hname : d.name = name) :
    ServiceStep name count l [.findServices name (.ok names), .createService d (.ok ())] (.ok ())
      { l with service? := some name, created := true }

/-- How a service is deployed: its network comes first. -/
inductive Deploys (name : String) (count : Nat) (l : Lease) :
    List Dealing → Except Failure Unit → Lease → Prop
  | stopped {spec : ServiceSpec} {ds : List Dealing} {failure : Failure} {l' : Lease}
    (h : NetworkStep spec l ds (.error failure) l') : Deploys name count l ds (.error failure) l'
  | went {spec : ServiceSpec} {ds ds' : List Dealing} {result : Except Failure Unit} {l' l'' : Lease}
    (h : NetworkStep spec l ds (.ok ()) l') (h' : ServiceStep name count l' ds' result l'') :
    Deploys name count l (ds ++ ds') result l''

/-- How a service is brought up, if there is one to be: it is defined and deployed, and then its
replicas and the workers are waited for. -/
inductive BringsUp (name? : Option String) (count : Nat) (l : Lease) :
    List Dealing → Except Failure Unit → Lease → Prop
  | undefined (failure : Failure) : BringsUp name? count l [] (.error failure) l
  | stopped {name : String} (hname : name? = some name) {ds : List Dealing} {failure : Failure}
    {l' : Lease} (h : Deploys name count l ds (.error failure) l') :
    BringsUp name? count l ds (.error failure) l'
  | awaited {name : String} (hname : name? = some name) {ds ds' : List Dealing}
    {result : Except Failure Unit} {l' : Lease} (h : Deploys name count l ds (.ok ()) l')
    (hlooks : Looks ds' result) : BringsUp name? count l (ds ++ ds') result l'
  | static (hname : name? = none) {ds : List Dealing} {result : Except Failure Unit}
    (hlooks : Looks ds result) : BringsUp name? count l ds result l

namespace Service

open Hosted SumTree.Action

variable (engine : Engine σ) (site : Site σ)

theorem goes_definition (c : ServiceConfig) (name : String) (w : Logged (Hosted (Observed σ))) :
    ∃ result after, Goes (definition c site.observed name) w [] result w.state.lease after ∧
      ∀ spec, result = .ok spec → spec.name = name := by
  unfold definition
  split
  case h_1 path _ =>
    obtain ⟨answer, between, hcontent⟩ := Goes.exists_passed (site.content? path) w
    cases answer with
    | error failure => exact ⟨_, between, hcontent.bind_error, fun _ h => nomatch h⟩
    | ok content? =>
        cases hload : ServiceSpec.load path name (site.observed.complaint path) content? with
        | error failure =>
            refine ⟨.error failure, between, hcontent.bind ?_, fun _ h => nomatch h⟩
            rw [hload, ← hcontent.lease]
            exact .fail failure
        | ok spec =>
            refine ⟨.ok spec, between, hcontent.bind ?_, ?_⟩
            · rw [hload, ← hcontent.lease]
              exact .pure spec
            · rintro spec ⟨⟩
              exact ServiceSpec.names_load path name _ content? spec hload
  case h_2 =>
    refine ⟨_, w, .pure _, ?_⟩
    rintro spec ⟨⟩
    rfl

theorem goes_ensureNetwork (spec : ServiceSpec) (w : Logged (Hosted (Observed σ))) :
    ∃ ds result l after, Goes (ensureNetwork engine.observed spec) w ds result l after ∧
      NetworkStep spec w.state.lease ds result l := by
  unfold ensureNetwork
  split
  case isTrue hnone => exact ⟨_, _, _, w, .pure (), .needless hnone⟩
  case isFalse =>
    obtain ⟨answer, asked, hasked⟩ := Goes.exists_noted (engine.hasNetwork spec.network)
      (.hasNetwork spec.network) w
    cases answer with
    | error failure => exact ⟨_, _, _, asked, hasked.bind_error, .unknown failure⟩
    | ok present =>
        cases present with
        | true =>
            refine ⟨_, .ok (), _, asked, hasked.bind ?_, .present⟩
            rw [← hasked.lease]
            exact .pure ()
        | false =>
            let text := "Creating " ++ spec.networkDriver ++ " network " ++ spec.network
            obtain ⟨answer, created, hcreated⟩ := Goes.exists_noted
              (engine.createNetwork spec.network spec.networkDriver)
              (.createNetwork spec.network spec.networkDriver)
              ⟨asked.state, asked.journal ++ [⟨.info, text⟩]⟩
            cases answer with
            | error failure =>
                have hlease : asked.state.lease = w.state.lease := hasked.lease
                rw [← hlease]
                exact ⟨_, _, _, created, hasked.bind (.log_bind hcreated.bind_error), .refused failure⟩
            | ok u =>
                refine ⟨_, .ok (), _, _, hasked.bind (.log_bind (hcreated.bind (.change rfl))), ?_⟩
                have hlease : created.state.lease = w.state.lease := hcreated.lease.trans hasked.lease
                show NetworkStep spec _ _ _ { created.state.lease with network? := some spec.network }
                rw [hlease]
                exact .created

theorem goes_deploy (spec : ServiceSpec) (count : Nat) (w : Logged (Hosted (Observed σ))) :
    ∃ ds result l after, Goes (deploy engine.observed spec count) w ds result l after ∧
      Deploys spec.name count w.state.lease ds result l := by
  obtain ⟨ds, result, l, ensured, hensure, hnetwork⟩ := goes_ensureNetwork engine spec w
  cases result with
  | error failure => exact ⟨ds, _, l, ensured, hensure.bind_error, .stopped hnetwork⟩
  | ok u =>
      obtain ⟨answer, looked, hlooked⟩ := Goes.exists_noted (engine.findServices spec.name)
        (.findServices spec.name) ensured
      have hlease : looked.state.lease = l := hlooked.lease.trans hensure.lease
      cases answer with
      | error failure =>
          refine ⟨_, _, _, looked, hensure.bind hlooked.bind_error, .went hnetwork ?_⟩
          rw [hensure.lease]
          exact .unknown failure
      | ok names =>
          by_cases hfound : names.contains spec.name = true
          · -- The service is held before it is scaled, also when it cannot be.
            let text := "Scaling existing service " ++ spec.name ++ " to " ++ toString count
              ++ " replicas"
            obtain ⟨answer, scaled, hscaled⟩ := Goes.exists_noted
              (engine.scaleService spec.name count) (.scaleService spec.name count)
              ⟨{ looked.state with service? := some spec.name, created := false },
                looked.journal ++ [⟨.info, text⟩]⟩
            refine ⟨ds ++ ([.findServices spec.name (.ok names)] ++
                [.scaleService spec.name count answer]), answer,
              { looked.state.lease with service? := some spec.name, created := false }, scaled,
              hensure.bind (hlooked.bind ?_), .went hnetwork ?_⟩
            · show Goes (if _ then _ else _) looked [.scaleService spec.name count answer] answer
                { looked.state.lease with service? := some spec.name, created := false } scaled
              rw [if_pos hfound]
              exact .change_bind rfl (.log_bind hscaled)
            · rw [hlease]
              exact .found (by simpa using hfound) answer
          · -- The service is held only once it was created.
            let text := "Creating service " ++ spec.name ++ " with " ++ toString count ++ " replicas"
            let d : Deployment := ⟨spec.name, spec.image, count, publications spec.ports,
              if spec.network.isEmpty then none else some spec.network, spec.constraints⟩
            obtain ⟨answer, created, hcreated⟩ := Goes.exists_noted (engine.createService d)
              (.createService d) ⟨looked.state, looked.journal ++ [⟨.info, text⟩]⟩
            have hnone : spec.name ∉ names := by simpa using hfound
            cases answer with
            | error failure =>
                refine ⟨ds ++ ([.findServices spec.name (.ok names)] ++
                    [.createService d (.error failure)]), .error failure, looked.state.lease, created,
                  hensure.bind (hlooked.bind ?_), .went hnetwork ?_⟩
                · show Goes (if _ then _ else _) looked [.createService d (.error failure)]
                    (.error failure) looked.state.lease created
                  rw [if_neg hfound]
                  exact .log_bind hcreated.bind_error
                · rw [hlease]
                  exact .refused hnone rfl failure
            | ok u =>
                have hlease' : created.state.lease = l := hcreated.lease.trans hlease
                refine ⟨ds ++ ([.findServices spec.name (.ok names)] ++
                    [.createService d (.ok ())]), .ok (),
                  { created.state.lease with service? := some spec.name, created := true },
                  ⟨{ created.state with service? := some spec.name, created := true },
                    created.journal⟩, hensure.bind (hlooked.bind ?_), .went hnetwork ?_⟩
                · show Goes (if _ then _ else _) looked [.createService d (.ok ())] (.ok ())
                    { created.state.lease with service? := some spec.name, created := true } _
                  rw [if_neg hfound]
                  exact .log_bind (hcreated.bind (.change rfl))
                · rw [hlease']
                  exact .created hnone rfl

theorem goes_bringUp (c : ServiceConfig) (handles : List Handle) (w : Logged (Hosted (Observed σ))) :
    ∃ ds result l after, Goes (bringUp c engine.observed site.observed handles) w ds result l after ∧
      BringsUp c.serviceName? handles.length w.state.lease ds result l := by
  have hwait : ∀ between : Logged (Hosted (Observed σ)), ∃ ds result after,
      Goes (onWorld (site.observed.awaitAll (.real c.readinessTimeout) (.real c.readinessInterval)
        handles)) between ds result between.state.lease after ∧ Looks ds result := by
    intro between
    obtain ⟨ds, result, inner, hdeals, hlooks, -⟩ := site.deals_awaitAll
      (.real c.readinessTimeout) (.real c.readinessInterval) handles (between.map Hosted.world)
    exact ⟨ds, result, _, .onWorld hdeals, hlooks⟩
  unfold bringUp
  dsimp only
  split
  case h_1 name hname =>
    obtain ⟨answer, defined, hdefine, hspec⟩ := goes_definition site c name w
    cases answer with
    | error failure => exact ⟨[], _, _, defined, hdefine.bind_error, .undefined failure⟩
    | ok spec =>
        obtain ⟨ds, result, l, deployed, hdeploy, hdeploys⟩ :=
          goes_deploy engine spec handles.length defined
        rw [hspec spec rfl, hdefine.lease] at hdeploys
        cases result with
        | error failure =>
            exact ⟨_, _, l, deployed, hdefine.bind hdeploy.bind_error, .stopped hname hdeploys⟩
        | ok u =>
            obtain ⟨ds', result, replicated, hreplicas, hlooks⟩ := goes_awaitReplicas engine name
              handles.length (Readiness.attempts (.real c.readinessTimeout)
                (.real c.readinessInterval)) deployed
            rw [hdeploy.lease] at hreplicas
            cases result with
            | error failure =>
                exact ⟨ds ++ ds', _, l, replicated, hdefine.bind (hdeploy.bind hreplicas.bind_error),
                  .awaited hname hdeploys hlooks⟩
            | ok u =>
                obtain ⟨ds'', result, after, hready, hlooks'⟩ := hwait replicated
                rw [hreplicas.lease] at hready
                exact ⟨ds ++ (ds' ++ ds''), result, l, after,
                  hdefine.bind (hdeploy.bind (hreplicas.bind hready)),
                  .awaited hname hdeploys (hlooks.append hlooks')⟩
  case h_2 hname =>
    obtain ⟨ds, result, after, hready, hlooks⟩ := hwait w
    exact ⟨ds, result, _, after, hready, .static hname hlooks⟩

end Service

/-! ### Giving up what is held -/

/-- The network that was created is asked to be removed, if there is one. -/
inductive DropsNetwork (l : Lease) : List Dealing → Except Failure Unit → Lease → Prop
  | none (hnone : l.network? = none) : DropsNetwork l [] (.ok ()) l
  | asked {network : String} (hnetwork : l.network? = some network) (result : Except Failure Unit) :
    DropsNetwork l [.removeNetwork network result] result { l with network? := none }

/-- How a service that is held is dismissed: it is removed if it was created, and scaled to nothing if
it was found. -/
def Lease.dismissal (l : Lease) (name : String) (result : Except Failure Unit) : Dealing :=
  if l.created then .removeService name result else .scaleService name 0 result

/-- How what is held is given up: the service first, and unless that fails the network. -/
inductive GivesUp (l : Lease) : List Dealing → Except Failure Unit → Lease → Prop
  | bare (hnone : l.service? = none) {ds : List Dealing} {result : Except Failure Unit} {l' : Lease}
    (h : DropsNetwork l ds result l') : GivesUp l ds result l'
  | stuck {name : String} (hname : l.service? = some name) (failure : Failure) :
    GivesUp l [l.dismissal name (.error failure)] (.error failure) { l with service? := none }
  | dismissed {name : String} (hname : l.service? = some name) {ds : List Dealing}
    {result : Except Failure Unit} {l' : Lease}
    (h : DropsNetwork { l with service? := none } ds result l') :
    GivesUp l (l.dismissal name (.ok ()) :: ds) result l'

namespace Service

open Hosted SumTree.Action

variable (engine : Engine σ) (site : Site σ)

theorem goes_retireNetwork (logged : Bool) (w : Logged (Hosted (Observed σ))) :
    ∃ ds result l after, Goes (retireNetwork engine.observed logged) w ds result l after ∧
      DropsNetwork w.state.lease ds result l := by
  cases hnetwork : w.state.network? with
  | none =>
      refine ⟨[], .ok (), _, w, .state_bind ?_, .none hnetwork⟩
      rw [hnetwork]
      exact .pure ()
  | some network =>
      have hremove : ∀ journal, ∃ result after,
          Goes (onWorld (engine.observed.removeNetwork network))
            ⟨{ w.state with network? := none }, journal⟩ [.removeNetwork network result] result
            { w.state.lease with network? := none } after :=
        fun journal => Goes.exists_noted (engine.removeNetwork network) (.removeNetwork network)
          ⟨{ w.state with network? := none }, journal⟩
      have hgoes : ∃ result after, Goes (retireNetwork engine.observed logged) w
          [.removeNetwork network result] result { w.state.lease with network? := none } after := by
        cases logged with
        | true =>
            obtain ⟨result, after, h⟩ :=
              hremove (w.journal ++ [⟨.info, "Removing network " ++ network⟩])
            refine ⟨result, after, .state_bind ?_⟩
            rw [hnetwork]
            exact .change_bind rfl (.log_bind h)
        | false =>
            obtain ⟨result, after, h⟩ := hremove w.journal
            refine ⟨result, after, .state_bind ?_⟩
            rw [hnetwork]
            exact .change_bind rfl h
      obtain ⟨result, after, h⟩ := hgoes
      exact ⟨_, result, _, after, h, .asked hnetwork result⟩

/-- Once it is forgotten the service is dismissed in the one way or the other, and unless that fails
the network is dropped. -/
theorem goes_dismiss {name : String} (text : String) {w : Logged (Hosted (Observed σ))}
    (hname : w.state.service? = some name) (dismiss : Action (Hosted (Observed σ)) Unit)
    {a : Action σ Unit} {note : Except Failure Unit → Dealing}
    (hdismiss : dismiss = onWorld (Observed.noting a note))
    (hnote : ∀ result, note result = w.state.lease.dismissal name result) :
    ∃ ds result l after, Goes (do
        Action.log .info text
        dismiss
        retireNetwork engine.observed true) ⟨{ w.state with service? := none }, w.journal⟩
        ds result l after ∧ GivesUp w.state.lease ds result l := by
  subst hdismiss
  obtain ⟨answer, dismissed, hasked⟩ := Goes.exists_noted a note
    ⟨{ w.state with service? := none }, w.journal ++ [⟨.info, text⟩]⟩
  rw [hnote] at hasked
  cases answer with
  | error failure =>
      exact ⟨_, _, _, dismissed, .log_bind hasked.bind_error, .stuck hname failure⟩
  | ok u =>
      obtain ⟨ds, result, l, after, hdrop, hdrops⟩ :=
        goes_retireNetwork engine true dismissed
      rw [hasked.lease] at hdrops
      exact ⟨_, result, l, after, .log_bind (hasked.bind hdrop), .dismissed hname hdrops⟩

theorem goes_retire {name : String} {w : Logged (Hosted (Observed σ))}
    (hname : w.state.service? = some name) :
    ∃ ds result l after, Goes (retire engine.observed name) w ds result l after ∧
      GivesUp w.state.lease ds result l := by
  cases hcreated : w.state.created with
  | true =>
      obtain ⟨ds, result, l, after, hgoes, hgives⟩ := goes_dismiss engine
        ("Removing service " ++ name) hname (onWorld (engine.observed.removeService name)) rfl
        (fun _ => (if_pos hcreated).symm)
      refine ⟨ds, result, l, after, .change_bind rfl (.state_bind ?_), hgives⟩
      show Goes (if w.state.created then _ else _) _ _ _ _ _
      rw [if_pos hcreated]
      exact hgoes
  | false =>
      have hfound : ¬ w.state.created = true := by simp [hcreated]
      obtain ⟨ds, result, l, after, hgoes, hgives⟩ := goes_dismiss engine
        ("Scaling service " ++ name ++ " to zero") hname
        (onWorld (engine.observed.scaleService name 0)) rfl
        (fun _ => (if_neg hfound).symm)
      refine ⟨ds, result, l, after, .change_bind rfl (.state_bind ?_), hgives⟩
      show Goes (if w.state.created then _ else _) _ _ _ _ _
      rw [if_neg hfound]
      exact hgoes

/-- What is left of a failure when the engine's own are kept. -/
def kept : Except Failure Unit → Except Failure (Option Failure)
  | .ok () => .ok none
  | .error failure => if failure.isEngine then .ok (some failure) else .error failure

theorem goes_guarded {a : Action (Hosted (Observed σ)) Unit} {w after : Logged (Hosted (Observed σ))}
    {ds : List Dealing} {result : Except Failure Unit} {l : Lease} (h : Goes a w ds result l after) :
    Goes (guarded a) w ds (kept result) l after := by
  have hds := List.append_nil ds
  rw [← hds, ← h.lease]
  refine h.attempt.bind ?_
  cases result with
  | ok u => exact .pure none
  | error failure =>
      show Goes (if _ then _ else _) after [] (if _ then _ else _) _ after
      split
      · exact .pure _
      · exact .fail failure

/-- What comes after a guarded action leaves what is held alone, whatever failure was kept. -/
theorem goes_guarded_bind {a : Action (Hosted (Observed σ)) Unit}
    {k : Option Failure → Action (Hosted (Observed σ)) β} {w undone : Logged (Hosted (Observed σ))}
    {ds : List Dealing} {result : Except Failure Unit} {l : Lease} (last : Option Failure → β)
    (h : Goes a w ds result l undone)
    (hlast : ∀ failure?, ∃ after,
      Goes (k failure?) undone [] (.ok (last failure?)) undone.state.lease after) :
    ∃ after, Goes (guarded a >>= k) w ds ((kept result).map last) l after := by
  have hguarded := goes_guarded h
  cases hkept : kept result with
  | error failure =>
      rw [hkept] at hguarded
      exact ⟨undone, hguarded.bind_error⟩
  | ok failure? =>
      rw [hkept] at hguarded
      obtain ⟨after, hafter⟩ := hlast failure?
      rw [hguarded.lease] at hafter
      refine ⟨after, ?_⟩
      rw [← List.append_nil ds]
      exact hguarded.bind hafter

/-- When an acquisition failed, what is held is given up; the engine's own failures are not passed
on. -/
theorem goes_retreat (w : Logged (Hosted (Observed σ))) :
    ∃ ds result l after, Goes (retreat engine.observed) w ds ((kept result).map fun _ => ()) l after ∧
      GivesUp w.state.lease ds result l := by
  cases hservice : w.state.service? with
  | some name =>
      obtain ⟨ds, result, l, undone, hgoes, hgives⟩ := goes_retire engine hservice
      obtain ⟨after, h⟩ : ∃ after,
          Goes (retreat engine.observed) w ds ((kept result).map fun _ => ()) l after := by
        refine Exists.imp (fun _ => .state_bind) ?_
        rw [hservice]
        refine goes_guarded_bind (fun _ => ()) hgoes ?_
        rintro (_ | failure)
        · exact ⟨_, .pure ()⟩
        · exact ⟨_, .log _ _⟩
      exact ⟨ds, result, l, after, h, hgives⟩
  | none =>
      obtain ⟨ds, result, l, undone, hgoes, hdrops⟩ := goes_retireNetwork engine false w
      obtain ⟨after, h⟩ : ∃ after,
          Goes (retreat engine.observed) w ds ((kept result).map fun _ => ()) l after := by
        refine Exists.imp (fun _ => .state_bind) ?_
        rw [hservice]
        refine goes_guarded_bind (fun _ => ()) hgoes ?_
        rintro (_ | failure)
        · exact ⟨_, .pure ()⟩
        · exact ⟨_, .log _ _⟩
      exact ⟨ds, result, l, after, h, .bare hservice hdrops⟩

/-- What is reported of handles that were taken down when what was held is given up: a failure of the
engine, for each of them. -/
def late (released : List Handle) (undone : Except Failure Unit) : Except Failure (List Leftover) :=
  (kept undone).map fun failure? =>
    failure?.elim [] fun failure => released.map fun h => ⟨h, failure.inFull⟩

/-- How a release ends: the service is given up if there is one and no worker is live. -/
inductive Finishes (live released : List Handle) (l : Lease) :
    List Dealing → Except Failure (List Leftover) → Lease → Prop
  | kept (hkept : live ≠ [] ∨ l.service? = none) : Finishes live released l [] (.ok []) l
  | gaveUp (hnone : live = []) (hservice : l.service?.isSome = true) {ds : List Dealing}
    {undone : Except Failure Unit} {l' : Lease} (h : GivesUp l ds undone l') :
    Finishes live released l ds (late released undone) l'

theorem goes_finishRelease (live released : List Handle) (w : Logged (Hosted (Observed σ))) :
    ∃ ds result l after, Goes (finishRelease engine.observed live released) w ds result l after ∧
      Finishes live released w.state.lease ds result l := by
  cases hservice : w.state.service? with
  | none =>
      refine ⟨[], .ok [], _, w, .state_bind ?_, .kept (.inr hservice)⟩
      rw [hservice]
      exact .pure []
  | some name =>
      cases live with
      | cons h rest =>
          refine ⟨[], .ok [], _, w, .state_bind ?_, .kept (.inl (List.cons_ne_nil h rest))⟩
          rw [hservice]
          exact .pure []
      | nil =>
          obtain ⟨ds, undone, l, retired, hretire, hgives⟩ := goes_retire engine hservice
          obtain ⟨after, h⟩ : ∃ after, Goes (finishRelease engine.observed [] released) w ds
              (late released undone) l after := by
            refine Exists.imp (fun _ => .state_bind) ?_
            rw [hservice]
            refine goes_guarded_bind _ hretire ?_
            rintro (_ | failure)
            · exact ⟨_, .pure []⟩
            · exact ⟨_, .log_bind (.pure _)⟩
          have hsome : w.state.lease.service?.isSome = true := Option.isSome_of_eq_some hservice
          exact ⟨ds, _, l, after, h, .gaveUp rfl hsome hgives⟩

end Service

end SumTree
