import SumTree.Proofs.Spawner.Ownership

/-!
# Retiring after failures

What becomes of the service and of the network that a spawner holds when its last workers are released,
whatever fails then. Each is forgotten before it is taken down, and the network is not touched when the
service could not be dismissed (`GivesUp.of_held`). So the network is still held after a failure of the
service, and later calls take it down; but a network that could not be removed is never asked for
again, and a service that could not be removed is found by later calls and passes for one that was
there before (`Service.retires_on_last_release`). A spawner that holds no service any more, because an
acquisition failed while workers were live, does nothing at all (`Service.perform_release_last`).

The later calls are undisturbed ones (`Service.Cycle`), so that the inductions over these apply; only
that they start from what is left after a failure (`Resumes`).

## Main Definitions

* `SparesNetwork`, `KeepsNetwork` — what becomes of a network that is not held, and of one that is.
* `Resumes` — what a spawner holds between calls, after failures as well.
* `Service.Cycle` — later undisturbed calls, after which no worker is live.
* `Service.Tells` — how a release tells what failed.
-/

namespace SumTree

/-! ### Giving up what is held -/

/-- A service that is held is dismissed first of all and forgotten, and the network is dropped unless
this fails. -/
theorem GivesUp.of_held {l l' : Lease} {ds : List Dealing} {undone : Except Failure Unit}
    (h : GivesUp l ds undone l') {name : String} (hname : l.service? = some name) :
    ∃ dismissed rest, ds = l.dismissal name dismissed :: rest ∧ l'.service? = none ∧
      ((∃ failure, dismissed = .error failure ∧ rest = [] ∧ undone = .error failure ∧
          l'.network? = l.network?) ∨
        dismissed = .ok () ∧ DropsNetwork { l with service? := none } rest undone l') := by
  cases h with
  | bare hnone h =>
      rw [hnone] at hname
      cases hname
  | stuck hname' failure =>
      cases hname.symm.trans hname'
      exact ⟨.error failure, [], rfl, rfl, .inl ⟨failure, rfl, rfl, rfl, rfl⟩⟩
  | dismissed hname' h =>
      cases hname.symm.trans hname'
      exact ⟨.ok (), _, rfl, h.held_eq.1, .inr ⟨rfl, h⟩⟩

theorem DropsNetwork.exists_removal {l l' : Lease} {ds : List Dealing}
    {result : Except Failure Unit} (h : DropsNetwork l ds result l') {network : String}
    (hnetwork : l.network? = some network) : ∃ removed, .removeNetwork network removed ∈ ds := by
  cases h with
  | none hnone =>
      rw [hnone] at hnetwork
      cases hnetwork
  | asked hnetwork' result =>
      cases hnetwork.symm.trans hnetwork'
      exact ⟨result, List.mem_cons_self⟩

theorem DropsNetwork.eq_of_failure? {l l' : Lease} {ds : List Dealing}
    {result : Except Failure Unit} (h : DropsNetwork l ds result l') {d : Dealing} (hd : d ∈ ds)
    {failure : Failure} (hfailure : d.failure? = some failure) : result = .error failure := by
  cases h with
  | none hnone => cases hd
  | asked hnetwork result =>
      rw [List.mem_singleton.mp hd] at hfailure
      exact eq_error_of_failureOf? hfailure

theorem Lease.removal_ne_dismissal {l : Lease} {name network : String}
    {removed dismissed : Except Failure Unit} :
    .removeNetwork network removed ≠ l.dismissal name dismissed := by
  unfold Lease.dismissal
  split
  · rintro ⟨⟩
  · rintro ⟨⟩

theorem Lease.dismissal_inj {l : Lease} {name : String} {dismissed dismissed' : Except Failure Unit} :
    l.dismissal name dismissed = l.dismissal name dismissed' ↔ dismissed = dismissed' := by
  unfold Lease.dismissal
  split
  · simp
  · simp

/-- The network that is held is asked to be removed exactly when the service could be dismissed. -/
theorem GivesUp.removal_iff {l l' : Lease} {ds : List Dealing} {undone : Except Failure Unit}
    (h : GivesUp l ds undone l') {name network : String} (hname : l.service? = some name)
    (hnetwork : l.network? = some network) :
    (∃ removed, .removeNetwork network removed ∈ ds) ↔ l.dismissal name (.ok ()) ∈ ds := by
  obtain ⟨dismissed, rest, rfl, -, ⟨failure, rfl, rfl, -, -⟩ | ⟨rfl, hdrops⟩⟩ := h.of_held hname
  · simp [Lease.removal_ne_dismissal, Lease.dismissal_inj]
  · obtain ⟨removed, hremoved⟩ := hdrops.exists_removal hnetwork
    exact iff_of_true ⟨removed, List.mem_cons_of_mem _ hremoved⟩ List.mem_cons_self

/-- A network is still held exactly when it was held and nobody asked for its removal. -/
theorem GivesUp.network?_eq_some_iff {l l' : Lease} {ds : List Dealing}
    {undone : Except Failure Unit} (h : GivesUp l ds undone l') {name : String}
    (hname : l.service? = some name) (network : String) :
    l'.network? = some network ↔
      l.network? = some network ∧ ∀ removed, .removeNetwork network removed ∉ ds := by
  obtain ⟨dismissed, rest, rfl, -, ⟨failure, rfl, rfl, -, hnetwork⟩ | ⟨rfl, hdrops⟩⟩ :=
    h.of_held hname
  · simp [Lease.removal_ne_dismissal, hnetwork]
  · rw [hdrops.held_eq.2]
    refine iff_of_false (by simp) ?_
    rintro ⟨hnetwork, hnone⟩
    obtain ⟨removed, hremoved⟩ := hdrops.exists_removal hnetwork
    exact hnone removed (List.mem_cons_of_mem _ hremoved)

/-- The first failure ends it. -/
theorem GivesUp.eq_of_failure? {l l' : Lease} {ds : List Dealing} {undone : Except Failure Unit}
    (h : GivesUp l ds undone l') {d : Dealing} (hd : d ∈ ds) {failure : Failure}
    (hfailure : d.failure? = some failure) : undone = .error failure := by
  cases h with
  | bare hnone h => exact h.eq_of_failure? hd hfailure
  | stuck hname cause =>
      rw [List.mem_singleton.mp hd, l.failure?_dismissal] at hfailure
      exact eq_error_of_failureOf? hfailure
  | dismissed hname h =>
      rcases List.mem_cons.mp hd with rfl | hd
      · rw [l.failure?_dismissal] at hfailure
        cases hfailure
      · exact h.eq_of_failure? hd hfailure

/-! ### Networks after a failure -/

/-- What is known of a network that is there and not held: it stays there, it is not held later either,
and nobody asks for its removal. -/
structure SparesNetwork (network : String) (initial : Cluster) (past : List Dealing) (l : Lease) :
    Prop where
  present : network ∈ (initial.afterAll past).networks
  unheld : l.network? ≠ some network
  kept : ∀ removed, .removeNetwork network removed ∉ past

namespace SparesNetwork

variable {network : String} {initial : Cluster} {past ds : List Dealing} {l l' : Lease}

theorem start (hpresent : network ∈ initial.networks) (hunheld : l.network? ≠ some network) :
    SparesNetwork network initial [] l :=
  ⟨hpresent, hunheld, fun _ => List.not_mem_nil⟩

/-- Dealings that take down no network. -/
theorem carry (h : SparesNetwork network initial past l) (hnetwork : l'.network? ≠ some network)
    (hpresent : ∀ k : Cluster, network ∈ k.networks → network ∈ (k.afterAll ds).networks)
    (hkept : ∀ removed, .removeNetwork network removed ∉ ds) :
    SparesNetwork network initial (past ++ ds) l' := by
  refine ⟨?_, hnetwork, fun removed hd => ?_⟩
  · rw [Cluster.afterAll_append]
    exact hpresent _ h.present
  · exact (List.mem_append.mp hd).elim (h.kept removed) (hkept removed)

theorem invariant (name network : String) (initial : Cluster) :
    Invariant name initial.Truthful (SparesNetwork network initial) where
  front h := (Cluster.truthful_append.mp h).1
  network h htruthful hspares := by
    cases h with
    | needless hnone => exact hspares.carry hspares.unheld (fun _ h => h) (by simp)
    | present => exact hspares.carry hspares.unheld (fun _ h => h) (by simp)
    | created =>
        -- The engine does not deny the network that is there, so that another one is created.
        rename_i past spec l
        have hsaid : ((!(initial.afterAll past).networks.contains spec.network) && true) = true :=
          (Cluster.truthful_append.mp htruthful).2
        have hnew : spec.network ≠ network := by
          rintro rfl
          simp [hspares.present] at hsaid
        refine hspares.carry (fun h => hnew (Option.some.inj h)) (fun k hk => ?_) (by simp)
        exact List.mem_append_left _ hk
  service hcount h htruthful hspares := by
    cases h with
    | found hfound => exact hspares.carry hspares.unheld (fun _ h => h) (by simp)
    | created hfound hname => exact hspares.carry hspares.unheld (fun _ h => h) (by simp)
  looks hlooks hspares := by
    refine hspares.carry hspares.unheld (fun k hk => ?_) fun removed hd => ?_
    · rwa [Cluster.afterAll_of_isLook hlooks]
    · cases hlooks _ hd
  dismissal hservice hspares := by
    unfold Lease.dismissal
    split
    · exact hspares.carry hspares.unheld (fun _ h => h) (by simp)
    · exact hspares.carry hspares.unheld (fun _ h => h) (by simp)
  removal hnetwork hspares := by
    rename_i past other l
    have hne : network ≠ other := by
      rintro rfl
      exact hspares.unheld hnetwork
    refine hspares.carry (by simp) (fun k hk => ?_) (by simp [hne])
    exact List.mem_filter.mpr ⟨hk, by simpa using hne⟩

end SparesNetwork

/-- A network that was held is still held, or it was removed, or another one took its place. -/
def KeepsNetwork (network : String) (past : List Dealing) (l : Lease) : Prop :=
  l.network? = some network ∨ .removeNetwork network (.ok ()) ∈ past ∨
    ∃ other driver, .createNetwork other driver (.ok ()) ∈ past

namespace KeepsNetwork

variable {network : String} {past ds : List Dealing} {l l' : Lease}

theorem carry (h : KeepsNetwork network past l) (hnetwork : l'.network? = l.network?) :
    KeepsNetwork network (past ++ ds) l' := by
  rcases h with h | h | ⟨other, driver, h⟩
  · exact .inl (hnetwork.trans h)
  · exact .inr (.inl (List.mem_append_left ds h))
  · exact .inr (.inr ⟨other, driver, List.mem_append_left ds h⟩)

theorem invariant (name network : String) :
    Invariant name (fun _ => True) (KeepsNetwork network) where
  front _ := trivial
  network h _ hkeeps := by
    cases h with
    | needless hnone => exact hkeeps.carry rfl
    | present => exact hkeeps.carry rfl
    | created =>
        rename_i spec l _
        exact .inr (.inr ⟨spec.network, spec.networkDriver, by simp⟩)
  service hcount h _ hkeeps := by
    cases h with
    | found hfound => exact hkeeps.carry rfl
    | created hfound hname => exact hkeeps.carry rfl
  looks _ hkeeps := hkeeps.carry rfl
  dismissal _ hkeeps := hkeeps.carry rfl
  removal hnetwork hkeeps := by
    rcases hkeeps with hheld | hkeeps
    · cases hnetwork.symm.trans hheld
      exact .inr (.inl (List.mem_append_right _ List.mem_cons_self))
    · rcases hkeeps with h | ⟨other, driver, h⟩
      · exact .inr (.inl (List.mem_append_left _ h))
      · exact .inr (.inr ⟨other, driver, List.mem_append_left _ h⟩)

end KeepsNetwork

/-! ### Later calls -/

/-- What a spawner holds between undisturbed calls, after failures as well: no service without a live
worker, and with live workers no network without a service. -/
structure Resumes (live : List Handle) (l : Lease) : Prop where
  service : live = [] → l.service? = none
  network : live ≠ [] → l.service? = none → l.network? = none

theorem GivesUp.resumes {l l' : Lease} {ds : List Dealing} (h : GivesUp l ds (.ok ()) l')
    (live : List Handle) : Resumes live l' :=
  ⟨fun _ => h.held_eq_none.1, fun _ _ => h.held_eq_none.2⟩

/-- When workers were acquired and none is live any more, nothing is held. -/
theorem Serves.held_eq_none {name : String} {apart : Bool} {live last given : List Handle}
    {l l' : Lease} {ds : List Dealing} (h : Serves name apart live l ds given last l')
    (hresumes : Resumes live l) (hsome : given ≠ [] ∨ live ≠ [] ∨ l.network? = none)
    (hlast : last = []) : l'.service? = none ∧ l'.network? = none := by
  induction h with
  | nil live l =>
      refine ⟨hresumes.service hlast, ?_⟩
      rcases hsome with hsome | hsome | hsome
      · exact absurd rfl hsome
      · exact absurd hlast hsome
      · exact hsome
  | @acquire live _ _ _ _ _ _ handles _ _ h hrest ih =>
      cases h with
      | nothing => exact ih hresumes hsome hlast
      | ready hhandles hcount h hlooks =>
          have hlive : handles.foldl Ledger.enter live ≠ [] :=
            Ledger.foldl_enter_ne_nil (.inr hhandles)
          refine ih ⟨fun hnone => absurd hnone hlive, fun _ hnone => ?_⟩ (.inr (.inl hlive)) hlast
          rw [h.service?_eq] at hnone
          cases hnone
      | gaveUp hgives => exact ih (hgives.resumes _) (.inr (.inr hgives.held_eq_none.2)) hlast
      | short hcount h hlooks hgives =>
          exact ih (hgives.resumes _) (.inr (.inr hgives.held_eq_none.2)) hlast
  | @release _ kept _ l _ _ _ _ _ _ h hquiet hrest ih =>
      cases h with
      | kept hidle hkept =>
          have hservice : kept = [] → l.service? = none := by
            intro hnone
            rcases hkept with hkept | hkept | hkept
            · exact hresumes.service (hkept ▸ hnone)
            · exact absurd hnone hkept
            · exact hkept
          refine ih ⟨hservice, fun hne => hresumes.network (mt hidle hne)⟩ ?_ hlast
          rcases hsome with hsome | hsome | hsome
          · exact .inl hsome
          · -- The service is held unless live workers are kept, and then the network is not.
            by_cases hnone : kept = []
            · exact .inr (.inr (hresumes.network hsome (hservice hnone)))
            · exact .inr (.inl hnone)
          · exact .inr (.inr hsome)
      | gaveUp hnone hservice hgives =>
          have hresult := (hgives.afterAll_belongings hquiet).2
          subst hresult
          exact ih (hgives.resumes _) (.inr (.inr hgives.held_eq_none.2)) hlast

/-- A service that is there is scaled to nothing in the end by whoever gave workers. -/
theorem SparesService.last_scaling {name : String} {initial : Cluster} {ds : List Dealing}
    {apart : Bool} {live last given : List Handle} {l l' : Lease}
    (hstart : SparesService name initial [] l) (h : Serves name apart live l ds given last l')
    (htruthful : initial.Truthful ds) (hgiven : given ≠ []) (hservice : l'.service? = none) :
    (ds.filterMap Dealing.scaling?).getLast? = some 0 := by
  have hspares := (SparesService.invariant name initial).serves [] h htruthful hstart
  have hscaled := SparesService.scaled_of_serves h htruthful hstart hgiven
  rw [List.nil_append] at hspares hscaled
  have hlast := hspares.idle hservice
  rw [List.getLast?_eq_some_getLast hscaled] at hlast ⊢
  exact congrArg some hlast

namespace Service

open Hosted SumTree.Action

variable {σ : Type} (c : ServiceConfig) (engine : Engine σ) (site : Site σ)

/-- Later calls in the course of which nothing fails and the engine says what is so, after which no
worker is live though some were. -/
def Cycle (p : Provider (Hosted (Observed σ))) (initial : Cluster)
    (w : Logged (Ledger (Hosted (Observed σ)))) (ds : List Dealing) : Prop :=
  ∃ calls results last, p.serve calls w = (results, last) ∧
    last.state.inner.world.dealings = w.state.inner.world.dealings ++ ds ∧
    (∀ d ∈ ds, d.failure? = none) ∧ initial.Truthful ds ∧
    results.flatMap handed ≠ [] ∧ last.state.live = []

/-- What later calls do for a service and for networks when the spawner holds no service, and no network
that it had asked to be removed. -/
theorem Cycle.retires {name : String} (hname : c.serviceName? = some name) {initial : Cluster}
    {w : Logged (Ledger (Hosted (Observed σ)))} {asked ds : List Dealing}
    (h : Cycle (provider c engine.observed site.observed) initial w ds)
    (hlive : w.state.live = []) (hservice : w.state.inner.service? = none)
    (hasked : ∀ network, w.state.inner.network? = some network →
      ∀ removed, .removeNetwork network removed ∉ asked) :
    (name ∈ initial.services → (∀ d ∈ ds, d.removesService = false) ∧
      (ds.filterMap Dealing.scaling?).getLast? = some 0) ∧
    (∀ network failure, .removeNetwork network (.error failure) ∈ asked →
      network ∈ initial.networks → ∀ removed, .removeNetwork network removed ∉ ds) ∧
    (∀ network, w.state.inner.network? = some network → .removeNetwork network (.ok ()) ∈ ds ∨
      ∃ other driver, .createNetwork other driver (.ok ()) ∈ ds) := by
  obtain ⟨calls, results, last, hserve, hdealings, hquiet, htruthful, hgiven, hidle⟩ := h
  obtain ⟨ds', results', last', hserve', hdealings', hserves⟩ :=
    serves_of_serve c engine site hname calls w
  cases hserve.symm.trans hserve'
  have hds : ds' = ds := List.append_cancel_left (hdealings'.symm.trans hdealings)
  subst hds
  have hserved := hserves hquiet
  obtain ⟨hservice', hnetwork'⟩ := hserved.held_eq_none
    ⟨fun _ => hservice, fun hne => absurd hlive hne⟩ (.inl hgiven) hidle
  refine ⟨fun hpresent => ?_, fun network failure hfailed hpresent => ?_, fun network hheld => ?_⟩
  · have hstart := SparesService.start (l := w.state.inner.lease) hpresent hservice
    have hspares := (SparesService.invariant name initial).serves [] hserved htruthful hstart
    rw [List.nil_append] at hspares
    exact ⟨hspares.kept, hstart.last_scaling hserved htruthful hgiven hservice'⟩
  · have hspares := (SparesNetwork.invariant name network initial).serves [] hserved htruthful
      (.start hpresent fun hheld => hasked network hheld _ hfailed)
    rw [List.nil_append] at hspares
    exact hspares.kept
  · have hkeeps := (KeepsNetwork.invariant name network).serves [] hserved trivial (.inl hheld)
    rw [List.nil_append] at hkeeps
    refine hkeeps.resolve_left fun hheld' => ?_
    cases hnetwork'.symm.trans hheld'

/-! ### The last release -/

/-- A failure while what was held is given up is reported for every handle that was taken down, or it
is passed on. -/
theorem verdict_late {turns : List Turn} {failure : Failure}
    (hreleased : turns.flatMap Turn.released ≠ []) :
    ((late (turns.flatMap Turn.released) (.error failure)).bind fun reports =>
      verdict (turns.flatMap Turn.leftovers ++ reports)) =
    if failure.isEngine then .error (.run (.cleanup ⟨turns.flatMap Turn.leftovers ++
      (turns.flatMap Turn.released).map fun h => ⟨h, failure.inFull⟩⟩)) else .error failure := by
  have hkept : kept (.error failure) =
      if failure.isEngine then .ok (some failure) else .error failure := rfl
  unfold late
  rw [hkept]
  by_cases hengine : failure.isEngine = true
  · have hsome : (turns.flatMap Turn.leftovers ++ (turns.flatMap Turn.released).map fun h =>
        (⟨h, failure.inFull⟩ : Leftover)).isEmpty = false := by
      rw [List.isEmpty_eq_false_iff]
      exact List.append_ne_nil_of_right_ne_nil _ (mt List.map_eq_nil_iff.mp hreleased)
    rw [if_pos hengine, if_pos hengine]
    exact if_neg (ne_true_of_eq_false hsome)
  · rw [if_neg hengine, if_neg hengine]
    rfl

/-- A failure of the engine is reported for every handle that was live, and any other failure takes the
place of the report. -/
def Tells (live : List Handle) (failure : Failure) (result : Except Failure Unit) : Prop :=
  (failure.isEngine = true → ∃ leftovers, result = .error (.run (.cleanup ⟨leftovers⟩)) ∧
    ∀ h ∈ live, ∃ x ∈ leftovers, x.handle.token = h.token ∧ x.reason = failure.inFull) ∧
  (failure.isEngine = false → result = .error failure)

/-- The last release does nothing if no service is held. Otherwise what is held is given up, and what
failed is told. -/
theorem perform_release_last {handles : List Handle} {w after : Logged (Ledger (Hosted (Observed σ)))}
    {result : Except Failure Unit}
    (hrelease : ((provider c engine.observed site.observed).release handles).perform w =
      (result, after))
    (hlive : w.state.live ≠ []) (hlast : after.state.live = []) :
    ∃ ds, after.state.inner.world.dealings = w.state.inner.world.dealings ++ ds ∧
      (w.state.inner.service? = none ∧ ds = [] ∧ after.state.inner.lease = w.state.inner.lease ∨
        ∃ service undone, w.state.inner.service? = some service ∧
          GivesUp w.state.inner.lease ds undone after.state.inner.lease ∧
          ∀ failure, undone = .error failure → Tells w.state.live failure result) := by
  obtain ⟨turns, ds, late, l, after', -, hwalk, hdealings, hlease, -, hsome, hperform⟩ :=
    perform_release_turns c engine site handles w
  cases hrelease.symm.trans hperform
  have hreleased : turns.flatMap Turn.released ≠ [] := by
    intro hnone
    exact hlive ((hwalk.live_eq hnone).symm.trans hlast)
  refine ⟨ds, hdealings, ?_⟩
  cases hsome hreleased with
  | kept hkept => exact .inl ⟨hkept.resolve_left fun hkept => hkept hlast, rfl, hlease⟩
  | gaveUp hnone hservice hgives =>
      obtain ⟨service, hservice⟩ := Option.isSome_iff_exists.mp hservice
      refine .inr ⟨service, _, hservice, hlease ▸ hgives, ?_⟩
      rintro failure rfl
      rw [verdict_late hreleased]
      refine ⟨fun hengine => ⟨_, if_pos hengine, fun h hh => ?_⟩,
        fun hengine => if_neg (ne_true_of_eq_false hengine)⟩
      -- No handle is live any more, so that all that were live were taken down.
      rcases hwalk.mem_or_released hh with hmem | ⟨h', hh', htoken⟩
      · rw [hlast] at hmem
        cases hmem
      · exact ⟨⟨h', failure.inFull⟩, List.mem_append_right _ (List.mem_map_of_mem hh'), htoken, rfl⟩

/-- The last workers are released, whatever fails then. If a service is held it is dismissed first of
all, and no service is held afterwards. A network that is held is asked to be removed exactly when the
service could be dismissed, and otherwise it is still held. A failure is told. In the course of a later
cycle a service that is still there is never removed but scaled to nothing at last, a network whose
removal failed is never asked for again while it is there, and a network that is still held is removed,
unless another one was created. -/
theorem retires_on_last_release {name : String} (hname : c.serviceName? = some name)
    (handles : List Handle) {w after : Logged (Ledger (Hosted (Observed σ)))}
    {result : Except Failure Unit}
    (hrelease : ((provider c engine.observed site.observed).release handles).perform w =
      (result, after))
    (hlive : w.state.live ≠ []) (hlast : after.state.live = []) :
    ((provider c engine site).release handles).perform
        (w.map (Ledger.through (Hosted.through Observed.inner))) =
      (result, after.map (Ledger.through (Hosted.through Observed.inner))) ∧
    ∃ ds, after.state.inner.world.dealings = w.state.inner.world.dealings ++ ds ∧
      (∀ service, w.state.inner.service? = some service →
        ∃ dismissed rest, ds = w.state.inner.lease.dismissal service dismissed :: rest) ∧
      (∀ network, w.state.inner.network? = some network →
        ((∃ removed, .removeNetwork network removed ∈ ds) ↔ ∃ service,
          w.state.inner.service? = some service ∧
            w.state.inner.lease.dismissal service (.ok ()) ∈ ds)) ∧
      after.state.inner.service? = none ∧
      (∀ network, after.state.inner.network? = some network ↔
        w.state.inner.network? = some network ∧ ∀ removed, .removeNetwork network removed ∉ ds) ∧
      (∀ d ∈ ds, ∀ failure, d.failure? = some failure → Tells w.state.live failure result) ∧
      ∀ initial later, Cycle (provider c engine.observed site.observed) initial after later →
        (name ∈ initial.services → (∀ d ∈ later, d.removesService = false) ∧
          (later.filterMap Dealing.scaling?).getLast? = some 0) ∧
        (∀ network failure, .removeNetwork network (.error failure) ∈ ds →
          network ∈ initial.networks → ∀ removed, .removeNetwork network removed ∉ later) ∧
        (∀ network, after.state.inner.network? = some network →
          .removeNetwork network (.ok ()) ∈ later ∨
            ∃ other driver, .createNetwork other driver (.ok ()) ∈ later) := by
  have hplain := (seen_observed engine site c).release handles w
  rw [hrelease] at hplain
  obtain ⟨ds, hdealings, ⟨hnone, rfl, hlease⟩ | ⟨service, undone, hheld, hgives, htells⟩⟩ :=
    perform_release_last c engine site hrelease hlive hlast
  · -- Without a service there is nothing to do, and what is held stays.
    have hservice : after.state.inner.service? = none := (congrArg Lease.service? hlease).trans hnone
    have hnetwork : after.state.inner.network? = w.state.inner.network? :=
      congrArg Lease.network? hlease
    refine ⟨hplain, [], hdealings, fun service hheld => ?_, fun network _ => ?_, hservice,
      fun network => ?_, fun d hd => absurd hd List.not_mem_nil, fun initial later hcycle =>
        hcycle.retires c engine site hname hlast hservice fun _ _ _ => List.not_mem_nil⟩
    · cases hnone.symm.trans hheld
    · simp
    · simp [hnetwork]
  · obtain ⟨dismissed, rest, hds, hservice, -⟩ := hgives.of_held hheld
    have hstill := hgives.network?_eq_some_iff hheld
    refine ⟨hplain, ds, hdealings, fun service' hheld' => ?_, fun network hnetwork => ?_, hservice,
      hstill, fun d hd failure hfailure => htells failure (hgives.eq_of_failure? hd hfailure),
      fun initial later hcycle => hcycle.retires c engine site hname hlast hservice
        fun network hnetwork => ((hstill network).mp hnetwork).2⟩
    · cases hheld.symm.trans hheld'
      exact ⟨dismissed, rest, hds⟩
    · rw [hgives.removal_iff hheld hnetwork]
      simp [hheld]

end Service

namespace Sample

/-- A failure of the engine to take something down. -/
def gone : Failure :=
  .outside ⟨.engine, "APIError", "gone wrong"⟩

/-- An engine that does what it is asked for, but never gets a service removed. -/
def grudging : Engine Host :=
  { obliging none with removeService := fun _ => Action.fail gone }

/-- A spawner of the replicas of the service with that engine. -/
def begrudged : Provider (Hosted (Observed Host)) :=
  Service.provider (hostingAt 4000) grudging.observed reaching

/-- What there is after the first worker was released. -/
def stranded : Hosted (Observed Host) :=
  ⟨none, true, some "svc", ⟨⟨⟨["svc"], ["svc"]⟩, 1⟩,
    running.inner.world.dealings ++ [.removeService "svc" (.error gone)]⟩⟩

end Sample

theorem perform_release_begrudged (journal : List LogRecord) : ∃ journal',
    (Sample.begrudged.release [Sample.replica]).perform ⟨Sample.running, journal⟩ =
      (.error (.run (.cleanup ⟨[⟨Sample.replica, "APIError: gone wrong"⟩]⟩)),
        ⟨⟨[], Sample.stranded⟩, journal'⟩) :=
  ⟨_, rfl⟩

/-- Another worker is acquired and released, which asks for all that is needed to find the service, and
then for both to be taken down. -/
theorem cycle_begrudged (journal : List LogRecord) :
    Service.Cycle Sample.begrudged ⟨["svc"], ["svc"]⟩ ⟨⟨[], Sample.stranded⟩, journal⟩
      (Sample.finding ++ [.scaleService "svc" 0 (.ok ()), .removeNetwork "svc" (.ok ())]) := by
  obtain ⟨journal', hacquire⟩ := perform_acquire_present (fun _ => Action.fail Sample.gone) [] none
    (some "svc") true Sample.stranded.world.dealings journal
  obtain ⟨after, hrelease, hdealings, hlive⟩ : ∃ after,
      (Sample.begrudged.release [Sample.second]).perform
        ⟨⟨[Sample.second], ⟨some "svc", false, some "svc",
          ⟨⟨⟨["svc"], ["svc"]⟩, 2⟩, Sample.stranded.world.dealings ++ Sample.finding⟩⟩⟩, journal'⟩ =
        (.ok (), after) ∧
      after.state.inner.world.dealings = (Sample.stranded.world.dealings ++ Sample.finding) ++
        [.scaleService "svc" 0 (.ok ()), .removeNetwork "svc" (.ok ())] ∧
      after.state.live = [] := ⟨_, rfl, rfl, rfl⟩
  refine ⟨[.acquire 1, .release [Sample.second]], _, after, Provider.serve_cons _ hacquire
    (Provider.serve_cons _ (Provider.perform_answer_release _ hrelease) rfl), ?_, ?_, rfl, ?_, hlive⟩
  · rw [hdealings, List.append_assoc]
  · simp [Sample.finding, Dealing.failure?, failureOf?]
  · exact List.cons_ne_nil _ _

/-- The service cannot be removed, and so the network is not removed either. This is reported, and the
network is removed in the course of the next cycle, while the service is only scaled to nothing. -/
theorem Service.retires_on_last_release_begrudged : ∃ journal,
    (Sample.begrudged.release [Sample.replica]).perform ⟨Sample.running, []⟩ =
      (.error (.run (.cleanup ⟨[⟨Sample.replica, "APIError: gone wrong"⟩]⟩)),
        ⟨⟨[], Sample.stranded⟩, journal⟩) ∧
    Service.Cycle Sample.begrudged ⟨["svc"], ["svc"]⟩ ⟨⟨[], Sample.stranded⟩, journal⟩
      (Sample.finding ++ [.scaleService "svc" 0 (.ok ()), .removeNetwork "svc" (.ok ())]) ∧
    (∀ d ∈ Sample.finding ++ [.scaleService "svc" 0 (.ok ()), .removeNetwork "svc" (.ok ())],
      d.removesService = false) := by
  obtain ⟨journal, hrelease⟩ := perform_release_begrudged []
  have hcycle := cycle_begrudged journal
  obtain ⟨-, ds, -, -, -, -, -, -, hlater⟩ := Service.retires_on_last_release
    (Sample.hostingAt 4000) Sample.grudging (Sample.numbered fun _ _ _ => return ()) rfl
    [Sample.replica] hrelease (List.cons_ne_nil _ _) rfl
  obtain ⟨hpresent, -, -⟩ := hlater _ _ hcycle
  exact ⟨journal, hrelease, hcycle, (hpresent List.mem_cons_self).1⟩

/-- After the first acquisition the spawner holds a service and a network that it created. The removal
of the service fails: the removal of the network is not attempted, and the service, which is still
there, is held no more. -/
theorem Service.network_not_attempted : ∃ after leftovers,
    (Sample.begrudged.release [Sample.replica]).perform ⟨Sample.running, []⟩ =
      (.error (.run (.cleanup leftovers)), after) ∧
    Sample.running.inner.created = true ∧ Sample.running.inner.network? = some "svc" ∧
    after.state.live = [] ∧
    after.state.inner.world.dealings = Sample.running.inner.world.dealings ++
      [.removeService "svc" (.error Sample.gone)] ∧
    (∀ removed, .removeNetwork "svc" removed ∉ after.state.inner.world.dealings) ∧
    after.state.inner.service? = none ∧
    after.state.inner.world.inner.cluster = ⟨["svc"], ["svc"]⟩ := by
  obtain ⟨journal, hrelease⟩ := perform_release_begrudged []
  refine ⟨_, _, hrelease, rfl, rfl, rfl, rfl, fun removed => ?_, rfl, rfl⟩
  simp [Sample.stranded, Sample.running, Sample.opened, Sample.opening]

end SumTree
