import SumTree.Proofs.Spawner.Breakdown
import SumTree.Proofs.Spawner.Undisturbed

/-!
# Ownership of services and networks

A spawner remembers one service, whether it created it, and one network that it created, and each
acquisition overwrites this. As long as no worker was live when workers were acquired, all that the
spawner created is removed with its last worker. When acquisitions overlap, the second one finds the
service that the first one created; from then on it passes for one that was there before, and it is
scaled to nothing but never removed (`Service.accounts_for_cluster`).

The argument is one induction over undisturbed calls (`Invariant.serves`), for facts that each of the
few elementary steps carries on: looking for the network, looking for the service, looking at workers,
dismissing the service, and removing the network.

## Main Definitions

* `Invariant` — a fact that every elementary step carries on.
* `TracksServices`, `TracksNetworks` — what was created and is not removed, and what is held.
* `SparesService` — what becomes of a service that was there before.
-/

namespace SumTree

/-- A fact about the dealings so far and the lease that every elementary step carries on, provided that
the dealings are `truthful`. -/
structure Invariant (name : String) (truthful : List Dealing → Prop)
    (holds : List Dealing → Lease → Prop) : Prop where
  front : ∀ {past ds : List Dealing}, truthful (past ++ ds) → truthful past
  network : ∀ {past ds : List Dealing} {spec : ServiceSpec} {l l' : Lease},
    NetworkStep spec l ds (.ok ()) l' → truthful (past ++ ds) → holds past l → holds (past ++ ds) l'
  service : ∀ {past ds : List Dealing} {count : Nat} {l l' : Lease}, 0 < count →
    ServiceStep name count l ds (.ok ()) l' → truthful (past ++ ds) → holds past l →
      holds (past ++ ds) l'
  looks : ∀ {past ds : List Dealing} {l : Lease}, (∀ d ∈ ds, d.isLook = true) → holds past l →
    holds (past ++ ds) l
  dismissal : ∀ {past : List Dealing} {service : String} {l : Lease}, l.service? = some service →
    holds past l → holds (past ++ [l.dismissal service (.ok ())]) { l with service? := none }
  removal : ∀ {past : List Dealing} {network : String} {l : Lease}, l.network? = some network →
    holds past l → holds (past ++ [.removeNetwork network (.ok ())]) { l with network? := none }

namespace Invariant

variable {name : String} {truthful : List Dealing → Prop} {holds : List Dealing → Lease → Prop}
  {past ds : List Dealing} {l l' : Lease} (hinv : Invariant name truthful holds)

include hinv

theorem drops {result : Except Failure Unit} (h : DropsNetwork l ds result l')
    (hresult : result = .ok ()) (hpast : holds past l) : holds (past ++ ds) l' := by
  cases h with
  | none hnone =>
      rw [List.append_nil]
      exact hpast
  | asked hnetwork result =>
      subst hresult
      exact hinv.removal hnetwork hpast

theorem gives (h : GivesUp l ds (.ok ()) l') (hpast : holds past l) : holds (past ++ ds) l' := by
  cases h with
  | bare hnone h => exact hinv.drops h rfl hpast
  | dismissed hname h =>
      rw [← List.singleton_append, ← List.append_assoc]
      exact hinv.drops h rfl (hinv.dismissal hname hpast)

theorem deploys {count : Nat} (hcount : 0 < count) (h : Deploys name count l ds (.ok ()) l')
    (htruthful : truthful (past ++ ds)) (hpast : holds past l) : holds (past ++ ds) l' := by
  cases h with
  | went h h' =>
      rw [← List.append_assoc] at htruthful ⊢
      exact hinv.service hcount h' htruthful (hinv.network h (hinv.front htruthful) hpast)

theorem lends {handles : List Handle} (h : Lends name l ds handles l')
    (htruthful : truthful (past ++ ds)) (hpast : holds past l) : holds (past ++ ds) l' := by
  cases h with
  | nothing =>
      rw [List.append_nil]
      exact hpast
  | ready hhandles hcount h hlooks =>
      rw [← List.append_assoc] at htruthful ⊢
      exact hinv.looks hlooks (hinv.deploys hcount h (hinv.front htruthful) hpast)
  | gaveUp hgives => exact hinv.gives hgives hpast
  | short hcount h hlooks hgives =>
      rw [← List.append_assoc, ← List.append_assoc] at htruthful ⊢
      have hdeployed := hinv.deploys hcount h (hinv.front (hinv.front htruthful)) hpast
      exact hinv.gives hgives (hinv.looks hlooks hdeployed)

theorem releases {live kept : List Handle} (h : Service.Releases live kept l ds l')
    (hquiet : ∀ d ∈ ds, d.failure? = none) (hpast : holds past l) : holds (past ++ ds) l' := by
  cases h with
  | kept hidle hkept =>
      rw [List.append_nil]
      exact hpast
  | gaveUp hnone hservice hgives =>
      have hresult := (hgives.afterAll_belongings hquiet).2
      subst hresult
      exact hinv.gives hgives hpast

/-- What every elementary step carries on, undisturbed calls carry on. -/
theorem serves (past : List Dealing) {apart : Bool} {live last given : List Handle}
    (h : Serves name apart live l ds given last l') (htruthful : truthful (past ++ ds))
    (hpast : holds past l) : holds (past ++ ds) l' := by
  induction h generalizing past with
  | nil live l =>
      rw [List.append_nil]
      exact hpast
  | acquire h hrest ih =>
      rw [← List.append_assoc] at htruthful ⊢
      exact ih _ htruthful (hinv.lends h (hinv.front htruthful) hpast)
  | release h hquiet hrest ih =>
      rw [← List.append_assoc] at htruthful ⊢
      exact ih _ htruthful (hinv.releases h hquiet hpast)

end Invariant

/-! ### What is created and what is held -/

/-- What is known of the services that were created. As long as every service that was found was none of
them, they belong to the lease; once one of them was found, it is there for good. -/
structure TracksServices (name : String) (past : List Dealing) (l : Lease) : Prop where
  named : ∀ service, l.service? = some service → service = name
  kept : Cluster.empty.throughout Dealing.findsOthers past = true →
    (Cluster.made past).services = l.belongings.services
  lost : Cluster.empty.throughout Dealing.findsOthers past = false →
    name ∈ (Cluster.made past).services ∧ l.created = false

/-- What is known of the networks that were created. As long as each was the only one when it was
created, they belong to the lease; once there were two of them, one is there for good. -/
structure TracksNetworks (past : List Dealing) (l : Lease) : Prop where
  kept : Cluster.empty.throughout Dealing.createsFirst past = true →
    (Cluster.made past).networks = l.belongings.networks
  lost : Cluster.empty.throughout Dealing.createsFirst past = false →
    ∃ network ∈ (Cluster.made past).networks, l.network? ≠ some network

/-- Whether the engine said what is so, starting from a cluster. -/
def Cluster.Truthful (initial : Cluster) (ds : List Dealing) : Prop :=
  initial.throughout Dealing.isTrue ds = true

theorem Cluster.truthful_append {initial : Cluster} {past ds : List Dealing} :
    initial.Truthful (past ++ ds) ↔
      initial.Truthful past ∧ (initial.afterAll past).Truthful ds := by
  simp [Cluster.Truthful, Cluster.throughout_append]

theorem Cluster.made_within (initial : Cluster) (past : List Dealing) :
    (Cluster.made past).Within (initial.afterAll past) :=
  (Cluster.within_empty initial).afterAll past

/-- Whoever looks, or takes something down, finds no services and creates no networks. -/
theorem Dealing.fits_of_isLook_or_takesDown {d : Dealing}
    (h : d.isLook = true ∨ d.takesDown = true) (k : Cluster) :
    d.findsOthers k = true ∧ d.createsFirst k = true := by
  cases d <;> first | exact ⟨rfl, rfl⟩ | (rcases h with h | h <;> cases h)

namespace TracksServices

variable {name : String} {past ds : List Dealing} {l l' : Lease}

theorem start (name : String) : TracksServices name [] .none := by
  refine ⟨?_, fun _ => rfl, ?_⟩
  · rintro service ⟨⟩
  · rintro ⟨⟩

/-- Dealings that have nothing to do with services. -/
theorem carry (h : TracksServices name past l) (hservice : l'.service? = l.service?)
    (hcreated : l'.created = l.created)
    (hmade : ∀ k : Cluster, (k.afterAll ds).services = k.services)
    (hothers : ∀ k : Cluster, k.throughout Dealing.findsOthers ds = true) :
    TracksServices name (past ++ ds) l' := by
  have hbelongings : l'.belongings.services = l.belongings.services := by
    simp [Lease.belongings, hservice, hcreated]
  constructor
  · rw [hservice]
    exact h.named
  · rw [Cluster.throughout_append, hothers, Bool.and_true, Cluster.made_append, hmade, hbelongings]
    exact h.kept
  · rw [Cluster.throughout_append, hothers, Bool.and_true, Cluster.made_append, hmade, hcreated]
    exact h.lost

/-- All services that were created and belong to the lease have the one name. -/
theorem eq_nil_of_notMem (h : TracksServices name past l)
    (hothers : Cluster.empty.throughout Dealing.findsOthers past = true)
    (hname : name ∉ (Cluster.made past).services) : (Cluster.made past).services = [] := by
  have hkept := h.kept hothers
  rw [hkept] at hname ⊢
  unfold Lease.belongings at hname ⊢
  dsimp only at hname ⊢
  split
  case isFalse => rfl
  case isTrue hcreated =>
      rw [if_pos hcreated] at hname
      cases hservice : l.service? with
      | none => rfl
      | some service =>
          rw [hservice, h.named service hservice] at hname
          exact absurd (List.mem_singleton_self name) hname

/-- A service that is found passes for one that was there before. -/
theorem found (h : TracksServices name past l) {names : List String} (hfound : name ∈ names)
    {count : Nat} :
    TracksServices name
      (past ++ [.findServices name (.ok names), .scaleService name count (.ok ())])
      { l with service? := some name, created := false } := by
  have hmade : (Cluster.made (past ++ [.findServices name (.ok names),
      .scaleService name count (.ok ())])).services = (Cluster.made past).services := by
    rw [Cluster.made_append]
    rfl
  have hothers : Cluster.empty.throughout Dealing.findsOthers (past ++
      [.findServices name (.ok names), .scaleService name count (.ok ())]) =
      (Cluster.empty.throughout Dealing.findsOthers past &&
        !(Cluster.made past).services.contains name) := by
    rw [Cluster.throughout_append]
    show (_ && (!(names.contains name && (Cluster.made past).services.contains name) && true)) = _
    simp [hfound]
  constructor
  · rintro service ⟨⟩
    rfl
  · rw [hothers, hmade]
    intro hnone
    obtain ⟨hpast, hnew⟩ := Bool.and_eq_true_iff.mp hnone
    exact h.eq_nil_of_notMem hpast (by simpa using hnew)
  · rw [hothers, hmade]
    intro hsome
    -- Either a service was lost before, or the one that is found now is lost by it.
    refine ⟨?_, rfl⟩
    cases hpast : Cluster.empty.throughout Dealing.findsOthers past with
    | false => exact (h.lost hpast).1
    | true =>
        rw [hpast] at hsome
        simpa using hsome

/-- A service is created only where the engine finds none, so that nothing was lost before. -/
theorem created (h : TracksServices name past l) {initial : Cluster} {names : List String}
    (hfound : name ∉ names) {d : Deployment} (hname : d.name = name)
    (htruthful : initial.Truthful
      (past ++ [.findServices name (.ok names), .createService d (.ok ())])) :
    TracksServices name (past ++ [.findServices name (.ok names), .createService d (.ok ())])
      { l with service? := some name, created := true } := by
  have hnone : name ∉ (Cluster.made past).services := by
    have htrue := (Cluster.truthful_append.mp htruthful).2
    have hsaid : ((names.contains name == (initial.afterAll past).services.contains name) &&
        true) = true := htrue
    intro hmem
    have hmem' := (initial.made_within past).services name hmem
    simp [hfound, hmem'] at hsaid
  have hmade : (Cluster.made (past ++ [.findServices name (.ok names),
      .createService d (.ok ())])).services = (Cluster.made past).services ++ [name] := by
    rw [Cluster.made_append, ← hname]
    rfl
  have hothers : Cluster.empty.throughout Dealing.findsOthers (past ++
      [.findServices name (.ok names), .createService d (.ok ())]) =
      Cluster.empty.throughout Dealing.findsOthers past := by
    rw [Cluster.throughout_append]
    show (_ && (!(names.contains name && (Cluster.made past).services.contains name) && true)) = _
    simp [hfound]
  constructor
  · rintro service ⟨⟩
    rfl
  · rw [hothers, hmade]
    intro hpast
    rw [h.eq_nil_of_notMem hpast hnone]
    rfl
  · rw [hothers]
    intro hpast
    exact absurd (h.lost hpast).1 hnone

theorem dismissal (h : TracksServices name past l) {service : String}
    (hservice : l.service? = some service) :
    TracksServices name (past ++ [l.dismissal service (.ok ())])
      { l with service? := none } := by
  have hothers : Cluster.empty.throughout Dealing.findsOthers
      (past ++ [l.dismissal service (.ok ())]) =
      Cluster.empty.throughout Dealing.findsOthers past := by
    rw [Cluster.throughout_append]
    unfold Lease.dismissal
    split
    · exact Bool.and_true _
    · exact Bool.and_true _
  constructor
  · rintro service ⟨⟩
  · rw [hothers, Cluster.made_append]
    intro hpast
    have hkept := h.kept hpast
    cases hcreated : l.created with
    | true =>
        have hservices : (Cluster.made past).services = [service] := by
          simpa [Lease.belongings, hcreated, hservice] using hkept
        simp [Lease.dismissal, Lease.belongings, Cluster.after, hcreated, hservices]
    | false =>
        simpa [Lease.dismissal, Lease.belongings, Cluster.after, hcreated] using hkept
  · rw [hothers, Cluster.made_append]
    intro hpast
    obtain ⟨hmem, hcreated⟩ := h.lost hpast
    refine ⟨?_, hcreated⟩
    simpa [Lease.dismissal, Cluster.after, hcreated] using hmem

theorem invariant (name : String) (initial : Cluster) :
    Invariant name initial.Truthful (TracksServices name) where
  front h := (Cluster.truthful_append.mp h).1
  network h _ htracks := by
    obtain ⟨hservice, hcreated⟩ := h.service?_eq
    refine htracks.carry hservice hcreated ?_ ?_
    · intro k
      cases h with
      | needless hnone => rfl
      | present => rfl
      | created => rfl
    · intro k
      cases h with
      | needless hnone => rfl
      | present => rfl
      | created => rfl
  service hcount h htruthful htracks := by
    cases h with
    | found hfound => exact htracks.found hfound
    | created hfound hname => exact htracks.created hfound hname htruthful
  looks hlooks htracks := by
    refine htracks.carry rfl rfl (fun k => ?_) (Cluster.throughout_of_forall fun d hd k =>
      (d.fits_of_isLook_or_takesDown (.inl (hlooks d hd)) k).1)
    rw [Cluster.afterAll_of_isLook hlooks]
  dismissal hservice htracks := htracks.dismissal hservice
  removal hnetwork htracks := htracks.carry rfl rfl (fun _ => rfl) fun _ => rfl

end TracksServices

namespace TracksNetworks

variable {past ds : List Dealing} {l l' : Lease}

theorem start : TracksNetworks [] .none := by
  refine ⟨fun _ => rfl, ?_⟩
  rintro ⟨⟩

/-- Dealings that have nothing to do with networks. -/
theorem carry (h : TracksNetworks past l) (hnetwork : l'.network? = l.network?)
    (hmade : ∀ k : Cluster, (k.afterAll ds).networks = k.networks)
    (hfirst : ∀ k : Cluster, k.throughout Dealing.createsFirst ds = true) :
    TracksNetworks (past ++ ds) l' := by
  have hbelongings : l'.belongings.networks = l.belongings.networks := by
    simp [Lease.belongings, hnetwork]
  constructor
  · rw [Cluster.throughout_append, hfirst, Bool.and_true, Cluster.made_append, hmade, hbelongings]
    exact h.kept
  · rw [Cluster.throughout_append, hfirst, Bool.and_true, Cluster.made_append, hmade, hnetwork]
    exact h.lost

/-- A network is created only where the engine denies it, so that no network is created twice. -/
theorem created (h : TracksNetworks past l) {initial : Cluster} {network driver : String}
    (htruthful : initial.Truthful
      (past ++ [.hasNetwork network (.ok false), .createNetwork network driver (.ok ())])) :
    TracksNetworks
      (past ++ [.hasNetwork network (.ok false), .createNetwork network driver (.ok ())])
      { l with network? := some network } := by
  have hnew : network ∉ (Cluster.made past).networks := by
    have htrue := (Cluster.truthful_append.mp htruthful).2
    have hsaid : ((!(initial.afterAll past).networks.contains network) && true) = true := htrue
    intro hmem
    have hmem' := (initial.made_within past).networks network hmem
    simp [hmem'] at hsaid
  have hmade : (Cluster.made (past ++ [.hasNetwork network (.ok false),
      .createNetwork network driver (.ok ())])).networks =
        (Cluster.made past).networks ++ [network] := by
    rw [Cluster.made_append]
    rfl
  have hfirst : Cluster.empty.throughout Dealing.createsFirst (past ++
      [.hasNetwork network (.ok false), .createNetwork network driver (.ok ())]) =
      (Cluster.empty.throughout Dealing.createsFirst past &&
        (Cluster.made past).networks.isEmpty) := by
    rw [Cluster.throughout_append]
    show (_ && ((Cluster.made past).networks.isEmpty && true)) = _
    rw [Bool.and_true]
  constructor
  · rw [hfirst, hmade]
    intro hnone
    rw [List.isEmpty_iff.mp (Bool.and_eq_true_iff.mp hnone).2]
    rfl
  · rw [hfirst, hmade]
    intro hsome
    -- Some network that was created before is forgotten now.
    obtain ⟨other, hother⟩ : ∃ other, other ∈ (Cluster.made past).networks := by
      cases hpast : Cluster.empty.throughout Dealing.createsFirst past with
      | false =>
          obtain ⟨other, hother, -⟩ := h.lost hpast
          exact ⟨other, hother⟩
      | true =>
          rw [hpast] at hsome
          exact List.exists_mem_of_ne_nil _ (by simpa using hsome)
    refine ⟨other, List.mem_append_left _ hother, ?_⟩
    rintro ⟨⟩
    exact hnew hother

theorem removal (h : TracksNetworks past l) {network : String} (hnetwork : l.network? = some network) :
    TracksNetworks (past ++ [.removeNetwork network (.ok ())]) { l with network? := none } := by
  have hfirst : Cluster.empty.throughout Dealing.createsFirst
      (past ++ [.removeNetwork network (.ok ())]) =
      Cluster.empty.throughout Dealing.createsFirst past := by
    rw [Cluster.throughout_append]
    exact Bool.and_true _
  constructor
  · rw [hfirst, Cluster.made_append]
    intro hpast
    have hnetworks : (Cluster.made past).networks = [network] := by
      simpa [Lease.belongings, hnetwork] using h.kept hpast
    simp [Lease.belongings, Cluster.after, hnetworks]
  · rw [hfirst, Cluster.made_append]
    intro hpast
    obtain ⟨other, hother, hne⟩ := h.lost hpast
    rw [hnetwork] at hne
    refine ⟨other, ?_, by simp⟩
    have hother' : other ≠ network := fun heq => hne (congrArg some heq.symm)
    simp [Cluster.after, hother, hother']

theorem invariant (name : String) (initial : Cluster) :
    Invariant name initial.Truthful TracksNetworks where
  front h := (Cluster.truthful_append.mp h).1
  network h htruthful htracks := by
    cases h with
    | needless hnone => exact htracks.carry rfl (fun _ => rfl) fun _ => rfl
    | present => exact htracks.carry rfl (fun _ => rfl) fun _ => rfl
    | created => exact htracks.created htruthful
  service hcount h _ htracks := by
    cases h with
    | found hfound => exact htracks.carry rfl (fun _ => rfl) fun _ => rfl
    | created hfound hname => exact htracks.carry rfl (fun _ => rfl) fun _ => rfl
  looks hlooks htracks := by
    refine htracks.carry rfl (fun k => ?_) (Cluster.throughout_of_forall fun d hd k =>
      (d.fits_of_isLook_or_takesDown (.inl (hlooks d hd)) k).2)
    rw [Cluster.afterAll_of_isLook hlooks]
  dismissal hservice htracks := by
    rename_i past service l
    have hdismissal : ∀ k : Cluster, (k.afterAll [l.dismissal service (.ok ())]).networks =
        k.networks ∧ k.throughout Dealing.createsFirst [l.dismissal service (.ok ())] = true := by
      intro k
      unfold Lease.dismissal
      split
      · exact ⟨rfl, rfl⟩
      · exact ⟨rfl, rfl⟩
    exact htracks.carry rfl (fun k => (hdismissal k).1) fun k => (hdismissal k).2
  removal hnetwork htracks := htracks.removal hnetwork

end TracksNetworks

/-! ### A service that was there before -/

/-- What is known of a service that was there before: it is there, it counts as found when it is held,
it was never removed, and whenever it is not held it was scaled to nothing at last, if at all. -/
structure SparesService (name : String) (initial : Cluster) (past : List Dealing) (l : Lease) :
    Prop where
  present : name ∈ (initial.afterAll past).services
  found : l.service?.isSome = true → l.created = false
  kept : ∀ d ∈ past, d.removesService = false
  idle : l.service? = none → (past.filterMap Dealing.scaling?).getLast?.getD 0 = 0
  scaled : l.service?.isSome = true → past.filterMap Dealing.scaling? ≠ []

namespace SparesService

variable {name : String} {initial : Cluster} {past ds : List Dealing} {l l' : Lease}

theorem start (hpresent : name ∈ initial.services) (hservice : l.service? = none) :
    SparesService name initial [] l := by
  have hheld : ¬ l.service?.isSome = true := by simp [hservice]
  exact ⟨hpresent, fun h => absurd h hheld, fun d hd => absurd hd List.not_mem_nil, fun _ => rfl,
    fun h => absurd h hheld⟩

/-- Dealings that have nothing to do with services. -/
theorem carry (h : SparesService name initial past l) (hservice : l'.service? = l.service?)
    (hcreated : l'.created = l.created)
    (hservices : ∀ k : Cluster, (k.afterAll ds).services = k.services)
    (hkept : ∀ d ∈ ds, d.removesService = false ∧ d.scaling? = none) :
    SparesService name initial (past ++ ds) l' := by
  have hscaling : (past ++ ds).filterMap Dealing.scaling? = past.filterMap Dealing.scaling? := by
    rw [List.filterMap_append, List.filterMap_eq_nil_iff.mpr fun d hd => (hkept d hd).2,
      List.append_nil]
  constructor
  · rw [Cluster.afterAll_append, hservices]
    exact h.present
  · rw [hservice, hcreated]
    exact h.found
  · intro d hd
    exact (List.mem_append.mp hd).elim (h.kept d) fun hd => (hkept d hd).1
  · rw [hscaling, hservice]
    exact h.idle
  · rw [hscaling, hservice]
    exact h.scaled

theorem invariant (name : String) (initial : Cluster) :
    Invariant name initial.Truthful (SparesService name initial) where
  front h := (Cluster.truthful_append.mp h).1
  network h _ hspares := by
    obtain ⟨hservice, hcreated⟩ := h.service?_eq
    refine hspares.carry hservice hcreated (fun k => ?_) ?_
    · cases h with
      | needless hnone => rfl
      | present => rfl
      | created => rfl
    · cases h with
      | needless hnone => simp
      | present => simp [Dealing.removesService, Dealing.scaling?]
      | created => simp [Dealing.removesService, Dealing.scaling?]
  service hcount h htruthful hspares := by
    cases h with
    | found hfound =>
        constructor
        · rw [Cluster.afterAll_append]
          exact hspares.present
        · exact fun _ => rfl
        · intro d hd
          rcases List.mem_append.mp hd with hd | hd
          · exact hspares.kept d hd
          · rcases List.mem_pair.mp hd with rfl | rfl
            · rfl
            · rfl
        · rintro ⟨⟩
        · intro _
          simp [Dealing.scaling?]
    | created hfound hname =>
        -- The engine finds the service, so that none is created.
        rename_i names d
        have hsaid : ((names.contains name ==
            (initial.afterAll _).services.contains name) && true) = true :=
          (Cluster.truthful_append.mp htruthful).2
        simp [hfound, hspares.present] at hsaid
  looks hlooks hspares := by
    refine hspares.carry rfl rfl (fun k => ?_) fun d hd => ?_
    · rw [Cluster.afterAll_of_isLook hlooks]
    · have hlook := hlooks d hd
      cases d <;> first | exact ⟨rfl, rfl⟩ | cases hlook
  dismissal hservice hspares := by
    rw [Lease.dismissal, hspares.found (Option.isSome_of_eq_some hservice)]
    constructor
    · rw [Cluster.afterAll_append]
      exact hspares.present
    · rintro ⟨⟩
    · intro d hd
      rcases List.mem_append.mp hd with hd | hd
      · exact hspares.kept d hd
      · rw [List.mem_singleton.mp hd]
        rfl
    · intro _
      simp [Dealing.scaling?]
    · rintro ⟨⟩
  removal hnetwork hspares :=
    hspares.carry rfl rfl (fun _ => rfl) (by simp [Dealing.removesService, Dealing.scaling?])

/-- A spawner that gave workers scaled the service. -/
theorem scaled_of_serves {apart : Bool} {live last given : List Handle}
    (h : Serves name apart live l ds given last l') (htruthful : initial.Truthful (past ++ ds))
    (hpast : SparesService name initial past l) (hgiven : given ≠ []) :
    (past ++ ds).filterMap Dealing.scaling? ≠ [] := by
  have hinv := invariant name initial
  induction h generalizing past with
  | nil live l => exact absurd rfl hgiven
  | acquire h hrest ih =>
      rename_i live last l between after ds ds' handles given apart
      rw [← List.append_assoc] at htruthful ⊢
      have hlent := hinv.lends h (hinv.front htruthful) hpast
      by_cases hhandles : handles = []
      · refine ih htruthful hlent ?_
        rwa [hhandles, List.nil_append] at hgiven
      · rw [List.filterMap_append]
        exact List.append_ne_nil_of_left_ne_nil (hlent.scaled (h.isSome_service? hhandles)) _
  | release h hquiet hrest ih =>
      rw [← List.append_assoc] at htruthful ⊢
      exact ih htruthful (hinv.releases h hquiet hpast) hgiven

end SparesService

/-! ### Between calls -/

/-- What a spawner holds between undisturbed calls: no network without a service, and no service
without a live worker. -/
structure Rests (live : List Handle) (l : Lease) : Prop where
  network : l.service? = none → l.network? = none
  service : live = [] → l.service? = none

theorem Ledger.foldl_enter_ne_nil {handles live : List Handle} (h : live ≠ [] ∨ handles ≠ []) :
    handles.foldl Ledger.enter live ≠ [] := by
  have henter : ∀ (live : List Handle) (h : Handle), Ledger.enter live h ≠ [] := by
    intro live h hnone
    unfold Ledger.enter at hnone
    split at hnone
    case isTrue hany =>
        rw [List.map_eq_nil_iff.mp hnone] at hany
        cases hany
    case isFalse => exact List.append_ne_nil_of_right_ne_nil _ (List.cons_ne_nil _ _) hnone
  induction handles generalizing live with
  | nil => exact h.resolve_right (fun h => h rfl)
  | cons handle rest ih => exact ih (.inl (henter live handle))

namespace Rests

variable {name : String} {live kept last handles given : List Handle} {l l' : Lease}
  {ds : List Dealing}

theorem start : Rests [] .none :=
  ⟨fun _ => rfl, fun _ => rfl⟩

theorem lends (hrests : Rests live l) (h : Lends name l ds handles l') :
    Rests (handles.foldl Ledger.enter live) l' := by
  have hgave : ∀ {l l' : Lease} {ds : List Dealing}, GivesUp l ds (.ok ()) l' →
      Rests live l' := by
    intro l l' ds hgives
    obtain ⟨hservice, hnetwork⟩ := hgives.held_eq_none
    exact ⟨fun _ => hnetwork, fun _ => hservice⟩
  cases h with
  | nothing => exact hrests
  | ready hhandles hcount h hlooks =>
      have hservice := h.service?_eq
      constructor
      · intro hnone
        rw [hservice] at hnone
        cases hnone
      · intro hnone
        exact absurd hnone (Ledger.foldl_enter_ne_nil (.inr hhandles))
  | gaveUp hgives => exact hgave hgives
  | short hcount h hlooks hgives => exact hgave hgives

theorem releases (hrests : Rests live l) (h : Service.Releases live kept l ds l')
    (hquiet : ∀ d ∈ ds, d.failure? = none) : Rests kept l' := by
  cases h with
  | kept hidle hkept =>
      refine ⟨hrests.network, fun hnone => ?_⟩
      rcases hkept with rfl | hkept | hkept
      · exact hrests.service hnone
      · exact absurd hnone hkept
      · exact hkept
  | gaveUp hnone hservice hgives =>
      have hresult := (hgives.afterAll_belongings hquiet).2
      subst hresult
      obtain ⟨hservice, hnetwork⟩ := hgives.held_eq_none
      exact ⟨fun _ => hnetwork, fun _ => hservice⟩

theorem serves {apart : Bool} (h : Serves name apart live l ds given last l')
    (hrests : Rests live l) : Rests last l' := by
  induction h with
  | nil live l => exact hrests
  | acquire h hrest ih => exact ih (hrests.lends h)
  | release h hquiet hrest ih => exact ih (hrests.releases h hquiet)

end Rests

/-! ### Acquisitions that are apart -/

/-- No service is found that was created before, and each network that is created is the only one. -/
def Cluster.Fits (k : Cluster) (ds : List Dealing) : Prop :=
  k.throughout Dealing.findsOthers ds = true ∧ k.throughout Dealing.createsFirst ds = true

namespace Cluster

theorem fits_append {k : Cluster} {ds ds' : List Dealing} :
    k.Fits (ds ++ ds') ↔ k.Fits ds ∧ (k.afterAll ds).Fits ds' := by
  simp only [Fits, throughout_append, Bool.and_eq_true]
  exact ⟨fun ⟨⟨h₁, h₂⟩, h₃, h₄⟩ => ⟨⟨h₁, h₃⟩, h₂, h₄⟩, fun ⟨⟨h₁, h₃⟩, h₂, h₄⟩ => ⟨⟨h₁, h₂⟩, h₃, h₄⟩⟩

theorem fits_of_forall {ds : List Dealing} (h : ∀ d ∈ ds, d.isLook = true ∨ d.takesDown = true)
    (k : Cluster) : k.Fits ds :=
  ⟨throughout_of_forall (fun d hd k => (d.fits_of_isLook_or_takesDown (h d hd) k).1) k,
    throughout_of_forall (fun d hd k => (d.fits_of_isLook_or_takesDown (h d hd) k).2) k⟩

end Cluster

theorem NetworkStep.fits_empty {spec : ServiceSpec} {l l' : Lease} {ds : List Dealing}
    (h : NetworkStep spec l ds (.ok ()) l') :
    Cluster.empty.Fits ds ∧ (Cluster.empty.afterAll ds).services = [] := by
  cases h with
  | needless hnone => exact ⟨⟨rfl, rfl⟩, rfl⟩
  | present => exact ⟨⟨rfl, rfl⟩, rfl⟩
  | created => exact ⟨⟨rfl, rfl⟩, rfl⟩

theorem Deploys.fits_empty {name : String} {count : Nat} {l l' : Lease} {ds : List Dealing}
    (h : Deploys name count l ds (.ok ()) l') : Cluster.empty.Fits ds := by
  cases h with
  | went h h' =>
      obtain ⟨hfits, hservices⟩ := h.fits_empty
      refine Cluster.fits_append.mpr ⟨hfits, ?_⟩
      cases h' with
      | found hfound =>
          simp [Cluster.Fits, Cluster.throughout, Dealing.findsOthers, Dealing.createsFirst, hservices]
      | created hfound hname =>
          simp [Cluster.Fits, Cluster.throughout, Dealing.findsOthers, Dealing.createsFirst, hservices]

/-- Where there is nothing, an acquisition finds no service that was created before, and its network
is the only one. -/
theorem Lends.fits_empty {name : String} {l l' : Lease} {ds : List Dealing} {handles : List Handle}
    (h : Lends name l ds handles l') : Cluster.empty.Fits ds := by
  cases h with
  | nothing => exact ⟨rfl, rfl⟩
  | ready hhandles hcount h hlooks =>
      exact Cluster.fits_append.mpr
        ⟨h.fits_empty, Cluster.fits_of_forall (fun d hd => .inl (hlooks d hd)) _⟩
  | gaveUp hgives => exact Cluster.fits_of_forall (fun d hd => .inr (hgives.takesDown d hd)) _
  | short hcount h hlooks hgives =>
      refine Cluster.fits_append.mpr ⟨Cluster.fits_append.mpr ⟨h.fits_empty, ?_⟩, ?_⟩
      · exact Cluster.fits_of_forall (fun d hd => .inl (hlooks d hd)) _
      · exact Cluster.fits_of_forall (fun d hd => .inr (hgives.takesDown d hd)) _

theorem Service.Releases.fits {live kept : List Handle} {l l' : Lease} {ds : List Dealing}
    (h : Service.Releases live kept l ds l') (k : Cluster) : k.Fits ds := by
  cases h with
  | kept hidle hkept => exact ⟨rfl, rfl⟩
  | gaveUp hnone hservice hgives =>
      exact Cluster.fits_of_forall (fun d hd => .inr (hgives.takesDown d hd)) k

/-- Where nothing is held and nothing was lost, nothing of what was created is left. -/
theorem made_eq_empty {name : String} {past : List Dealing} {live : List Handle} {l : Lease}
    (hservices : TracksServices name past l) (hnetworks : TracksNetworks past l)
    (hfits : Cluster.empty.Fits past) (hrests : Rests live l) (hidle : live = []) :
    Cluster.made past = .empty := by
  have hservice := hrests.service hidle
  have hnone : l.belongings = .empty := by
    simp [Lease.belongings, Cluster.empty, hservice, hrests.network hservice]
  have hservices := hservices.kept hfits.1
  have hnetworks := hnetworks.kept hfits.2
  rw [hnone] at hservices hnetworks
  cases hmade : Cluster.made past with
  | mk services networks =>
      rw [hmade] at hservices hnetworks
      exact congrArg₂ Cluster.mk hservices hnetworks

/-- When no worker is live whenever workers are acquired, nothing is lost. -/
theorem Serves.fits {name : String} {initial : Cluster} {apart : Bool}
    {live last given : List Handle} {past ds : List Dealing} {l l' : Lease}
    (h : Serves name apart live l ds given last l') (hapart : apart = true)
    (htruthful : initial.Truthful (past ++ ds)) (hservices : TracksServices name past l)
    (hnetworks : TracksNetworks past l) (hrests : Rests live l) (hfits : Cluster.empty.Fits past) :
    Cluster.empty.Fits (past ++ ds) := by
  have hinvS := TracksServices.invariant name initial
  have hinvN := TracksNetworks.invariant name initial
  induction h generalizing past with
  | nil live l =>
      rw [List.append_nil]
      exact hfits
  | acquire h hrest ih =>
      rw [Bool.and_eq_true, List.isEmpty_iff] at hapart
      rw [← List.append_assoc] at htruthful ⊢
      have hfront := hinvS.front htruthful
      -- No worker is live, so that all that was created is gone and this is as at the start.
      have hnothing := made_eq_empty hservices hnetworks hfits hrests hapart.1
      refine ih hapart.2 htruthful (hinvS.lends h hfront hservices) (hinvN.lends h hfront hnetworks)
        (hrests.lends h) (Cluster.fits_append.mpr ⟨hfits, ?_⟩)
      show (Cluster.made _).Fits _
      rw [hnothing]
      exact h.fits_empty
  | release h hquiet hrest ih =>
      rw [← List.append_assoc] at htruthful ⊢
      exact ih hapart htruthful (hinvS.releases h hquiet hservices)
        (hinvN.releases h hquiet hnetworks) (hrests.releases h hquiet)
        (Cluster.fits_append.mpr ⟨hfits, h.fits _⟩)

namespace Service

open Hosted SumTree.Action

variable {σ : Type} (c : ServiceConfig) (engine : Engine σ) (site : Site σ)

/-- What a spawner of services leaves of the cluster when no worker is live, after any calls in the
course of which nothing that it asked for failed and the engine said what is so. All services that it
created are removed exactly when it never found one of them, and all networks that it created exactly
when each was the only one then; so it is when no worker was live whenever workers were acquired. A
service that was there before is never removed, and if it ever gave workers it was scaled to nothing
at last. -/
theorem accounts_for_cluster {name : String} (hname : c.serviceName? = some name) (world : σ)
    (journal : List LogRecord) (calls : List Call) (initial : Cluster)
    {results : List (Except Failure (List Handle))} {w : Logged (Ledger (Hosted (Observed σ)))}
    (hserve : (provider c engine.observed site.observed).serve calls
      ⟨⟨[], start ⟨world, []⟩⟩, journal⟩ = (results, w))
    (hquiet : ∀ d ∈ w.state.inner.world.dealings, d.failure? = none)
    (htruthful : initial.Truthful w.state.inner.world.dealings)
    (hidle : w.state.live = []) :
    (provider c engine site).serve calls ⟨⟨[], start world⟩, journal⟩ =
      (results, w.map (Ledger.through (Hosted.through Observed.inner))) ∧
    ((Cluster.made w.state.inner.world.dealings).services = [] ↔
      Cluster.empty.throughout Dealing.findsOthers w.state.inner.world.dealings = true) ∧
    ((Cluster.made w.state.inner.world.dealings).networks = [] ↔
      Cluster.empty.throughout Dealing.createsFirst w.state.inner.world.dealings = true) ∧
    ((provider c engine.observed site.observed).apart calls
        ⟨⟨[], start ⟨world, []⟩⟩, journal⟩ = true →
      Cluster.made w.state.inner.world.dealings = .empty) ∧
    (name ∈ initial.services →
      (∀ d ∈ w.state.inner.world.dealings, d.removesService = false) ∧
      (results.flatMap handed ≠ [] →
        (w.state.inner.world.dealings.filterMap Dealing.scaling?).getLast? = some 0)) := by
  have hplain := (seen_observed engine site c).serve calls ⟨⟨[], start ⟨world, []⟩⟩, journal⟩
  rw [hserve] at hplain
  obtain ⟨ds, results', w', hserve', hdealings, hserves⟩ :=
    serves_of_serve c engine site hname calls ⟨⟨[], start ⟨world, []⟩⟩, journal⟩
  cases hserve.symm.trans hserve'
  have hds : w.state.inner.world.dealings = ds := hdealings
  rw [hds] at hquiet htruthful ⊢
  have hserved := hserves hquiet
  have hservices := (TracksServices.invariant name initial).serves [] hserved htruthful
    (.start name)
  have hnetworks := (TracksNetworks.invariant name initial).serves [] hserved htruthful .start
  have hrests := Rests.serves hserved .start
  rw [List.nil_append] at hservices hnetworks
  -- Nothing is held any more, so that what was not lost is removed.
  have hservice := hrests.service hidle
  have hnetwork := hrests.network hservice
  refine ⟨hplain, ⟨fun hnone => ?_, fun hfits => ?_⟩, ⟨fun hnone => ?_, fun hfits => ?_⟩, ?_, ?_⟩
  · cases hfits : Cluster.empty.throughout Dealing.findsOthers ds with
    | true => rfl
    | false =>
        have hlost := (hservices.lost hfits).1
        rw [hnone] at hlost
        cases hlost
  · rw [hservices.kept hfits]
    simp [Lease.belongings, hservice]
  · cases hfits : Cluster.empty.throughout Dealing.createsFirst ds with
    | true => rfl
    | false =>
        obtain ⟨network, hlost, -⟩ := hnetworks.lost hfits
        rw [hnone] at hlost
        cases hlost
  · rw [hnetworks.kept hfits]
    simp [Lease.belongings, hnetwork]
  · intro hapart
    have hfits := hserved.fits hapart htruthful (.start name) .start .start ⟨rfl, rfl⟩
    exact made_eq_empty hservices hnetworks hfits hrests hidle
  · intro hpresent
    have hstart := SparesService.start (l := .none) hpresent rfl
    have hspares := (SparesService.invariant name initial).serves [] hserved htruthful hstart
    rw [List.nil_append] at hspares
    refine ⟨hspares.kept, fun hgave => ?_⟩
    have hscaled := SparesService.scaled_of_serves hserved htruthful hstart hgave
    have hlast := hspares.idle hservice
    rw [List.nil_append] at hscaled
    rw [List.getLast?_eq_some_getLast hscaled] at hlast ⊢
    exact congrArg some hlast

end Service

/-- One worker is acquired and released, and nothing is left. -/
theorem Service.accounts_for_cluster_apart : ∃ results w,
    (Sample.troubled none).serve [.acquire 1, .release [Sample.replica]] Sample.fresh = (results, w) ∧
    results.flatMap handed = [Sample.replica] ∧ w.state.live = [] ∧
    Cluster.made w.state.inner.world.dealings = .empty := by
  obtain ⟨journal, hacquire⟩ := perform_acquire_opening none
  obtain ⟨after, hrelease, hdealings, hlive⟩ : ∃ after,
      ((Sample.troubled none).release [Sample.replica]).perform ⟨Sample.running, journal⟩ =
        (.ok (), after) ∧
      after.state.inner.world.dealings = Sample.running.inner.world.dealings ++
        [.removeService "svc" (.ok ()), .removeNetwork "svc" (.ok ())] ∧
      after.state.live = [] := ⟨_, rfl, rfl, rfl⟩
  have hserve : (Sample.troubled none).serve [.acquire 1, .release [Sample.replica]] Sample.fresh =
      ([.ok [Sample.replica], .ok []], after) :=
    Provider.serve_cons _ hacquire (Provider.serve_cons _
      (Provider.perform_answer_release _ hrelease) rfl)
  have hquiet : ∀ d ∈ after.state.inner.world.dealings, d.failure? = none := by
    rw [hdealings]
    simp [Sample.running, Sample.opened, Sample.opening, Dealing.failure?, failureOf?]
  have htruthful : Cluster.empty.Truthful after.state.inner.world.dealings := by
    rw [hdealings]
    rfl
  have hapart : (Sample.troubled none).apart [.acquire 1, .release [Sample.replica]] Sample.fresh =
      true := rfl
  obtain ⟨-, -, -, hnothing, -⟩ := Service.accounts_for_cluster (Sample.hostingAt 4000)
    (Sample.obliging none) (Sample.numbered fun _ _ _ => return ()) rfl ⟨.empty, 0⟩ [] _ .empty hserve
    hquiet htruthful hlive
  exact ⟨_, _, hserve, rfl, hlive, hnothing hapart⟩

namespace Sample

/-- What there is after another acquisition, for which the service is found. -/
def found (ds : List Dealing) : Hosted (Observed Host) :=
  ⟨some "svc", false, some "svc", ⟨⟨⟨["svc"], ["svc"]⟩, 2⟩, running.inner.world.dealings ++ ds⟩⟩

/-- What another acquisition asks for. -/
def finding : List Dealing :=
  [.hasNetwork "svc" (.ok true), .findServices "svc" (.ok ["svc"]), .scaleService "svc" 1 (.ok ()),
    .refreshService "svc" (.ok ()), .tasks "svc" (.ok [some "running"]),
    .awaitReady "http://node:4000" (.ok ())]

/-- The worker of another acquisition. -/
def second : Handle :=
  ⟨"http://node:4000", .service, .text "svc:1:0", 0⟩

end Sample

/-- Where the service and its network are, an acquisition finds them, whatever is held and however
services are removed. -/
theorem perform_acquire_present (removeService : String → Action Sample.Host Unit)
    (live : List Handle) (service? network? : Option String) (created : Bool) (ds : List Dealing)
    (journal : List LogRecord) : ∃ journal',
    ((Service.provider (Sample.hostingAt 4000)
        { Sample.obliging none with removeService := removeService }.observed
        Sample.reaching).acquire 1).perform
      ⟨⟨live, ⟨service?, created, network?, ⟨⟨⟨["svc"], ["svc"]⟩, 1⟩, ds⟩⟩⟩, journal⟩ =
      (.ok [Sample.second], ⟨⟨Ledger.enter live Sample.second,
        ⟨some "svc", false, network?, ⟨⟨⟨["svc"], ["svc"]⟩, 2⟩, ds ++ Sample.finding⟩⟩⟩,
          journal'⟩) := by
  let engine := { Sample.obliging none with removeService := removeService }.observed
  let spec : ServiceSpec := ⟨"svc", "image", [], [⟨4000, 4000⟩], "svc", "overlay"⟩
  let found (ds : List Dealing) : Hosted (Observed Sample.Host) :=
    ⟨some "svc", false, network?, ⟨⟨⟨["svc"], ["svc"]⟩, 2⟩, ds⟩⟩
  let before : Hosted (Observed Sample.Host) :=
    ⟨service?, created, network?, ⟨⟨⟨["svc"], ["svc"]⟩, 1⟩, ds⟩⟩
  let state : Hosted (Observed Sample.Host) :=
    ⟨service?, created, network?, ⟨⟨⟨["svc"], ["svc"]⟩, 2⟩, ds⟩⟩
  let marked := (Service.provider (Sample.hostingAt 4000) engine Sample.reaching).announced 1
    ⟨⟨live, before⟩, journal⟩
  have hmark : (Service.onWorld Sample.reaching.runTag).perform marked =
      (.ok "1", ⟨state, marked.journal⟩) := rfl
  have hdefine : (Service.definition (Sample.hostingAt 4000) Sample.reaching "svc").perform
      ⟨state, marked.journal⟩ = (.ok spec, ⟨state, marked.journal⟩) := rfl
  -- The dealings are noted one by one behind those before.
  let deployed := ((ds ++ [.hasNetwork "svc" (.ok true)]) ++ [.findServices "svc" (.ok ["svc"])]) ++
    [.scaleService "svc" 1 (.ok ())]
  let checked := (deployed ++ [.refreshService "svc" (.ok ())]) ++ [.tasks "svc" (.ok [some "running"])]
  have hfinding : checked ++ [.awaitReady "http://node:4000" (.ok ())] = ds ++ Sample.finding := by
    simp [checked, deployed, Sample.finding]
  obtain ⟨journal', hdeploy⟩ : ∃ journal',
      (Service.deploy engine spec [Sample.second].length).perform ⟨state, marked.journal⟩ =
        (.ok (), ⟨found deployed, journal'⟩) := ⟨_, rfl⟩
  have hcheck : (Service.checkReplicas engine "svc" [Sample.second].length).perform
      ⟨found deployed, journal'⟩ = (.ok (), ⟨found checked, journal'⟩) := rfl
  have hready : (Service.onWorld (Sample.reaching.awaitAll
      (.real Sample.hosting.readinessTimeout) (.real Sample.hosting.readinessInterval)
      [Sample.second])).perform ⟨found checked, journal'⟩ =
        (.ok (), ⟨found (checked ++ [.awaitReady "http://node:4000" (.ok ())]), journal'⟩) := rfl
  rw [hfinding] at hready
  have hbring := (Service.perform_bringUp_of_check (c := Sample.hostingAt 4000) rfl hdefine hdeploy
    hcheck).trans hready
  have hworkers : [Sample.second] = Service.workers (Sample.hostingAt 4000) "1" := rfl
  rw [hworkers] at hbring
  exact ⟨journal', Service.perform_acquire_of_bringUp 1 (c := Sample.hostingAt 4000) (by decide) rfl
    hmark hbring⟩

theorem perform_acquire_finding (journal : List LogRecord) : ∃ journal',
    ((Sample.troubled none).acquire 1).perform ⟨Sample.running, journal⟩ =
      (.ok [Sample.second],
        ⟨⟨[Sample.replica, Sample.second], Sample.found Sample.finding⟩, journal'⟩) :=
  perform_acquire_present (Sample.obliging none).removeService [Sample.replica] (some "svc")
    (some "svc") true Sample.running.inner.world.dealings journal

/-- Two workers are acquired one after the other and released together. Nothing fails and the engine
says what is so, and still the service that the spawner created is scaled to nothing and never
removed. -/
theorem Service.service_never_removed : ∃ results w,
    (Sample.troubled none).serve
        [.acquire 1, .acquire 1, .release [Sample.replica, Sample.second]] Sample.fresh =
      (results, w) ∧
    results.flatMap handed = [Sample.replica, Sample.second] ∧
    (∀ d ∈ w.state.inner.world.dealings, d.failure? = none) ∧
    Cluster.empty.Truthful w.state.inner.world.dealings ∧
    w.state.live = [] ∧
    (w.state.inner.world.dealings.filterMap Dealing.scaling?).getLast? = some 0 ∧
    Cluster.made w.state.inner.world.dealings = ⟨["svc"], []⟩ ∧
    w.state.inner.world.inner.cluster = ⟨["svc"], []⟩ := by
  obtain ⟨journal, hfirst⟩ := perform_acquire_opening none
  obtain ⟨journal', hsecond⟩ := perform_acquire_finding journal
  obtain ⟨after, hrelease, hdealings, hlive, hcluster⟩ : ∃ after,
      ((Sample.troubled none).release [Sample.replica, Sample.second]).perform
        ⟨⟨[Sample.replica, Sample.second], Sample.found Sample.finding⟩, journal'⟩ =
          (.ok (), after) ∧
      after.state.inner.world.dealings = (Sample.found Sample.finding).world.dealings ++
        [.scaleService "svc" 0 (.ok ()), .removeNetwork "svc" (.ok ())] ∧
      after.state.live = [] ∧ after.state.inner.world.inner.cluster = ⟨["svc"], []⟩ :=
    ⟨_, rfl, rfl, rfl, rfl⟩
  refine ⟨_, after, Provider.serve_cons _ hfirst (Provider.serve_cons _ hsecond
    (Provider.serve_cons _ (Provider.perform_answer_release _ hrelease) rfl)), rfl, ?_, ?_, hlive, ?_,
    ?_, hcluster⟩
  · rw [hdealings]
    simp [Sample.found, Sample.finding, Sample.running, Sample.opened, Sample.opening,
      Dealing.failure?, failureOf?]
  · rw [hdealings]
    rfl
  · rw [hdealings]
    rfl
  · rw [hdealings]
    rfl

end SumTree
