import SumTree.Proofs.Spawner.Deployment

/-!
# Effects of deploying and giving up

What follows from the ways in which a service can be brought up and given up. Bringing it up takes
nothing away from workers (`BringsUp.takesDown`), and giving it up does nothing else
(`GivesUp.takesDown`). A spawner that held nothing holds exactly what it created
(`BringsUp.made_eq`), and when it can give that up nothing is left of it
(`GivesUp.afterAll_belongings`).

## Main Definitions

* `Lease.belongings` — what the holder of a lease created.
-/

namespace SumTree

/-! ### What is taken down -/

theorem NetworkStep.takesDown {spec : ServiceSpec} {l l' : Lease} {ds : List Dealing}
    {result : Except Failure Unit} (h : NetworkStep spec l ds result l') :
    ∀ d ∈ ds, d.takesDown = false := by
  cases h with
  | needless hnone => simp
  | unknown failure => simp [Dealing.takesDown]
  | present => simp [Dealing.takesDown]
  | refused failure => simp [Dealing.takesDown]
  | created => simp [Dealing.takesDown]

theorem ServiceStep.takesDown {name : String} {count : Nat} {l l' : Lease} {ds : List Dealing}
    {result : Except Failure Unit} (h : ServiceStep name count l ds result l') (hcount : 0 < count) :
    ∀ d ∈ ds, d.takesDown = false := by
  cases h with
  | unknown failure => simp [Dealing.takesDown]
  | found hfound result => simp [Dealing.takesDown, Nat.ne_of_gt hcount]
  | refused hfound hname failure => simp [Dealing.takesDown]
  | created hfound hname => simp [Dealing.takesDown]

theorem Looks.takesDown {ds : List Dealing} {result : Except Failure Unit} (h : Looks ds result) :
    ∀ d ∈ ds, d.takesDown = false := by
  intro d hd
  have hlook := h.looks d hd
  cases d <;> first | rfl | cases hlook

theorem Deploys.takesDown {name : String} {count : Nat} {l l' : Lease} {ds : List Dealing}
    {result : Except Failure Unit} (h : Deploys name count l ds result l') (hcount : 0 < count) :
    ∀ d ∈ ds, d.takesDown = false := by
  cases h with
  | stopped h => exact h.takesDown
  | went h h' =>
      intro d hd
      exact (List.mem_append.mp hd).elim (h.takesDown d) (h'.takesDown hcount d)

/-- Bringing a service up takes nothing away from workers. -/
theorem BringsUp.takesDown {name? : Option String} {count : Nat} {l l' : Lease} {ds : List Dealing}
    {result : Except Failure Unit} (h : BringsUp name? count l ds result l') (hcount : 0 < count) :
    ∀ d ∈ ds, d.takesDown = false := by
  cases h with
  | undefined failure => simp
  | stopped hname h => exact h.takesDown hcount
  | awaited hname h hlooks =>
      intro d hd
      exact (List.mem_append.mp hd).elim (h.takesDown hcount d) (hlooks.takesDown d)
  | static hname hlooks => exact hlooks.takesDown

theorem Lease.takesDown_dismissal (l : Lease) (name : String) (result : Except Failure Unit) :
    (l.dismissal name result).takesDown = true := by
  unfold Lease.dismissal
  split
  · rfl
  · rfl

theorem DropsNetwork.takesDown {l l' : Lease} {ds : List Dealing} {result : Except Failure Unit}
    (h : DropsNetwork l ds result l') : ∀ d ∈ ds, d.takesDown = true := by
  cases h with
  | none hnone => simp
  | asked hnetwork result => simp [Dealing.takesDown]

/-- Whatever is done to give up what is held takes it away. -/
theorem GivesUp.takesDown {l l' : Lease} {ds : List Dealing} {result : Except Failure Unit}
    (h : GivesUp l ds result l') : ∀ d ∈ ds, d.takesDown = true := by
  cases h with
  | bare hnone h => exact h.takesDown
  | stuck hname failure =>
      exact List.forall_mem_singleton.mpr (l.takesDown_dismissal _ _)
  | dismissed hname h =>
      exact List.forall_mem_cons.mpr ⟨l.takesDown_dismissal _ _, h.takesDown⟩

theorem GivesUp.findServices_notMem {l l' : Lease} {ds : List Dealing} {result : Except Failure Unit}
    (h : GivesUp l ds result l') {name : String} {answer : Except Failure (List String)} :
    .findServices name answer ∉ ds :=
  fun hmem => nomatch h.takesDown _ hmem

/-- Something is asked for exactly when something is held. -/
theorem GivesUp.exists_mem_iff {l l' : Lease} {ds : List Dealing} {result : Except Failure Unit}
    (h : GivesUp l ds result l') :
    (∃ d, d ∈ ds) ↔ l.service?.isSome = true ∨ l.network?.isSome = true := by
  cases h with
  | bare hnone h =>
      cases h with
      | none hnetwork => simp [hnone, hnetwork]
      | asked hnetwork result => simp [hnetwork]
  | stuck hname failure => simp [hname]
  | dismissed hname h => simp [hname]

/-- The service that is held is dismissed before anything else. -/
theorem GivesUp.exists_dismissal {l l' : Lease} {ds : List Dealing} {result : Except Failure Unit}
    (h : GivesUp l ds result l') {name : String} (hname : l.service? = some name) :
    ∃ answer, l.dismissal name answer ∈ ds := by
  cases h with
  | bare hnone h => simp [hnone] at hname
  | stuck hname' failure =>
      cases hname.symm.trans hname'
      exact ⟨_, List.mem_cons_self⟩
  | dismissed hname' h =>
      cases hname.symm.trans hname'
      exact ⟨_, List.mem_cons_self⟩

theorem exists_takesDown_append {ds ds' : List Dealing} (hnone : ∀ d ∈ ds, d.takesDown = false)
    (hall : ∀ d ∈ ds', d.takesDown = true) :
    (∃ d ∈ ds ++ ds', d.takesDown = true) ↔ ∃ d, d ∈ ds' := by
  constructor
  · rintro ⟨d, hd, htakes⟩
    rcases List.mem_append.mp hd with hd | hd
    · rw [hnone d hd] at htakes
      cases htakes
    · exact ⟨d, hd⟩
  · rintro ⟨d, hd⟩
    exact ⟨d, List.mem_append_right _ hd, hall d hd⟩

/-! ### What is held in between -/

theorem NetworkStep.service?_eq {spec : ServiceSpec} {l l' : Lease} {ds : List Dealing}
    {result : Except Failure Unit} (h : NetworkStep spec l ds result l') :
    l'.service? = l.service? ∧ l'.created = l.created := by
  cases h with
  | created => exact ⟨rfl, rfl⟩
  | needless hnone => exact ⟨rfl, rfl⟩
  | unknown failure => exact ⟨rfl, rfl⟩
  | present => exact ⟨rfl, rfl⟩
  | refused failure => exact ⟨rfl, rfl⟩

theorem Deploys.service?_or {name : String} {count : Nat} {l l' : Lease} {ds : List Dealing}
    {result : Except Failure Unit} (h : Deploys name count l ds result l') :
    l'.service? = l.service? ∨ l'.service? = some name := by
  cases h with
  | stopped h => exact .inl h.service?_eq.1
  | went h h' =>
      rw [← h.service?_eq.1]
      cases h' with
      | unknown failure => exact .inl rfl
      | found hfound result => exact .inr rfl
      | refused hfound hname failure => exact .inl rfl
      | created hfound hname => exact .inr rfl

/-- While a service is brought up the one that was held before stays held. -/
theorem BringsUp.service?_eq {name? : Option String} {count : Nat} {l l' : Lease} {ds : List Dealing}
    {result : Except Failure Unit} (h : BringsUp name? count l ds result l') :
    l'.service? = l.service? ∨ l'.service? = name? := by
  cases h with
  | undefined failure => exact .inl rfl
  | stopped hname h => exact hname ▸ h.service?_or
  | awaited hname h hlooks => exact hname ▸ h.service?_or
  | static hname hlooks => exact .inl rfl

/-! ### What is created -/

/-- The lease that a spawner has at first. -/
def Lease.none : Lease :=
  ⟨Option.none, false, Option.none⟩

/-- What of the cluster belongs to the holder of a lease: what it created. -/
def Lease.belongings (l : Lease) : Cluster :=
  ⟨if l.created then l.service?.toList else [], l.network?.toList⟩

theorem NetworkStep.made_eq {spec : ServiceSpec} {l : Lease} {ds : List Dealing}
    {result : Except Failure Unit} (h : NetworkStep spec .none ds result l) :
    Cluster.made ds = l.belongings := by
  cases h with
  | needless hnone => rfl
  | unknown failure => rfl
  | present => rfl
  | refused failure => rfl
  | created => rfl

theorem Deploys.made_eq {name : String} {count : Nat} {l : Lease} {ds : List Dealing}
    {result : Except Failure Unit} (h : Deploys name count .none ds result l) :
    Cluster.made ds = l.belongings := by
  cases h with
  | stopped h => exact h.made_eq
  | went h h' =>
      obtain ⟨hservice, hcreated⟩ := h.service?_eq
      rw [Cluster.made_append, h.made_eq]
      cases h' with
      | unknown failure => rfl
      | found hfound result => simp [Lease.belongings, Cluster.after, hcreated, Lease.none]
      | refused hfound hname failure => rfl
      | created hfound hname =>
          simp [Lease.belongings, Cluster.after, hcreated, Lease.none, hname]

/-- A spawner that held nothing holds what it created while it brought the service up. -/
theorem BringsUp.made_eq {name? : Option String} {count : Nat} {l : Lease} {ds : List Dealing}
    {result : Except Failure Unit} (h : BringsUp name? count .none ds result l) :
    Cluster.made ds = l.belongings := by
  cases h with
  | undefined failure => rfl
  | stopped hname h => exact h.made_eq
  | awaited hname h hlooks =>
      rw [Cluster.made_append, Cluster.afterAll_of_isLook hlooks.looks]
      exact h.made_eq
  | static hname hlooks => exact Cluster.afterAll_of_isLook hlooks.looks .empty

/-- Without a service there is nothing to create. -/
theorem BringsUp.made_of_static {count : Nat} {l l' : Lease} {ds : List Dealing}
    {result : Except Failure Unit} (h : BringsUp Option.none count l ds result l') :
    Cluster.made ds = .empty := by
  cases h with
  | undefined failure => rfl
  | stopped hname h => cases hname
  | awaited hname h hlooks => cases hname
  | static hname hlooks => exact Cluster.afterAll_of_isLook hlooks.looks .empty

theorem eq_ok_of_failureOf? {result : Except Failure Unit}
    (h : failureOf? result = Option.none) : result = .ok () := by
  cases result with
  | ok u => rfl
  | error failure => cases h

theorem eq_error_of_failureOf? {result : Except Failure Unit} {failure : Failure}
    (h : failureOf? result = some failure) : result = .error failure := by
  cases result with
  | ok u => cases h
  | error cause =>
      cases h
      rfl

theorem Lease.after_dismissal {l : Lease} {name : String} (hname : l.service? = some name) :
    l.belongings.after (l.dismissal name (.ok ())) =
      ({ l with service? := Option.none } : Lease).belongings := by
  cases hcreated : l.created with
  | true => simp [Lease.belongings, Lease.dismissal, Cluster.after, hcreated, hname]
  | false => simp [Lease.belongings, Lease.dismissal, Cluster.after, hcreated]

theorem Lease.failure?_dismissal (l : Lease) (name : String) (result : Except Failure Unit) :
    (l.dismissal name result).failure? = failureOf? result := by
  unfold Lease.dismissal
  split
  · rfl
  · rfl

theorem DropsNetwork.afterAll_belongings {l l' : Lease} {ds : List Dealing}
    {result : Except Failure Unit} (h : DropsNetwork l ds result l')
    (hdone : ∀ d ∈ ds, d.failure? = Option.none) (hservice : l.service? = Option.none) :
    l.belongings.afterAll ds = .empty ∧ result = .ok () := by
  cases h with
  | none hnone => simp [Lease.belongings, Cluster.empty, hnone, hservice]
  | asked hnetwork result =>
      have hresult := eq_ok_of_failureOf? (hdone _ List.mem_cons_self)
      subst hresult
      simp [Lease.belongings, Cluster.empty, Cluster.after, hnetwork, hservice]

/-- When all that is held can be given up, nothing of what was created is left. -/
theorem GivesUp.afterAll_belongings {l l' : Lease} {ds : List Dealing} {result : Except Failure Unit}
    (h : GivesUp l ds result l') (hdone : ∀ d ∈ ds, d.failure? = Option.none) :
    l.belongings.afterAll ds = .empty ∧ result = .ok () := by
  cases h with
  | bare hnone h => exact h.afterAll_belongings hdone hnone
  | stuck hname failure =>
      have hfailure := List.forall_mem_singleton.mp hdone
      rw [l.failure?_dismissal] at hfailure
      cases hfailure
  | dismissed hname h =>
      rw [Cluster.afterAll_cons, Lease.after_dismissal hname]
      exact h.afterAll_belongings (List.forall_mem_cons.mp hdone).2 rfl

/-! ### What succeeded -/

theorem NetworkStep.quiet {spec : ServiceSpec} {l l' : Lease} {ds : List Dealing}
    (h : NetworkStep spec l ds (.ok ()) l') : ∀ d ∈ ds, d.failure? = Option.none := by
  cases h with
  | needless hnone => simp
  | present => simp [Dealing.failure?, failureOf?]
  | created => simp [Dealing.failure?, failureOf?]

theorem ServiceStep.quiet {name : String} {count : Nat} {l l' : Lease} {ds : List Dealing}
    (h : ServiceStep name count l ds (.ok ()) l') : ∀ d ∈ ds, d.failure? = Option.none := by
  cases h with
  | found hfound => simp [Dealing.failure?, failureOf?]
  | created hfound hname => simp [Dealing.failure?, failureOf?]

/-- When a service was brought up nothing failed but for a shortage of replicas that did not last. -/
theorem BringsUp.succeeded {name? : Option String} {count : Nat} {l l' : Lease} {ds : List Dealing}
    (h : BringsUp name? count l ds (.ok ()) l') :
    ∀ d ∈ ds, ∀ failure, d.failure? = some failure → failure.isShortage = true := by
  cases h with
  | awaited hname h hlooks =>
      cases h with
      | went h h' =>
          intro d hd failure hfailure
          rcases List.mem_append.mp hd with hd | hd
          · have hquiet := (List.mem_append.mp hd).elim (h.quiet d) (h'.quiet d)
            cases hquiet.symm.trans hfailure
          · exact hlooks.succeeded rfl d hd failure hfailure
  | static hname hlooks => exact hlooks.succeeded rfl

/-! ### What was there before -/

theorem NetworkStep.findServices_notMem {spec : ServiceSpec} {l l' : Lease} {ds : List Dealing}
    {result : Except Failure Unit} (h : NetworkStep spec l ds result l') {name : String}
    {answer : Except Failure (List String)} : .findServices name answer ∉ ds := by
  cases h with
  | needless hnone => simp
  | unknown failure => simp
  | present => simp
  | refused failure => simp
  | created => simp

theorem Deploys.held_of_found {name : String} {count : Nat} {l l' : Lease} {ds : List Dealing}
    {result : Except Failure Unit} (h : Deploys name count l ds result l') {names : List String}
    (hmem : .findServices name (.ok names) ∈ ds) (hfound : name ∈ names) :
    l'.service? = some name ∧ l'.created = false := by
  cases h with
  | stopped h => exact absurd hmem h.findServices_notMem
  | went h h' =>
      have hmem' := (List.mem_append.mp hmem).resolve_left h.findServices_notMem
      cases h' with
      | unknown failure => simp at hmem'
      | found hfound' result => exact ⟨rfl, rfl⟩
      | refused hnone hname failure =>
          rcases List.mem_pair.mp hmem' with hsaid | hsaid
          · cases hsaid
            exact absurd hfound hnone
          · cases hsaid
      | created hnone hname =>
          rcases List.mem_pair.mp hmem' with hsaid | hsaid
          · cases hsaid
            exact absurd hfound hnone
          · cases hsaid

/-- A service that is found is held from then on, and counts as not created. -/
theorem BringsUp.held_of_found {name : String} {count : Nat} {l l' : Lease} {ds : List Dealing}
    {result : Except Failure Unit} (h : BringsUp (some name) count l ds result l')
    {names : List String} (hmem : .findServices name (.ok names) ∈ ds) (hfound : name ∈ names) :
    l'.service? = some name ∧ l'.created = false := by
  have hlook : ∀ {ds : List Dealing} {result : Except Failure Unit}, Looks ds result →
      .findServices name (.ok names) ∉ ds := by
    intro ds result hlooks hmem
    cases hlooks.looks _ hmem
  cases h with
  | undefined failure => exact absurd hmem List.not_mem_nil
  | stopped hname h =>
      cases hname
      exact h.held_of_found hmem hfound
  | awaited hname h hlooks =>
      cases hname
      exact h.held_of_found ((List.mem_append.mp hmem).resolve_right (hlook hlooks)) hfound
  | static hname hlooks => exact absurd hmem (hlook hlooks)

theorem Dealing.removesService_eq_false {d : Dealing} (h : d.takesDown = false) :
    d.removesService = false := by
  cases d <;> first | rfl | cases h

theorem DropsNetwork.removesService {l l' : Lease} {ds : List Dealing} {result : Except Failure Unit}
    (h : DropsNetwork l ds result l') : ∀ d ∈ ds, d.removesService = false := by
  cases h with
  | none hnone => simp
  | asked hnetwork result => simp [Dealing.removesService]

/-- A service that was found is given up without being removed. -/
theorem GivesUp.removesService {l l' : Lease} {ds : List Dealing} {result : Except Failure Unit}
    (h : GivesUp l ds result l') (hcreated : l.created = false) :
    ∀ d ∈ ds, d.removesService = false := by
  have hdismissal : ∀ name answer, (l.dismissal name answer).removesService = false := by
    intro name answer
    rw [Lease.dismissal, hcreated]
    rfl
  cases h with
  | bare hnone h => exact h.removesService
  | stuck hname failure => exact List.forall_mem_singleton.mpr (hdismissal _ _)
  | dismissed hname h => exact List.forall_mem_cons.mpr ⟨hdismissal _ _, h.removesService⟩

end SumTree
