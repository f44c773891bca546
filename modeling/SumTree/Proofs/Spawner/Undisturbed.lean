import SumTree.Proofs.Spawner.Effects
import SumTree.Proofs.Spawner.Provisioning

/-!
# Undisturbed calls

The calls of a spawner of services in the course of which nothing that it asks for fails. An
acquisition can then still fail: for the number of workers, for the definition of the service or for a
lasting shortage of replicas; but what it holds is given up as a whole (`Lends`). What any sequence of
such calls does is one relation (`Serves`), over which the later inductions run.

## Main Definitions

* `Lends` — an acquisition in the course of which nothing fails.
* `Serves` — calls in the course of which nothing fails.
* `Provider.apart` — whether no worker is live whenever workers are acquired.
-/

namespace SumTree

variable {σ : Type}

/-- What an acquisition does in the course of which nothing fails, and the handles that it gives. -/
inductive Lends (name : String) (l : Lease) : List Dealing → List Handle → Lease → Prop
  | nothing : Lends name l [] [] l
  | ready {handles : List Handle} (hhandles : handles ≠ []) {count : Nat} (hcount : 0 < count)
    {ds ds' : List Dealing} {l' : Lease} (h : Deploys name count l ds (.ok ()) l')
    (hlooks : ∀ d ∈ ds', d.isLook = true) : Lends name l (ds ++ ds') handles l'
  | gaveUp {ds : List Dealing} {l' : Lease} (hgives : GivesUp l ds (.ok ()) l') : Lends name l ds [] l'
  | short {count : Nat} (hcount : 0 < count) {ds ds' ds'' : List Dealing} {l' l'' : Lease}
    (h : Deploys name count l ds (.ok ()) l') (hlooks : ∀ d ∈ ds', d.isLook = true)
    (hgives : GivesUp l' ds'' (.ok ()) l'') : Lends name l (ds ++ ds' ++ ds'') [] l''

/-- A deployment that fails has a failing dealing. -/
theorem Deploys.exists_failure {name : String} {count : Nat} {l l' : Lease} {ds : List Dealing}
    {failure : Failure} (h : Deploys name count l ds (.error failure) l') :
    ∃ d ∈ ds, d.failure? ≠ none := by
  cases h with
  | stopped h =>
      cases h with
      | unknown failure => exact ⟨_, List.mem_cons_self, by simp [Dealing.failure?, failureOf?]⟩
      | refused failure =>
          exact ⟨_, List.mem_cons_of_mem _ List.mem_cons_self, by simp [Dealing.failure?, failureOf?]⟩
  | went h h' =>
      cases h' with
      | unknown failure =>
          exact ⟨_, List.mem_append_right _ List.mem_cons_self, by simp [Dealing.failure?, failureOf?]⟩
      | found hfound result =>
          exact ⟨_, List.mem_append_right _ (List.mem_cons_of_mem _ List.mem_cons_self),
            by simp [Dealing.failure?, failureOf?]⟩
      | refused hfound hname failure =>
          exact ⟨_, List.mem_append_right _ (List.mem_cons_of_mem _ List.mem_cons_self),
            by simp [Dealing.failure?, failureOf?]⟩

/-- A service that is deployed is held. -/
theorem Deploys.service?_eq {name : String} {count : Nat} {l l' : Lease} {ds : List Dealing}
    (h : Deploys name count l ds (.ok ()) l') : l'.service? = some name := by
  cases h with
  | went h h' =>
      cases h' with
      | found hfound => rfl
      | created hfound hname => rfl

theorem DropsNetwork.held_eq {l l' : Lease} {ds : List Dealing} {result : Except Failure Unit}
    (h : DropsNetwork l ds result l') :
    l'.service? = l.service? ∧ l'.network? = Option.none := by
  cases h with
  | none hnone => exact ⟨rfl, hnone⟩
  | asked hnetwork => exact ⟨rfl, rfl⟩

/-- When everything is given up nothing is held. -/
theorem GivesUp.held_eq_none {l l' : Lease} {ds : List Dealing} (h : GivesUp l ds (.ok ()) l') :
    l'.service? = none ∧ l'.network? = none := by
  cases h with
  | bare hnone h =>
      obtain ⟨hservice, hnetwork⟩ := h.held_eq
      exact ⟨hservice.trans hnone, hnetwork⟩
  | dismissed hname h => exact h.held_eq

/-- Whoever got workers holds the service. -/
theorem Lends.isSome_service? {name : String} {l l' : Lease} {ds : List Dealing}
    {handles : List Handle} (h : Lends name l ds handles l') (hhandles : handles ≠ []) :
    l'.service?.isSome = true := by
  cases h with
  | nothing => exact absurd rfl hhandles
  | ready hhandles' hcount h hlooks => rw [h.service?_eq, Option.isSome_some]
  | gaveUp hgives => exact absurd rfl hhandles
  | short hcount h hlooks hgives => exact absurd rfl hhandles

/-- When bringing a service up fails and nothing else does, there is no definition of the service or a
lasting shortage of replicas. -/
theorem BringsUp.short_of_error {name : String} {count : Nat} {l l' : Lease} {ds : List Dealing}
    {cause : Failure} (h : BringsUp (some name) count l ds (.error cause) l')
    (hquiet : ∀ d ∈ ds, d.failure? = none) :
    (ds = [] ∧ l' = l) ∨ cause.isShortage = true ∧ ∃ ds₁ ds₂, ds = ds₁ ++ ds₂ ∧
      Deploys name count l ds₁ (.ok ()) l' ∧ ∀ d ∈ ds₂, d.isLook = true := by
  cases h with
  | undefined => exact .inl ⟨rfl, rfl⟩
  | stopped hname h =>
      obtain ⟨d, hd, hfailure⟩ := h.exists_failure
      exact absurd (hquiet d hd) hfailure
  | awaited hname h hlooks =>
      cases hname
      have hshort := hlooks.shortage cause rfl fun d hd => hquiet d (List.mem_append_right _ hd)
      exact .inr ⟨hshort, _, _, rfl, h, hlooks.looks⟩
  | static hname hlooks => cases hname

theorem Failure.isExpected_of_isShortage {failure : Failure} (h : failure.isShortage = true) :
    Service.isExpected failure = true := by
  cases failure with
  | replicas running wanted => rfl
  | run e => cases h
  | value fault => cases h
  | compose fault => cases h
  | outside o => cases h

namespace Service

open Hosted SumTree.Action

variable {c : ServiceConfig} {engine : Engine σ} {site : Site σ} {name : String}

/-- When nothing that is asked for fails, what is held is kept or given up as a whole. -/
theorem Provisions.lends (hname : c.serviceName? = some name) {count : Nat} (hcount : 0 < count)
    {w : Logged (Hosted (Observed σ))} {ds : List Dealing} {result : Except Failure (List Handle)}
    {l : Lease} (h : Provisions c engine site count w ds result l)
    (hquiet : ∀ d ∈ ds, d.failure? = none) :
    Lends name w.state.lease ds (handed result) l := by
  cases h with
  | refused hnodes reason => exact .nothing
  | unmarked hmark => exact .nothing
  | ready hnumber hup hbrings =>
      rename_i handles
      have hhandles : handles ≠ [] := by
        rintro rfl
        exact absurd hnumber (Nat.ne_of_lt hcount)
      rw [hname] at hbrings
      cases hbrings with
      | awaited hname' h hlooks =>
          cases hname'
          exact .ready hhandles hcount h hlooks.looks
      | static hname' hlooks => cases hname'
  | passedOn hbreak hcause hbrings =>
      -- A shortage is expected, so that only a definition can be missing here.
      rw [hname] at hbrings
      rcases hbrings.short_of_error hquiet with ⟨rfl, hlease⟩ | ⟨hshort, -⟩
      · rw [hlease]
        exact .nothing
      · rw [Failure.isExpected_of_isShortage hshort] at hcause
        cases hcause
  | reported hbreak hcause hnone hbrings =>
      rw [hname] at hnone
      cases hnone
  | undone hbreak hcause hsome hbrings hgives =>
      have hundone := (hgives.afterAll_belongings fun d hd =>
        hquiet d (List.mem_append_right _ hd)).2
      subst hundone
      rw [hname] at hbrings
      rcases hbrings.short_of_error fun d hd => hquiet d (List.mem_append_left _ hd) with
        ⟨rfl, hlease⟩ | ⟨-, ds₁, ds₂, rfl, hdeploys, hlooks⟩
      · rw [hlease] at hgives
        exact .gaveUp hgives
      · exact .short hcount hdeploys hlooks hgives

theorem Acquires.lends (hname : c.serviceName? = some name) {count : Int}
    {w : Logged (Ledger (Hosted (Observed σ)))} {ds : List Dealing}
    {result : Except Failure (List Handle)} {l : Lease}
    (h : Acquires c engine site count w ds result l) (hquiet : ∀ d ∈ ds, d.failure? = none) :
    Lends name w.state.inner.lease ds (handed result) l := by
  cases h with
  | refused hcount reason => exact .nothing
  | provisioned hcount h => exact h.lends hname (by omega) hquiet

end Service

namespace Provider

/-- Whether no worker is live whenever workers are acquired. -/
def apart (p : Provider σ) : List Call → Logged (Ledger σ) → Bool
  | [], _ => true
  | .acquire count :: rest, w =>
    w.state.live.isEmpty && p.apart rest ((p.acquire count).perform w).2
  | .release handles :: rest, w => p.apart rest ((p.release handles).perform w).2

end Provider

/-- What calls do in the course of which nothing fails: whether they are apart, the live handles and
the lease before, the dealings, all handles given, and the live handles and the lease after. -/
inductive Serves (name : String) : Bool → List Handle → Lease → List Dealing → List Handle →
    List Handle → Lease → Prop
  | nil (live : List Handle) (l : Lease) : Serves name true live l [] [] live l
  | acquire {live last : List Handle} {l between after : Lease} {ds ds' : List Dealing}
    {handles given : List Handle} {apart : Bool} (h : Lends name l ds handles between)
    (hrest : Serves name apart (handles.foldl Ledger.enter live) between ds' given last after) :
    Serves name (live.isEmpty && apart) live l (ds ++ ds') (handles ++ given) last after
  | release {live kept last : List Handle} {l between after : Lease} {ds ds' : List Dealing}
    {given : List Handle} {apart : Bool} (h : Service.Releases live kept l ds between)
    (hquiet : ∀ d ∈ ds, d.failure? = none)
    (hrest : Serves name apart kept between ds' given last after) :
    Serves name apart live l (ds ++ ds') given last after

namespace Service

open Hosted SumTree.Action

variable (c : ServiceConfig) (engine : Engine σ) (site : Site σ)

theorem serves_of_serve {name : String} (hname : c.serviceName? = some name) (calls : List Call)
    (w : Logged (Ledger (Hosted (Observed σ)))) :
    ∃ ds results after,
      (provider c engine.observed site.observed).serve calls w = (results, after) ∧
      after.state.inner.world.dealings = w.state.inner.world.dealings ++ ds ∧
      ((∀ d ∈ ds, d.failure? = none) →
        Serves name ((provider c engine.observed site.observed).apart calls w) w.state.live
          w.state.inner.lease ds (results.flatMap handed) after.state.live
          after.state.inner.lease) := by
  -- When nothing fails in all the dealings, nothing fails in those of the first call nor in the rest.
  induction calls generalizing w with
  | nil => exact ⟨[], [], w, rfl, (List.append_nil _).symm, fun _ => .nil _ _⟩
  | cons call rest ih =>
      cases call with
      | acquire count =>
          obtain ⟨ds, result, l, between, hperform, hdealings, hlease, hlive, hacquires⟩ :=
            perform_acquire c engine site count w
          obtain ⟨ds', results, after, hserve, hdealings', hserves⟩ := ih between
          refine ⟨ds ++ ds', result :: results, after, ?_, ?_, fun hquiet => ?_⟩
          · exact Provider.serve_cons _ hperform hserve
          · rw [hdealings', hdealings, List.append_assoc]
          · have hrest := hserves fun d hd => hquiet d (List.mem_append_right _ hd)
            rw [hlive, hlease] at hrest
            rw [Provider.apart, hperform]
            exact .acquire (hacquires.lends hname fun d hd => hquiet d (List.mem_append_left _ hd))
              hrest
      | release handles =>
          obtain ⟨ds, result, l, between, hperform, hdealings, hlease, hreleases⟩ :=
            perform_release c engine site handles w
          obtain ⟨ds', results, after, hserve, hdealings', hserves⟩ := ih between
          refine ⟨ds ++ ds', (result.map fun _ => []) :: results, after, ?_, ?_, fun hquiet => ?_⟩
          · exact Provider.serve_cons _ (Provider.perform_answer_release _ hperform) hserve
          · rw [hdealings', hdealings, List.append_assoc]
          · have hrest := hserves fun d hd => hquiet d (List.mem_append_right _ hd)
            rw [hlease] at hrest
            rw [Provider.apart, hperform, List.flatMap_cons, handed_map_nil, List.nil_append]
            exact .release hreleases (fun d hd => hquiet d (List.mem_append_left _ hd)) hrest

end Service

end SumTree
