import SumTree.Proofs.Spawner.Dealings

/-!
# Clusters

A cluster has services and networks, and dealings with its engine create and remove them. The same
fold says both what the cluster has, when it starts from what there was before, and what of it was
created in the course of the dealings and not removed since, when it starts from nothing.

## Main Definitions

* `Cluster`, `Cluster.afterAll` — a cluster, and the one that dealings leave.
* `Cluster.made` — what was created in the course of dealings and not removed since.
* `Cluster.throughout` — whether all dealings fit the clusters that they meet.
* `Dealing.isTrue` — whether an engine's answer agrees with the cluster.
* `Dealing.takesDown` — a dealing that takes something away from workers.
-/

namespace SumTree

/-- What a cluster has: its services and its networks, by their names. -/
structure Cluster where
  services : List String
  networks : List String
  deriving DecidableEq

namespace Cluster

/-- The cluster that has nothing. -/
def empty : Cluster :=
  ⟨[], []⟩

/-- The cluster that a dealing leaves. -/
def after (k : Cluster) : Dealing → Cluster
  | .createService d (.ok ()) => { k with services := k.services ++ [d.name] }
  | .removeService name (.ok ()) => { k with services := k.services.filter (· != name) }
  | .createNetwork name _ (.ok ()) => { k with networks := k.networks ++ [name] }
  | .removeNetwork name (.ok ()) => { k with networks := k.networks.filter (· != name) }
  | _ => k

/-- The cluster that dealings leave. -/
def afterAll (k : Cluster) (ds : List Dealing) : Cluster :=
  ds.foldl after k

/-- What was created in the course of dealings and not removed since. -/
def made (ds : List Dealing) : Cluster :=
  empty.afterAll ds

/-- Whether every dealing is such that `p` holds of it in the cluster that it meets. -/
def throughout (p : Cluster → Dealing → Bool) : Cluster → List Dealing → Bool
  | _, [] => true
  | k, d :: rest => p k d && throughout p (k.after d) rest

@[simp] theorem afterAll_nil (k : Cluster) : k.afterAll [] = k := rfl

@[simp] theorem afterAll_cons (k : Cluster) (d : Dealing) (ds : List Dealing) :
    k.afterAll (d :: ds) = (k.after d).afterAll ds := rfl

theorem afterAll_append (k : Cluster) (ds ds' : List Dealing) :
    k.afterAll (ds ++ ds') = (k.afterAll ds).afterAll ds' :=
  List.foldl_append

theorem made_append (ds ds' : List Dealing) : made (ds ++ ds') = (made ds).afterAll ds' :=
  afterAll_append empty ds ds'

theorem throughout_append (p : Cluster → Dealing → Bool) (k : Cluster) (ds ds' : List Dealing) :
    k.throughout p (ds ++ ds') = (k.throughout p ds && (k.afterAll ds).throughout p ds') := by
  induction ds generalizing k with
  | nil => rfl
  | cons d rest ih =>
      show (p k d && (k.after d).throughout p (rest ++ ds')) = _
      rw [ih, ← Bool.and_assoc]
      rfl

theorem throughout_of_forall {p : Cluster → Dealing → Bool} {ds : List Dealing}
    (h : ∀ d ∈ ds, ∀ k, p k d = true) (k : Cluster) : k.throughout p ds = true := by
  induction ds generalizing k with
  | nil => rfl
  | cons d rest ih =>
      obtain ⟨hd, hrest⟩ := List.forall_mem_cons.mp h
      show (p k d && (k.after d).throughout p rest) = true
      rw [hd, ih hrest]
      rfl

/-- The one cluster has whatever the other one has. -/
structure Within (k k' : Cluster) : Prop where
  services : ∀ s ∈ k.services, s ∈ k'.services
  networks : ∀ n ∈ k.networks, n ∈ k'.networks

theorem within_empty (k : Cluster) : empty.Within k :=
  ⟨fun _ h => absurd h List.not_mem_nil, fun _ h => absurd h List.not_mem_nil⟩

theorem Within.after {k k' : Cluster} (h : k.Within k') (d : Dealing) :
    (k.after d).Within (k'.after d) := by
  have hservices := h.services
  have hnetworks := h.networks
  unfold Cluster.after
  split
  case h_1 => exact ⟨by grind, hnetworks⟩
  case h_2 => exact ⟨by grind, hnetworks⟩
  case h_3 => exact ⟨hservices, by grind⟩
  case h_4 => exact ⟨hservices, by grind⟩
  case h_5 => exact h

theorem Within.afterAll {k k' : Cluster} (h : k.Within k') (ds : List Dealing) :
    (k.afterAll ds).Within (k'.afterAll ds) := by
  induction ds generalizing k k' with
  | nil => exact h
  | cons d rest ih => exact ih (h.after d)

end Cluster

namespace Dealing

/-- Whether an engine says what is so: it finds a service if and only if there is one, and it does
not deny a network that there is. -/
def isTrue (k : Cluster) : Dealing → Bool
  | .findServices name (.ok found) => found.contains name == k.services.contains name
  | .hasNetwork name (.ok false) => !k.networks.contains name
  | _ => true

/-- Whether a service that is found is none that the cluster has. -/
def findsOthers (k : Cluster) : Dealing → Bool
  | .findServices name (.ok found) => !(found.contains name && k.services.contains name)
  | _ => true

/-- Whether the cluster has no networks when one is created. -/
def createsFirst (k : Cluster) : Dealing → Bool
  | .createNetwork _ _ (.ok ()) => k.networks.isEmpty
  | _ => true

/-- Whether an engine is asked to take something away from workers. -/
def takesDown : Dealing → Bool
  | .removeService .. | .removeNetwork .. => true
  | .scaleService _ count _ => count == 0
  | _ => false

/-- Whether an engine is asked to remove a service. -/
def removesService : Dealing → Bool
  | .removeService .. => true
  | _ => false

/-- The number of replicas to which a service was scaled. -/
def scaling? : Dealing → Option Nat
  | .scaleService _ count (.ok ()) => some count
  | _ => none

/-- Whether replicas or workers are only looked at. -/
def isLook : Dealing → Bool
  | .refreshService .. | .tasks .. | .awaitReady .. => true
  | _ => false

end Dealing

namespace Cluster

/-- Looking changes nothing. -/
theorem afterAll_of_isLook {ds : List Dealing} (hlooks : ∀ d ∈ ds, d.isLook = true) (k : Cluster) :
    k.afterAll ds = k := by
  induction ds with
  | nil => rfl
  | cons d rest ih =>
      obtain ⟨hd, hrest⟩ := List.forall_mem_cons.mp hlooks
      have hafter : k.after d = k := by
        cases d <;> first | rfl | cases hd
      rw [afterAll_cons, hafter]
      exact ih hrest

end Cluster

end SumTree
