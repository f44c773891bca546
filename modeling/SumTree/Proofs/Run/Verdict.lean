import Mathlib.Data.List.Range
import SumTree.Proofs.Run.Waiting

/-!
# Verdicts of rounds

What decides a wait, in terms of the outcomes that the rounds bring. The verdict of a round is the
error of the lowest chunk that fails in it, and only without such a chunk the cancellation that the
caller asked for. Rounds in which all is calm decide nothing, and when they have brought every chunk
the wait ends with the trees in the order of the chunks.

## Main Definitions

* `cancelledByCaller` — the error of a run that the caller cancelled.
-/

namespace SumTree

/-- The error of a run that the caller cancelled. -/
def cancelledByCaller : RunError :=
  .exchange ⟨.cancelled, "Run cancelled by caller", none, none⟩

/-- In an ascending list, the first element with a value is the least one. -/
theorem findSome?_eq_some_of_lowest {β : Type} {l : List Nat} (hl : l.Pairwise (· < ·))
    {g : Nat → Option β} {i : Nat} {b : β} (hi : i ∈ l) (hb : g i = some b)
    (hlower : ∀ j ∈ l, j < i → g j = none) : l.findSome? g = some b := by
  obtain ⟨front, back, rfl⟩ := List.append_of_mem hi
  refine List.findSome?_eq_some_iff.mpr ⟨front, i, back, rfl, hb, fun j hj => ?_⟩
  exact hlower j (List.mem_append_left _ hj)
    ((List.pairwise_append.mp hl).2.2 j hj i List.mem_cons_self)

namespace Waiting

/-- The verdict in terms of the pending chunks and what the round brings for them. -/
theorem verdict?_eq (w : Waiting) (r : Round) :
    w.verdict? r =
      (w.pending.findSome? fun chunk =>
        (r.finished.lookup chunk).bind (w.errorOf? chunk)).or
      (if r.cancelled then some cancelledByCaller else none) := by
  have harrivals : ((w.arrivals r).findSome? fun a => w.errorOf? a.1 a.2) =
      w.pending.findSome? fun chunk => (r.finished.lookup chunk).bind (w.errorOf? chunk) := by
    rw [arrivals, ← List.head?_filterMap, List.filterMap_filterMap, List.head?_filterMap]
    congr 1
    funext chunk
    cases r.finished.lookup chunk <;> rfl
  rw [verdict?, harrivals]
  cases w.pending.findSome? fun chunk => (r.finished.lookup chunk).bind (w.errorOf? chunk) <;> rfl

/-- A verdict is the error of a pending chunk that fails, or the cancellation. -/
theorem of_verdict?_eq_some {w : Waiting} {r : Round} {e : RunError}
    (h : w.verdict? r = some e) :
    (∃ chunk failure, chunk ∈ w.pending ∧ r.finished.lookup chunk = some (.error failure) ∧
        e = asRunError chunk ((w.addresses[chunk]?).getD "") failure) ∨
      (r.cancelled = true ∧ e = cancelledByCaller) := by
  rw [verdict?_eq] at h
  cases hfails : w.pending.findSome? fun chunk =>
      (r.finished.lookup chunk).bind (w.errorOf? chunk) with
  | some e' =>
      rw [hfails, Option.some_or, Option.some.injEq] at h
      obtain ⟨chunk, hchunk, he⟩ := List.exists_of_findSome?_eq_some hfails
      obtain ⟨outcome, houtcome, he⟩ := Option.bind_eq_some_iff.mp he
      cases outcome with
      | ok t => cases he
      | error failure =>
          rw [errorOf?, Option.some.injEq] at he
          exact .inl ⟨chunk, failure, hchunk, houtcome, (he.trans h).symm⟩
  | none =>
      rw [hfails, Option.none_or] at h
      cases hcancelled : r.cancelled with
      | false => simp [hcancelled] at h
      | true =>
          rw [hcancelled, if_pos rfl, Option.some.injEq] at h
          exact .inr ⟨rfl, h.symm⟩

/-- A round without a verdict brings no failure of a pending chunk. -/
theorem exists_ok_of_verdict?_eq_none {w : Waiting} {r : Round} (h : w.verdict? r = none)
    {chunk : Nat} (hchunk : chunk ∈ w.pending) {outcome : Outcome}
    (houtcome : r.finished.lookup chunk = some outcome) : ∃ t, outcome = .ok t := by
  rw [verdict?_eq, Option.or_eq_none_iff, List.findSome?_eq_none_iff] at h
  have hnone := h.1 chunk hchunk
  rw [houtcome, Option.bind_some] at hnone
  cases outcome with
  | ok t => exact ⟨t, rfl⟩
  | error failure => cases hnone

/-- The lowest pending chunk that fails in a round decides, whatever else the round brings. -/
theorem verdict?_of_lowest_failure {w : Waiting} (hsorted : w.pending.Pairwise (· < ·))
    {r : Round} {chunk : Nat} {failure : Failure} (hchunk : chunk ∈ w.pending)
    (hfails : r.finished.lookup chunk = some (.error failure))
    (hlowest : ∀ j ∈ w.pending, j < chunk → ∀ f, r.finished.lookup j ≠ some (.error f)) :
    w.verdict? r = some (asRunError chunk ((w.addresses[chunk]?).getD "") failure) := by
  have hfirst := findSome?_eq_some_of_lowest hsorted (i := chunk)
    (g := fun j => (r.finished.lookup j).bind (w.errorOf? j)) hchunk
    (by rw [hfails]; rfl) fun j hj hlower => by
      cases hj' : r.finished.lookup j with
      | none => rfl
      | some outcome =>
          cases outcome with
          | ok t => rfl
          | error f => exact absurd hj' (hlowest j hj hlower f)
  rw [verdict?_eq, hfirst, Option.some_or]

/-- The signal decides when no pending chunk fails in the round. -/
theorem verdict?_of_cancelled {w : Waiting} {r : Round} (hcancelled : r.cancelled = true)
    (hnone : ∀ j ∈ w.pending, ∀ f, r.finished.lookup j ≠ some (.error f)) :
    w.verdict? r = some cancelledByCaller := by
  have hfirst : (w.pending.findSome? fun j =>
      (r.finished.lookup j).bind (w.errorOf? j)) = none := by
    refine List.findSome?_eq_none_iff.mpr fun j hj => ?_
    cases hj' : r.finished.lookup j with
    | none => rfl
    | some outcome =>
        cases outcome with
        | ok t => rfl
        | error f => exact absurd hj' (hnone j hj f)
  rw [verdict?_eq, hfirst, Option.none_or, if_pos hcancelled]

/-- A calm round has no verdict. -/
theorem verdict?_of_calm (w : Waiting) {r : Round} (h : r.Calm) : w.verdict? r = none := by
  cases hverdict : w.verdict? r with
  | none => rfl
  | some e =>
      rcases of_verdict?_eq_some hverdict with ⟨chunk, failure, -, hfails, -⟩ | ⟨hcancelled, -⟩
      · obtain ⟨t, ht⟩ := h.successful chunk _ hfails
        cases ht
      · rw [h.unsignalled] at hcancelled
        cases hcancelled

theorem undecided_of_calm {w : Waiting} {rounds : List Round} (h : ∀ r ∈ rounds, r.Calm) :
    w.Undecided rounds := by
  induction rounds generalizing w with
  | nil => trivial
  | cons r rest ih =>
      have hr := h r List.mem_cons_self
      exact ⟨verdict?_of_calm w hr, hr.unstopped,
        ih fun r' hr' => h r' (List.mem_cons_of_mem r hr')⟩

/-- Rounds that decide nothing bring no failure of a chunk that was pending before them. -/
theorem Undecided.exists_ok {w : Waiting} {rounds : List Round} (h : w.Undecided rounds)
    {chunk : Nat} (hchunk : chunk ∈ w.pending) {outcome : Outcome}
    (houtcome : firstOutcome rounds chunk = some outcome) : ∃ t, outcome = .ok t := by
  induction rounds generalizing w with
  | nil => cases houtcome
  | cons r rest ih =>
      obtain ⟨hverdict, -, hrest⟩ := h
      rw [firstOutcome_cons] at houtcome
      cases hr : r.finished.lookup chunk with
      | some outcome' =>
          rw [hr, Option.some_or, Option.some.injEq] at houtcome
          exact houtcome ▸ exists_ok_of_verdict?_eq_none hverdict hchunk hr
      | none =>
          rw [hr, Option.none_or] at houtcome
          refine ih hrest ?_ houtcome
          simp [after, hchunk, hr]

/-! ### The wait from its start -/

@[simp] theorem start_addresses (addresses : List String) :
    (start addresses).addresses = addresses := rfl

@[simp] theorem start_trees (addresses : List String) : (start addresses).trees = [] := rfl

@[simp] theorem mem_start_pending {addresses : List String} {chunk : Nat} :
    chunk ∈ (start addresses).pending ↔ chunk < addresses.length := by
  simp [start]

/-- A chunk is pending when no round has brought it. -/
theorem mem_pending_afterAll_start {addresses : List String} {rounds : List Round} {chunk : Nat} :
    chunk ∈ ((start addresses).afterAll rounds).pending ↔
      chunk < addresses.length ∧ ∀ r ∈ rounds, r.finished.lookup chunk = none := by
  rw [afterAll_pending, List.mem_filter, mem_start_pending, Option.isNone_iff_eq_none,
    firstOutcome_eq_none_iff]

theorem sorted_pending_afterAll_start (addresses : List String) (rounds : List Round) :
    ((start addresses).afterAll rounds).pending.Pairwise (· < ·) := by
  rw [afterAll_pending]
  exact (List.pairwise_lt_range).filter _

/-- The trees in order, when the first outcome of every chunk is a tree. -/
theorem inOrder_afterAll_start {addresses : List String} {rounds : List Round}
    {t : Nat → MiniTree}
    (h : ∀ i < addresses.length, firstOutcome rounds i = some (.ok (t i))) :
    ((start addresses).afterAll rounds).inOrder = (List.range addresses.length).map t := by
  rw [inOrder, afterAll_addresses, start_addresses, ← List.filterMap_eq_map]
  refine List.filterMap_congr fun chunk hchunk => ?_
  have hlt : chunk < addresses.length := List.mem_range.mp hchunk
  rw [lookup_afterAll_trees (mem_start_pending.mpr hlt), h chunk hlt]
  rfl

/-- Calm rounds that bring every chunk end the wait with the trees in the order of the chunks. -/
theorem distribute_of_calm {addresses : List String} {rounds : List Round} {t : Nat → MiniTree}
    (hcalm : ∀ r ∈ rounds, r.Calm)
    (hfirst : ∀ i < addresses.length, firstOutcome rounds i = some (.ok (t i))) :
    distribute addresses rounds = .complete ((List.range addresses.length).map t) := by
  have hnil : ((start addresses).afterAll rounds).pending = [] := by
    refine List.eq_nil_iff_forall_not_mem.mpr fun chunk hchunk => ?_
    obtain ⟨hlt, hnone⟩ := mem_pending_afterAll_start.mp hchunk
    rw [← firstOutcome_eq_none_iff, hfirst chunk hlt] at hnone
    cases hnone
  have hcollect := collect_of_completes (undecided_of_calm (w := start addresses) hcalm) hnil []
  rwa [List.append_nil, inOrder_afterAll_start hfirst] at hcollect

/-- A wait that ends with trees has one tree for every chunk, which some round brought. -/
theorem exists_rounds_of_distribute_eq_complete {addresses : List String} {rounds : List Round}
    {trees : List MiniTree} (h : distribute addresses rounds = .complete trees) :
    ∃ t : Nat → MiniTree, trees = (List.range addresses.length).map t ∧
      ∀ i < addresses.length, ∃ r ∈ rounds, r.finished.lookup i = some (.ok (t i)) := by
  rw [distribute_eq] at h
  obtain ⟨front, back, hsplit, hundecided, hnil, htrees⟩ := exists_of_collect_eq_complete h
  -- Nothing is pending after the front, and nothing in it fails: every chunk has come with a tree.
  have hbrought : ∀ i, ∃ t, i < addresses.length → firstOutcome front i = some (.ok t) := by
    intro i
    by_cases hi : i < addresses.length
    · cases houtcome : firstOutcome front i with
      | none =>
          have hpending := mem_pending_afterAll_start.mpr
            ⟨hi, firstOutcome_eq_none_iff.mp houtcome⟩
          rw [hnil] at hpending
          cases hpending
      | some outcome =>
          obtain ⟨t, ht⟩ := hundecided.exists_ok (mem_start_pending.mpr hi) houtcome
          exact ⟨t, fun _ => by rw [ht]⟩
    · exact ⟨default, fun hlt => absurd hlt hi⟩
  choose t ht using hbrought
  refine ⟨t, by rw [htrees, inOrder_afterAll_start ht], fun i hi => ?_⟩
  obtain ⟨r, hr, hlookup⟩ := exists_round_of_firstOutcome (ht i hi)
  exact ⟨r, hsplit ▸ List.mem_append_left back hr, hlookup⟩

end Waiting

end SumTree
