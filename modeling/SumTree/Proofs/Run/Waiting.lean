import Mathlib.Data.List.Basic
import SumTree.Run.Round

/-!
# The wait for exchanges

What a list of rounds does to a wait, whatever the order in which the exchanges finish and however
they are grouped. The outcome of a chunk is the one that the first round with it brings
(`firstOutcome`), and a wait in which nothing is decided yet is described by these outcomes alone
(`afterAll_pending`, `lookup_afterAll_trees`). Every wait goes in one of four ways (`Waiting.Goes`), and
once it has ended, later rounds do not change what it ended with (`collect_append_of_ended`).

## Main Definitions

* `Waiting.afterAll` — the wait after several rounds.
* `Waiting.Undecided` — none of the rounds decides how the wait ends.
* `firstOutcome` — the outcome of a chunk according to some rounds.
* `Round.Calm` — a round without failure, signal or stop.
* `Waiting.Goes` — the ways in which a wait can go.
* `Ending.error?` — the error of an ending that fails.
-/

namespace SumTree

/-- A partial map on a list of keys, listed with its keys, is looked up by applying it. -/
theorem lookup_filterMap_pair {β : Type} (keys : List Nat) (g : Nat → Option β) (key : Nat) :
    (keys.filterMap fun k => (g k).map (k, ·)).lookup key = if key ∈ keys then g key else none := by
  induction keys with
  | nil => rfl
  | cons k rest ih =>
      rw [List.filterMap_cons]
      cases hk : g k with
      | none =>
          simp only [Option.map_none, ih, List.mem_cons]
          by_cases hkey : key = k
          · subst hkey
            simp [hk]
          · simp [hkey]
      | some b =>
          simp only [Option.map_some, List.lookup_cons, ih, List.mem_cons]
          by_cases hkey : key = k
          · subst hkey
            simp [hk]
          · simp [hkey, beq_false_of_ne hkey]

/-- The outcome of a chunk that the first round with it brings. -/
def firstOutcome (rounds : List Round) (chunk : Nat) : Option Outcome :=
  rounds.findSome? fun r => r.finished.lookup chunk

@[simp] theorem firstOutcome_nil (chunk : Nat) : firstOutcome [] chunk = none := rfl

theorem firstOutcome_cons (r : Round) (rounds : List Round) (chunk : Nat) :
    firstOutcome (r :: rounds) chunk =
      (r.finished.lookup chunk).or (firstOutcome rounds chunk) := by
  simp only [firstOutcome, List.findSome?_cons]
  cases r.finished.lookup chunk <;> rfl

theorem firstOutcome_eq_none_iff {rounds : List Round} {chunk : Nat} :
    firstOutcome rounds chunk = none ↔ ∀ r ∈ rounds, r.finished.lookup chunk = none := by
  simp [firstOutcome, List.findSome?_eq_none_iff]

theorem exists_round_of_firstOutcome {rounds : List Round} {chunk : Nat} {outcome : Outcome}
    (h : firstOutcome rounds chunk = some outcome) :
    ∃ r ∈ rounds, r.finished.lookup chunk = some outcome :=
  List.exists_of_findSome?_eq_some h

/-- A round that brings no failure, and neither the signal nor a stop. -/
structure Round.Calm (r : Round) : Prop where
  unsignalled : r.cancelled = false
  unstopped : r.stopped = false
  successful : ∀ chunk outcome, r.finished.lookup chunk = some outcome → ∃ t, outcome = .ok t

/-- A round that brings trees and nothing else is calm. -/
theorem Round.calm_of_trees (trees : List (Nat × MiniTree)) (resisting : List Nat) :
    Round.Calm ⟨trees.map fun found => (found.1, .ok found.2), false, false, resisting⟩ where
  unsignalled := rfl
  unstopped := rfl
  successful := by
    intro chunk outcome hlookup
    obtain ⟨front, back, hsplit, -⟩ := List.lookup_eq_some_iff.mp hlookup
    dsimp only at hsplit
    have hmem : (chunk, outcome) ∈ trees.map fun found => (found.1, Except.ok found.2) :=
      hsplit ▸ List.mem_append_right front List.mem_cons_self
    obtain ⟨found, -, hfound⟩ := List.mem_map.mp hmem
    cases hfound
    exact ⟨found.2, rfl⟩

/-- The error of an ending that fails. -/
def Ending.error? : Ending → Option RunError
  | .failed e .. => some e
  | _ => none

namespace Waiting

/-- A wait for exchanges none of which has finished. -/
def start (addresses : List String) : Waiting :=
  ⟨addresses, List.range addresses.length, []⟩

theorem distribute_eq (addresses : List String) (rounds : List Round) :
    distribute addresses rounds = (start addresses).collect rounds := rfl

/-- The wait after several rounds. -/
def afterAll (w : Waiting) (rounds : List Round) : Waiting :=
  rounds.foldl after w

@[simp] theorem afterAll_nil (w : Waiting) : w.afterAll [] = w := rfl

@[simp] theorem afterAll_cons (w : Waiting) (r : Round) (rounds : List Round) :
    w.afterAll (r :: rounds) = (w.after r).afterAll rounds := rfl

@[simp] theorem after_addresses (w : Waiting) (r : Round) :
    (w.after r).addresses = w.addresses := rfl

@[simp] theorem afterAll_addresses (w : Waiting) (rounds : List Round) :
    (w.afterAll rounds).addresses = w.addresses := by
  induction rounds generalizing w with
  | nil => rfl
  | cons r rest ih => rw [afterAll_cons, ih, after_addresses]

/-- A wait without pending exchanges learns nothing more. -/
theorem after_of_pending_nil {w : Waiting} (h : w.pending = []) (r : Round) : w.after r = w := by
  cases w
  simp_all [after, arrivals]

theorem afterAll_of_pending_nil {w : Waiting} (h : w.pending = []) (rounds : List Round) :
    w.afterAll rounds = w := by
  induction rounds with
  | nil => rfl
  | cons r rest ih => rw [afterAll_cons, after_of_pending_nil h, ih]

/-- The pending exchanges are those that no round has brought. -/
theorem afterAll_pending (w : Waiting) (rounds : List Round) :
    (w.afterAll rounds).pending =
      w.pending.filter fun chunk => (firstOutcome rounds chunk).isNone := by
  induction rounds generalizing w with
  | nil => simp
  | cons r rest ih =>
      rw [afterAll_cons, ih, after, List.filter_filter]
      refine List.filter_congr fun chunk _ => ?_
      rw [firstOutcome_cons]
      cases r.finished.lookup chunk <;> simp

/-- The trees that one round adds are those of the pending exchanges that it brings. -/
theorem lookup_after_trees (w : Waiting) (r : Round) (chunk : Nat) :
    (w.after r).trees.lookup chunk = (w.trees.lookup chunk).or
      (if chunk ∈ w.pending then (r.finished.lookup chunk).bind Except.toOption else none) := by
  have hadded : ((w.arrivals r).filterMap fun a => a.2.toOption.map (a.1, ·)) =
      w.pending.filterMap fun c =>
        ((r.finished.lookup c).bind Except.toOption).map (c, ·) := by
    rw [arrivals, List.filterMap_filterMap]
    refine List.filterMap_congr fun c _ => ?_
    cases r.finished.lookup c <;> rfl
  rw [after, List.lookup_append, hadded, lookup_filterMap_pair]

/-- No round touches the tree of an exchange that is not pending. -/
theorem lookup_afterAll_trees_of_notMem {w : Waiting} {chunk : Nat} (h : chunk ∉ w.pending)
    (rounds : List Round) :
    (w.afterAll rounds).trees.lookup chunk = w.trees.lookup chunk := by
  induction rounds generalizing w with
  | nil => rfl
  | cons r rest ih =>
      have hafter : chunk ∉ (w.after r).pending := by
        simp [after, h]
      rw [afterAll_cons, ih hafter, lookup_after_trees, if_neg h, Option.or_none]

/-- The trees are those of the first outcomes. -/
theorem lookup_afterAll_trees {w : Waiting} {chunk : Nat} (h : chunk ∈ w.pending)
    (rounds : List Round) :
    (w.afterAll rounds).trees.lookup chunk =
      (w.trees.lookup chunk).or ((firstOutcome rounds chunk).bind Except.toOption) := by
  induction rounds generalizing w with
  | nil => simp
  | cons r rest ih =>
      have hlookup := lookup_after_trees w r chunk
      rw [if_pos h] at hlookup
      rw [afterAll_cons, firstOutcome_cons]
      cases hr : r.finished.lookup chunk with
      | none =>
          have hpending : chunk ∈ (w.after r).pending := by
            simp [after, h, hr]
          rw [ih hpending, hlookup, hr]
          simp
      | some outcome =>
          have hsettled : chunk ∉ (w.after r).pending := by
            simp [after, hr]
          rw [lookup_afterAll_trees_of_notMem hsettled, hlookup, hr]
          rfl

/-! ### How a wait ends -/

/-- None of the rounds decides how the wait ends. -/
def Undecided (w : Waiting) : List Round → Prop
  | [] => True
  | r :: rest => w.verdict? r = none ∧ r.stopped = false ∧ (w.after r).Undecided rest

theorem collect_of_pending_nil {w : Waiting} (h : w.pending = []) (rounds : List Round) :
    w.collect rounds = .complete w.inOrder := by
  cases rounds <;> simp [collect, h]

theorem collect_nil_of_pending {w : Waiting} (h : w.pending ≠ []) :
    w.collect [] = .unfinished := by
  simp [collect, h]

/-- One round of a wait that goes on. -/
theorem collect_cons {w : Waiting} (h : w.pending ≠ []) (r : Round) (rounds : List Round) :
    w.collect (r :: rounds) =
      match w.verdict? r with
      | some e => .failed e (w.after r).pending
          ((w.after r).pending.filter r.resisting.contains) (rounds.any (·.stopped))
      | none => if r.stopped then .stopped (w.after r).pending
          else (w.after r).collect rounds := by
  have hpending : ¬ w.pending.isEmpty = true := by simpa using h
  exact if_neg hpending

/-- Rounds that decide nothing only bring the wait forward. -/
theorem collect_append {w : Waiting} {front : List Round} (h : w.Undecided front)
    (back : List Round) : w.collect (front ++ back) = (w.afterAll front).collect back := by
  induction front generalizing w with
  | nil => rfl
  | cons r rest ih =>
      obtain ⟨hverdict, hstopped, hrest⟩ := h
      by_cases hpending : w.pending = []
      · rw [collect_of_pending_nil hpending, afterAll_of_pending_nil hpending,
          collect_of_pending_nil hpending]
      · rw [List.cons_append, collect_cons hpending, hverdict, hstopped, afterAll_cons]
        exact ih hrest

/-- A round with a verdict, after rounds that decide nothing, ends the wait; what comes after it only
tells whether the run is stopped as well. -/
theorem collect_append_of_verdict {w : Waiting} {front : List Round} (hfront : w.Undecided front)
    (hpending : (w.afterAll front).pending ≠ []) {r : Round} {e : RunError}
    (hverdict : (w.afterAll front).verdict? r = some e) (back : List Round) :
    w.collect (front ++ r :: back) = .failed e (w.afterAll (front ++ [r])).pending
      ((w.afterAll (front ++ [r])).pending.filter r.resisting.contains)
      (back.any (·.stopped)) := by
  rw [collect_append hfront, collect_cons hpending, hverdict]
  simp only [afterAll, List.foldl_append, List.foldl_cons, List.foldl_nil]

/-- A round that is stopped without a verdict, after rounds that decide nothing, ends the wait. -/
theorem collect_append_of_stopped {w : Waiting} {front : List Round} (hfront : w.Undecided front)
    (hpending : (w.afterAll front).pending ≠ []) {r : Round}
    (hverdict : (w.afterAll front).verdict? r = none) (hstopped : r.stopped = true)
    (back : List Round) :
    w.collect (front ++ r :: back) = .stopped (w.afterAll (front ++ [r])).pending := by
  rw [collect_append hfront, collect_cons hpending, hverdict, hstopped]
  simp only [afterAll, List.foldl_append, List.foldl_cons, List.foldl_nil, if_true]

/-- How a wait goes: through rounds that decide nothing, up to the point where no exchange is pending,
to the first round that decides, or to the end of the rounds. -/
inductive Goes (w : Waiting) (rounds : List Round) : Prop
  | completes (front back : List Round) (split : rounds = front ++ back)
      (undecided : w.Undecided front) (finished : (w.afterAll front).pending = [])
  | fails (front back : List Round) (r : Round) (e : RunError) (split : rounds = front ++ r :: back)
      (undecided : w.Undecided front) (pending : (w.afterAll front).pending ≠ [])
      (verdict : (w.afterAll front).verdict? r = some e)
  | stops (front back : List Round) (r : Round) (split : rounds = front ++ r :: back)
      (undecided : w.Undecided front) (pending : (w.afterAll front).pending ≠ [])
      (verdict : (w.afterAll front).verdict? r = none) (stopped : r.stopped = true)
  | lasts (undecided : w.Undecided rounds) (pending : (w.afterAll rounds).pending ≠ [])

/-- Every wait goes in one of these ways. -/
theorem goes (w : Waiting) (rounds : List Round) : w.Goes rounds := by
  by_cases hpending : w.pending = []
  · exact .completes [] rounds rfl trivial hpending
  induction rounds generalizing w with
  | nil => exact .lasts trivial hpending
  | cons r rest ih =>
      cases hverdict : w.verdict? r with
      | some e => exact .fails [] rest r e rfl trivial hpending hverdict
      | none =>
          cases hstopped : r.stopped with
          | true => exact .stops [] rest r rfl trivial hpending hverdict hstopped
          | false =>
              -- The first round decides nothing, so the rest goes as the wait after it does.
              by_cases hafter : (w.after r).pending = []
              · exact .completes [r] rest rfl ⟨hverdict, hstopped, trivial⟩ hafter
              · cases ih (w.after r) hafter with
                | completes front back split undecided finished =>
                    exact .completes (r :: front) back (by rw [split, List.cons_append])
                      ⟨hverdict, hstopped, undecided⟩ finished
                | fails front back r' e split undecided pending verdict =>
                    exact .fails (r :: front) back r' e (by rw [split, List.cons_append])
                      ⟨hverdict, hstopped, undecided⟩ pending verdict
                | stops front back r' split undecided pending verdict stopped =>
                    exact .stops (r :: front) back r' (by rw [split, List.cons_append])
                      ⟨hverdict, hstopped, undecided⟩ pending verdict stopped
                | lasts undecided pending =>
                    exact .lasts ⟨hverdict, hstopped, undecided⟩ pending

theorem collect_of_completes {w : Waiting} {front : List Round} (hfront : w.Undecided front)
    (hnil : (w.afterAll front).pending = []) (back : List Round) :
    w.collect (front ++ back) = .complete (w.afterAll front).inOrder := by
  rw [collect_append hfront, collect_of_pending_nil hnil]

theorem collect_of_lasts {w : Waiting} {rounds : List Round} (h : w.Undecided rounds)
    (hpending : (w.afterAll rounds).pending ≠ []) : w.collect rounds = .unfinished := by
  have happend := collect_append h []
  rwa [List.append_nil, collect_nil_of_pending hpending] at happend

/-- A wait that ends with trees goes through rounds that decide nothing until no exchange is
pending. -/
theorem exists_of_collect_eq_complete {w : Waiting} {rounds : List Round} {trees : List MiniTree}
    (h : w.collect rounds = .complete trees) :
    ∃ front back, rounds = front ++ back ∧ w.Undecided front ∧
      (w.afterAll front).pending = [] ∧ trees = (w.afterAll front).inOrder := by
  cases w.goes rounds with
  | completes front back split undecided finished =>
      rw [split, collect_of_completes undecided finished, Ending.complete.injEq] at h
      exact ⟨front, back, split, undecided, finished, h.symm⟩
  | fails front back r e split undecided pending verdict =>
      rw [split, collect_append_of_verdict undecided pending verdict] at h
      cases h
  | stops front back r split undecided pending verdict stopped =>
      rw [split, collect_append_of_stopped undecided pending verdict stopped] at h
      cases h
  | lasts undecided pending =>
      rw [collect_of_lasts undecided pending] at h
      cases h

/-- A wait that fails does so at the first round that decides anything. -/
theorem exists_of_error?_collect {w : Waiting} {rounds : List Round} {e : RunError}
    (h : (w.collect rounds).error? = some e) :
    ∃ front r back, rounds = front ++ r :: back ∧ w.Undecided front ∧
      (w.afterAll front).pending ≠ [] ∧ (w.afterAll front).verdict? r = some e := by
  cases w.goes rounds with
  | completes front back split undecided finished =>
      rw [split, collect_of_completes undecided finished] at h
      cases h
  | fails front back r e' split undecided pending verdict =>
      rw [split, collect_append_of_verdict undecided pending verdict] at h
      exact ⟨front, r, back, split, undecided, pending, verdict.trans h⟩
  | stops front back r split undecided pending verdict stopped =>
      rw [split, collect_append_of_stopped undecided pending verdict stopped] at h
      cases h
  | lasts undecided pending =>
      rw [collect_of_lasts undecided pending] at h
      cases h

/-- A wait that is stopped has a round that is. -/
theorem exists_of_collect_eq_stopped {w : Waiting} {rounds : List Round} {chunks : List Nat}
    (h : w.collect rounds = .stopped chunks) : ∃ r ∈ rounds, r.stopped = true := by
  cases w.goes rounds with
  | completes front back split undecided finished =>
      rw [split, collect_of_completes undecided finished] at h
      cases h
  | fails front back r e split undecided pending verdict =>
      rw [split, collect_append_of_verdict undecided pending verdict] at h
      cases h
  | stops front back r split undecided pending verdict stopped =>
      exact ⟨r, split ▸ List.mem_append_right front List.mem_cons_self, stopped⟩
  | lasts undecided pending =>
      rw [collect_of_lasts undecided pending] at h
      cases h

/-- Once a wait has ended, later rounds change neither its error nor whether it breaks off. -/
theorem collect_append_of_ended {w : Waiting} {rounds : List Round}
    (h : w.collect rounds ≠ .unfinished) (more : List Round) :
    (w.collect (rounds ++ more)).error? = (w.collect rounds).error? ∧
      (w.collect (rounds ++ more)).isBroken = (w.collect rounds).isBroken := by
  cases w.goes rounds with
  | completes front back split undecided finished =>
      rw [split, List.append_assoc, collect_of_completes undecided finished,
        collect_of_completes undecided finished]
      exact ⟨rfl, rfl⟩
  | fails front back r e split undecided pending verdict =>
      rw [split, List.append_assoc, List.cons_append,
        collect_append_of_verdict undecided pending verdict,
        collect_append_of_verdict undecided pending verdict]
      exact ⟨rfl, rfl⟩
  | stops front back r split undecided pending verdict stopped =>
      rw [split, List.append_assoc, List.cons_append,
        collect_append_of_stopped undecided pending verdict stopped,
        collect_append_of_stopped undecided pending verdict stopped]
      exact ⟨rfl, rfl⟩
  | lasts undecided pending => exact absurd (collect_of_lasts undecided pending) h

/-- The error that one more round leads to, when the wait has not ended before, is its verdict. -/
theorem error?_collect_append_singleton {w : Waiting} {rounds : List Round}
    (h : w.collect rounds = .unfinished) (r : Round) :
    (w.collect (rounds ++ [r])).error? = (w.afterAll rounds).verdict? r := by
  cases w.goes rounds with
  | completes front back split undecided finished =>
      rw [split, collect_of_completes undecided finished] at h
      cases h
  | fails front back r e split undecided pending verdict =>
      rw [split, collect_append_of_verdict undecided pending verdict] at h
      cases h
  | stops front back r split undecided pending verdict stopped =>
      rw [split, collect_append_of_stopped undecided pending verdict stopped] at h
      cases h
  | lasts undecided pending =>
      rw [collect_append undecided, collect_cons pending]
      cases (w.afterAll rounds).verdict? r with
      | some e => rfl
      | none =>
          cases r.stopped with
          | true => rfl
          | false =>
              by_cases hnil : ((w.afterAll rounds).after r).pending = []
              · simp only [collect_of_pending_nil hnil]
                rfl
              · simp only [collect_nil_of_pending hnil]
                rfl

end Waiting

end SumTree
