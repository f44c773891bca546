import SumTree.Proofs.Spawner.Action
import SumTree.Spawner.Ledger

/-!
# Calls of a spawner

A spawner gets acquisitions and releases, one after the other. A provider that is another one seen
through a projection of its state (`Provider.Seen`) makes a spawner that answers every sequence of
calls as the spawner of the other one does (`Provider.Seen.serve`): what a provider merely remembers
has no influence.

## Main Definitions

* `Call`, `Provider.serve` — the calls that a spawner gets, one after the other.
* `handed` — the handles that a call gives.
* `Ledger.through` — a ledger seen through a projection of its provider's state.
* `Provider.Seen` — a provider that is another one seen through a projection.
-/

namespace SumTree

/-- What a spawner is called for. -/
inductive Call
  | acquire (count : Int)
  | release (handles : List Handle)

variable {σ τ : Type}

/-- The handles that a call gives. -/
def handed : Except Failure (List Handle) → List Handle
  | .ok handles => handles
  | .error _ => []

theorem handed_map_nil (result : Except Failure Unit) : handed (result.map fun _ => []) = [] := by
  cases result with
  | ok u => rfl
  | error failure => rfl

/-- A ledger seen through a projection of its provider's state. -/
def Ledger.through (f : τ → σ) (l : Ledger τ) : Ledger σ :=
  ⟨l.live, f l.inner⟩

namespace Provider

/-- What a spawner does when it is called; a release gives no handles. -/
def answer (p : Provider σ) : Call → Action (Ledger σ) (List Handle)
  | .acquire count => p.acquire count
  | .release handles => do
    p.release handles
    return []

/-- Calls one after the other, whatever fails: what each of them gives, and what is left. -/
def serve (p : Provider σ) : List Call → Logged (Ledger σ) →
    List (Except Failure (List Handle)) × Logged (Ledger σ)
  | [], w => ([], w)
  | call :: rest, w =>
    let (result, after) := (p.answer call).perform w
    let (results, last) := p.serve rest after
    (result :: results, last)

theorem serve_cons (p : Provider σ) {call : Call} {rest : List Call}
    {w between after : Logged (Ledger σ)}
    {result : Except Failure (List Handle)} {results : List (Except Failure (List Handle))}
    (h : (p.answer call).perform w = (result, between))
    (hrest : p.serve rest between = (results, after)) :
    p.serve (call :: rest) w = (result :: results, after) := by
  rw [serve, h]
  show (result :: (p.serve rest between).1, (p.serve rest between).2) = _
  rw [hrest]

/-- The end of a release, once everything was attempted. -/
def conclude (count : Nat) (done : Released) (late : List Leftover) : Action (Ledger σ) Unit := do
  Action.log .info ("Released " ++ toString done.released.length ++ " of " ++ toString count
    ++ " worker(s)")
  if (done.failures ++ late).isEmpty then return ()
  else Action.fail (.run (.cleanup ⟨done.failures ++ late⟩))

/-- A release attempts every handle, finishes if any was taken down, and reports. -/
theorem release_eq (p : Provider σ) (handles : List Handle) :
    p.release handles = (do
      let done ← handles.foldlM p.releaseOne ⟨[], []⟩
      if done.released.isEmpty then conclude handles.length done []
      else
        let ledger ← Action.state
        let late ← onInner (p.finishRelease ledger.live done.released)
        conclude handles.length done late) := rfl

open SumTree.Action

/-- The state in which an acquisition asks its provider for workers. -/
def announced (p : Provider σ) (count : Int) (w : Logged (Ledger σ)) : Logged σ :=
  ⟨w.state.inner, w.journal ++ [⟨.info,
    "Provisioning " ++ Decimal.render count ++ " " ++ p.kind.name ++ " worker(s)"⟩]⟩

theorem perform_acquire_of_lt (p : Provider σ) {count : Int} (hcount : count < 1)
    (w : Logged (Ledger σ)) :
    (p.acquire count).perform w =
      (.error (.run (.provisioning count "worker count must be at least 1")), w) := by
  rw [acquire, if_pos hcount]
  rfl

/-- An acquisition from a provider that gives as many workers as it is asked for, if it gives any. -/
theorem perform_acquire_of_provision (p : Provider σ) (count : Int) (hcount : 1 ≤ count)
    {w : Logged (Ledger σ)} {result : Except Failure (List Handle)} {after : Logged σ}
    (hprovision : (p.provision count.toNat).perform (p.announced count w) = (result, after))
    (hnumber : ∀ handles, result = .ok handles → handles.length = count.toNat) :
    (p.acquire count).perform w = (result,
      ⟨⟨(handed result).foldl Ledger.enter w.state.live, after.state⟩, after.journal⟩) := by
  have hinner : (onInner (p.provision count.toNat)).perform ⟨w.state, (p.announced count w).journal⟩ =
      (result, ⟨{ w.state with inner := after.state }, after.journal⟩) := by
    have hpart : Logged.map Ledger.inner ⟨w.state, (p.announced count w).journal⟩ =
        p.announced count w := rfl
    rw [onInner, perform_onPart, hpart, hprovision]
  rw [acquire, if_neg (by omega), perform_bind_ok (perform_log _ _ w)]
  cases result with
  | error failure => exact perform_bind_error hinner
  | ok handles =>
      have hlength := hnumber handles rfl
      refine (perform_bind_ok hinner).trans ?_
      rw [if_neg (by simp; omega)]
      rfl

/-- An acquisition that gives workers has them from its provider, and enters them. -/
theorem of_perform_acquire (p : Provider σ) {count : Int} {w after : Logged (Ledger σ)}
    {handles : List Handle} (h : (p.acquire count).perform w = (.ok handles, after)) :
    (handles.length : Int) = count ∧ ∃ made,
      (p.provision count.toNat).perform (p.announced count w) = (.ok handles, made) ∧
      after = ⟨⟨handles.foldl Ledger.enter w.state.live, made.state⟩, made.journal⟩ := by
  unfold acquire at h
  split at h
  · cases h
  · obtain ⟨_, announced, hlog, h⟩ := exists_of_perform_bind h
    obtain ⟨found, provisioned, hprovision, h⟩ := exists_of_perform_bind h
    cases hlog
    have hpart : Logged.map Ledger.inner ⟨w.state, (p.announced count w).journal⟩ =
        p.announced count w := rfl
    change (onInner _).perform ⟨w.state, (p.announced count w).journal⟩ = _ at hprovision
    rw [onInner, perform_onPart, hpart] at hprovision
    cases hmade : (p.provision count.toNat).perform (p.announced count w) with
    | mk result made =>
        rw [hmade] at hprovision
        cases hprovision
        split at h
        · obtain ⟨-, discarded, -, h⟩ := exists_of_perform_bind h
          cases h
        · rename_i hlength
          cases h
          exact ⟨by simpa using hlength, made, rfl, rfl⟩

/-- The one provider is the other one seen through a projection of the states. -/
structure Seen (f : τ → σ) (p : Provider τ) (q : Provider σ) : Prop where
  kind : p.kind = q.kind
  provision : ∀ count, Projects f (p.provision count) (q.provision count)
  teardown : ∀ h, Projects f (p.teardown h) (q.teardown h)
  finishRelease : ∀ live released,
    Projects f (p.finishRelease live released) (q.finishRelease live released)

theorem projects_onInner {f : τ → σ} {α : Type} {a : Action τ α} {b : Action σ α}
    (h : Projects f a b) : Projects (Ledger.through f) (onInner a) (onInner b) :=
  .onPart (fun _ => rfl) (fun _ _ => rfl) h

namespace Seen

variable {f : τ → σ} {p : Provider τ} {q : Provider σ} (h : Seen f p q)

include h

theorem discard (handles : List Handle) : Projects f (p.discard handles) (q.discard handles) := by
  induction handles with
  | nil => exact .pure ()
  | cons x rest ih =>
      refine .bind (.attempt (h.teardown x)) fun result => ?_
      cases result with
      | ok u => exact .bind (.pure ()) fun _ => ih
      | error failure => exact .bind (.log _ _) fun _ => ih

theorem acquire (count : Int) :
    Projects (Ledger.through f) (p.acquire count) (q.acquire count) := by
  unfold Provider.acquire
  rw [h.kind]
  split
  · exact .fail _
  · refine .bind (.log _ _) fun _ => .bind (projects_onInner (h.provision _)) fun handles => ?_
    split
    · exact .bind (projects_onInner (h.discard handles)) fun _ => .fail _
    · exact .bind (.change fun _ => rfl) fun _ => .pure handles

theorem releaseOne (done : Released) (x : Handle) :
    Projects (Ledger.through f) (p.releaseOne done x) (q.releaseOne done x) := by
  refine .state_bind fun s => ?_
  show Projects _ (if _ then _ else _) (if Ledger.find? s.live x.token != some x then _ else _)
  split
  · exact .pure _
  · refine .bind (.attempt (projects_onInner (h.teardown x))) fun result => ?_
    cases result with
    | ok u => exact .bind (.change fun _ => rfl) fun _ => .pure _
    | error failure => exact .bind (.log _ _) fun _ => .pure _

theorem releaseAll (handles : List Handle) (done : Released) :
    Projects (Ledger.through f) (handles.foldlM p.releaseOne done)
      (handles.foldlM q.releaseOne done) := by
  induction handles generalizing done with
  | nil => exact .pure done
  | cons x rest ih =>
      rw [List.foldlM_cons, List.foldlM_cons]
      exact .bind (h.releaseOne done x) ih

theorem release (handles : List Handle) :
    Projects (Ledger.through f) (p.release handles) (q.release handles) := by
  have hconclude : ∀ done late,
      Projects (Ledger.through f) (conclude handles.length done late)
        (conclude handles.length done late) := by
    intro done late
    refine .bind (.log _ _) fun _ => ?_
    split
    · exact .pure _
    · exact .fail _
  rw [release_eq, release_eq]
  refine .bind (h.releaseAll handles _) fun done => ?_
  split
  · exact hconclude done []
  · exact .state_bind fun s => .bind (projects_onInner (h.finishRelease _ _)) (hconclude done)

theorem answer (call : Call) :
    Projects (Ledger.through f) (p.answer call) (q.answer call) := by
  cases call with
  | acquire count => exact h.acquire count
  | release handles => exact .bind (h.release handles) fun _ => .pure []

/-- The spawners of the two providers answer their calls in the same way. -/
theorem serve (calls : List Call) (w : Logged (Ledger τ)) :
    q.serve calls (w.map (Ledger.through f)) =
      ((p.serve calls w).1, (p.serve calls w).2.map (Ledger.through f)) := by
  induction calls generalizing w with
  | nil => rfl
  | cons call rest ih =>
      rw [Provider.serve, Provider.serve, h.answer call w]
      show (_ :: (q.serve rest _).1, (q.serve rest _).2) = _
      rw [ih]

end Seen

end Provider

end SumTree
