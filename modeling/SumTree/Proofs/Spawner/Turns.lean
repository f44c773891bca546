import SumTree.Proofs.Spawner.Recorded

/-!
# What a call does

What one call does to a recorded spawner. A release gives every listed handle its turn, in order and
whatever fails: a handle that is not live is left alone, a live one is taken down, or the attempt fails
(`Provider.perform_release`). An acquisition enters the handles that were made, or attempts to take
down all of them when their number is wrong (`Provider.perform_acquire`).

## Main Definitions

* `Turn` — a listed handle and what became of it.
* `Walk` — the turns of a release, with the live handles before and after.
-/

namespace SumTree

/-- What became of a listed handle at its turn. -/
inductive Fate
  | notLive
  | failed (failure : Failure)
  | tornDown

/-- A listed handle, and what became of it at its turn. -/
structure Turn where
  handle : Handle
  fate : Fate

namespace Turn

/-- What is asked of the provider at a turn. -/
def asked : Turn → List Asked
  | ⟨_, .notLive⟩ => []
  | ⟨h, .failed failure⟩ => [.teardown h (.error failure)]
  | ⟨h, .tornDown⟩ => [.teardown h (.ok ())]

/-- What is reported of a turn. -/
def leftovers : Turn → List Leftover
  | ⟨h, .notLive⟩ => [⟨h, "not live (already released or unknown)"⟩]
  | ⟨h, .failed failure⟩ => [⟨h, failure.inFull⟩]
  | ⟨_, .tornDown⟩ => []

/-- The handle that is taken down at a turn. -/
def released : Turn → List Handle
  | ⟨h, .tornDown⟩ => [h]
  | _ => []

theorem leftovers_eq_nil_iff {turn : Turn} : turn.leftovers = [] ↔ turn.fate = .tornDown := by
  obtain ⟨h, fate⟩ := turn
  cases fate with
  | notLive => simp [leftovers]
  | failed failure => simp [leftovers]
  | tornDown => simp [leftovers]

end Turn

/-- The turns of a release, with the live handles before and after. -/
inductive Walk : List Handle → List Turn → List Handle → Prop
  | nil (live : List Handle) : Walk live [] live
  | notLive {live last : List Handle} {h : Handle} {rest : List Turn}
    (hfind : Ledger.find? live h.token ≠ some h) (hrest : Walk live rest last) :
    Walk live (⟨h, .notLive⟩ :: rest) last
  | failed {live last : List Handle} {h : Handle} {failure : Failure} {rest : List Turn}
    (hfind : Ledger.find? live h.token = some h) (hrest : Walk live rest last) :
    Walk live (⟨h, .failed failure⟩ :: rest) last
  | tornDown {live last : List Handle} {h : Handle} {rest : List Turn}
    (hfind : Ledger.find? live h.token = some h)
    (hrest : Walk (Ledger.strike live h.token) rest last) :
    Walk live (⟨h, .tornDown⟩ :: rest) last

namespace Walk

variable {live last : List Handle} {turns : List Turn}

/-- When nothing is taken down the live handles stay. -/
theorem live_eq (h : Walk live turns last) (hreleased : turns.flatMap Turn.released = []) :
    last = live := by
  induction h with
  | nil live => rfl
  | notLive hfind hrest ih => exact ih hreleased
  | failed hfind hrest ih => exact ih hreleased
  | tornDown hfind hrest ih => exact absurd hreleased (List.cons_ne_nil _ _)

/-- No handle becomes live in the course of a release. -/
theorem subset (h : Walk live turns last) : last ⊆ live := by
  induction h with
  | nil live => exact List.Subset.refl live
  | notLive hfind hrest ih => exact ih
  | failed hfind hrest ih => exact ih
  | tornDown hfind hrest ih => exact fun x hx => (Ledger.mem_strike.mp (ih hx)).1

/-- Every handle that is not live any more was taken down, or another one with its token. -/
theorem mem_or_released (h : Walk live turns last) {x : Handle} (hx : x ∈ live) :
    x ∈ last ∨ ∃ h ∈ turns.flatMap Turn.released, h.token = x.token := by
  induction h with
  | nil live => exact .inl hx
  | notLive hfind hrest ih => exact ih hx
  | failed hfind hrest ih => exact ih hx
  | @tornDown live last h rest hfind hrest ih =>
      have hreleased : (Turn.mk h .tornDown :: rest).flatMap Turn.released =
          h :: rest.flatMap Turn.released := rfl
      rw [hreleased]
      by_cases htoken : x.token = h.token
      · exact .inr ⟨h, List.mem_cons_self, htoken.symm⟩
      · rcases ih (Ledger.mem_strike.mpr ⟨hx, htoken⟩) with hlast | ⟨h', hh', htoken'⟩
        · exact .inl hlast
        · exact .inr ⟨h', List.mem_cons_of_mem h hh', htoken'⟩

end Walk

/-- What is asked for while handles are taken down that never became live. -/
inductive Discards : List Handle → List Asked → Prop
  | nil : Discards [] []
  | cons {handles : List Handle} {asked : List Asked} (h : Handle) (result : Except Failure Unit)
    (hrest : Discards handles asked) : Discards (h :: handles) (.teardown h result :: asked)

/-- An acquisition: the handles live before, what is asked for, the handles given, and those live
after. -/
inductive Acquisition : List Handle → List Asked → List Handle → List Handle → Prop
  | refused (live : List Handle) : Acquisition live [] [] live
  | failed (live : List Handle) (count : Nat) (failure : Failure) :
    Acquisition live [.provision count (.error failure)] [] live
  | miscounted {live handles : List Handle} {count : Nat} {asked : List Asked}
    (h : Discards handles asked) :
    Acquisition live (.provision count (.ok handles) :: asked) [] live
  | made (live : List Handle) (count : Nat) (handles : List Handle) :
    Acquisition live [.provision count (.ok handles)] handles (handles.foldl Ledger.enter live)

/-- How a release ends whose handles had their turns, given all that is to be reported. -/
def verdict (failures : List Leftover) : Except Failure Unit :=
  if failures.isEmpty then .ok () else .error (.run (.cleanup ⟨failures⟩))

/-- A release that is finished succeeds exactly when every listed handle was taken down and nothing
remains to be reported. -/
theorem verdict_eq_ok_iff {turns : List Turn} {reports : List Leftover} :
    verdict (turns.flatMap Turn.leftovers ++ reports) = .ok () ↔
      (∀ turn ∈ turns, turn.fate = .tornDown) ∧ reports = [] := by
  have hverdict : ∀ failures, verdict failures = .ok () ↔ failures = [] := by
    intro failures
    cases failures with
    | nil => simp [verdict]
    | cons failure rest => simp [verdict]
  rw [hverdict, List.append_eq_nil_iff, List.flatMap_eq_nil_iff]
  simp only [Turn.leftovers_eq_nil_iff]

/-- The request to finish a release, made only when a handle was taken down. -/
def finishing (live released : List Handle) (late : Except Failure (List Leftover)) : List Asked :=
  if released.isEmpty then [] else [.finish live released late]

namespace Provider

open SumTree.Action

variable {σ : Type} (p : Provider σ)

/-- A request to the provider leaves the live handles alone and is remembered with its result. -/
theorem exists_noted {α : Type} {request : Action (Recorded σ) α} {a : Action σ α}
    {note : Except Failure α → Asked} (h : request = Recorded.noting a note)
    (w : Logged (Ledger (Recorded σ))) :
    ∃ result after, (onInner request).perform w = (result, after) ∧
      after.state.live = w.state.live ∧
      after.state.inner.asked = w.state.inner.asked ++ [note result] := by
  subst h
  exact ⟨_, _, rfl, rfl, rfl⟩

/-! ### Releasing -/

/-- One handle has its turn. -/
theorem perform_releaseOne (done : Released) (h : Handle) (w : Logged (Ledger (Recorded σ))) :
    ∃ turn after, turn.handle = h ∧
      (∀ rest last, Walk after.state.live rest last → Walk w.state.live (turn :: rest) last) ∧
      after.state.inner.asked = w.state.inner.asked ++ turn.asked ∧
      (p.recorded.releaseOne done h).perform w =
        (.ok ⟨done.failures ++ turn.leftovers, done.released ++ turn.released⟩, after) := by
  unfold releaseOne
  rw [perform_bind_ok (perform_state w)]
  by_cases hfind : Ledger.find? w.state.live h.token = some h
  · rw [if_neg (by simp [hfind])]
    obtain ⟨result, after, hnoted, hlive, hasked⟩ :=
      exists_noted (show p.recorded.teardown h = Recorded.noting _ _ from rfl) w
    have hattempt : (attempt (onInner (p.recorded.teardown h))).perform w = (.ok result, after) := by
      rw [perform_attempt, hnoted]
    rw [perform_bind_ok hattempt]
    cases result with
    | ok u =>
        refine ⟨⟨h, .tornDown⟩,
          ⟨{ after.state with live := Ledger.strike after.state.live h.token }, after.journal⟩, rfl,
          ?_, hasked, ?_⟩
        · intro rest last hrest
          rw [hlive] at hrest
          exact .tornDown hfind hrest
        · rw [perform_bind_ok (perform_change _ after)]
          simp [Turn.leftovers, Turn.released]
    | error failure =>
        let text := "Failed to tear down worker " ++ h.address ++ ": " ++ failure.text
        refine ⟨⟨h, .failed failure⟩, ⟨after.state, after.journal ++ [⟨.warning, text⟩]⟩, rfl, ?_,
          hasked, ?_⟩
        · intro rest last hrest
          rw [hlive] at hrest
          exact .failed hfind hrest
        · rw [perform_bind_ok (perform_log .warning text after)]
          simp [Turn.leftovers, Turn.released]
  · rw [if_pos (by simpa using hfind)]
    refine ⟨⟨h, .notLive⟩, w, rfl, fun rest last hrest => .notLive hfind hrest,
      (List.append_nil _).symm, ?_⟩
    simp [Turn.leftovers, Turn.released]

/-- Every listed handle has its turn, in order. -/
theorem perform_releaseAll (handles : List Handle) (done : Released)
    (w : Logged (Ledger (Recorded σ))) :
    ∃ turns after, turns.map Turn.handle = handles ∧ Walk w.state.live turns after.state.live ∧
      after.state.inner.asked = w.state.inner.asked ++ turns.flatMap Turn.asked ∧
      (handles.foldlM p.recorded.releaseOne done).perform w =
        (.ok ⟨done.failures ++ turns.flatMap Turn.leftovers,
          done.released ++ turns.flatMap Turn.released⟩, after) := by
  induction handles generalizing done w with
  | nil =>
      refine ⟨[], w, rfl, .nil _, (List.append_nil _).symm, ?_⟩
      simp
  | cons h rest ih =>
      obtain ⟨turn, between, rfl, hwalk, hasked, hone⟩ := p.perform_releaseOne done h w
      obtain ⟨turns, after, rfl, hrest, hasked', hall⟩ := ih _ between
      refine ⟨turn :: turns, after, rfl, hwalk _ _ hrest, ?_, ?_⟩
      · rw [hasked', hasked, List.append_assoc, List.flatMap_cons]
      · rw [List.foldlM_cons, perform_bind_ok hone, hall]
        simp only [List.flatMap_cons, List.append_assoc]

theorem perform_conclude (count : Nat) (done : Released) (late : List Leftover)
    (w : Logged (Ledger σ)) :
    ∃ journal, (conclude count done late).perform w =
      (verdict (done.failures ++ late), ⟨w.state, journal⟩) := by
  let text := "Released " ++ toString done.released.length ++ " of " ++ toString count
    ++ " worker(s)"
  refine ⟨w.journal ++ [⟨.info, text⟩], ?_⟩
  rw [conclude, perform_bind_ok (perform_log .info text w), verdict]
  split
  · rfl
  · rfl

/-- A release: the turns of the handles, one request to finish if any of them was taken down, and the
report of everything. -/
theorem perform_release (handles : List Handle) (w : Logged (Ledger (Recorded σ))) :
    ∃ turns late, ∃ after : Logged (Ledger (Recorded σ)),
      turns.map Turn.handle = handles ∧
      Walk w.state.live turns after.state.live ∧
      (turns.flatMap Turn.released = [] → late = .ok []) ∧
      after.state.inner.asked = w.state.inner.asked ++ turns.flatMap Turn.asked ++
        finishing after.state.live (turns.flatMap Turn.released) late ∧
      (p.recorded.release handles).perform w =
        (late.bind fun reports => verdict (turns.flatMap Turn.leftovers ++ reports), after) := by
  obtain ⟨turns, between, hhandles, hwalk, hasked, hall⟩ :=
    p.perform_releaseAll handles ⟨[], []⟩ w
  rw [List.nil_append, List.nil_append] at hall
  rw [release_eq, perform_bind_ok hall]
  by_cases hnone : turns.flatMap Turn.released = []
  · obtain ⟨journal, hconclude⟩ :=
      perform_conclude handles.length ⟨turns.flatMap Turn.leftovers, []⟩ [] between
    rw [hnone, if_pos List.isEmpty_nil, hconclude]
    refine ⟨turns, .ok [], ⟨between.state, journal⟩, hhandles, hwalk, fun _ => rfl, ?_, rfl⟩
    rw [hasked, hnone, finishing, if_pos List.isEmpty_nil, List.append_nil]
  · have hsome : ¬ (turns.flatMap Turn.released).isEmpty = true := by
      rwa [List.isEmpty_iff]
    obtain ⟨late, after, hnoted, hlive, hasked'⟩ :=
      exists_noted (show p.recorded.finishRelease between.state.live
        (turns.flatMap Turn.released) = Recorded.noting _ _ from rfl) between
    rw [if_neg hsome, perform_bind_ok (perform_state between)]
    have hfinish : after.state.inner.asked = w.state.inner.asked ++ turns.flatMap Turn.asked ++
        finishing after.state.live (turns.flatMap Turn.released) late := by
      rw [hasked', hasked, finishing, if_neg hsome, hlive]
    cases late with
    | error failure =>
        rw [perform_bind_error hnoted]
        refine ⟨turns, .error failure, after, hhandles, ?_, fun h => absurd h hnone, hfinish, rfl⟩
        rw [hlive]
        exact hwalk
    | ok reports =>
        obtain ⟨journal, hconclude⟩ := perform_conclude handles.length
          ⟨turns.flatMap Turn.leftovers, turns.flatMap Turn.released⟩ reports after
        rw [perform_bind_ok hnoted, hconclude]
        refine ⟨turns, .ok reports, ⟨after.state, journal⟩, hhandles, ?_,
          fun h => absurd h hnone, hfinish, rfl⟩
        rw [hlive]
        exact hwalk

/-! ### Acquiring -/

/-- Every handle is to be taken down, whatever fails. -/
theorem perform_discard (handles : List Handle) (w : Logged (Recorded σ)) :
    ∃ asked after, Discards handles asked ∧ after.state.asked = w.state.asked ++ asked ∧
      (p.recorded.discard handles).perform w = (.ok (), after) := by
  induction handles generalizing w with
  | nil => exact ⟨[], w, .nil, (List.append_nil _).symm, rfl⟩
  | cons h rest ih =>
      obtain ⟨result, between, hnoted, hasked⟩ : ∃ result between,
          (p.recorded.teardown h).perform w = (result, between) ∧
            between.state.asked = w.state.asked ++ [.teardown h result] := ⟨_, _, rfl, rfl⟩
      have hattempt : (attempt (p.recorded.teardown h)).perform w = (.ok result, between) := by
        rw [perform_attempt, hnoted]
      rw [discard, perform_bind_ok hattempt]
      cases result with
      | ok u =>
          obtain ⟨asked, after, hrest, hasked', hdiscard⟩ := ih between
          refine ⟨_, after, .cons h (.ok u) hrest, ?_, hdiscard⟩
          rw [hasked', hasked, List.append_assoc, List.singleton_append]
      | error failure =>
          let text := "Failed to clean up worker " ++ h.address ++ " after provisioning error: "
            ++ failure.text
          obtain ⟨asked, after, hrest, hasked', hdiscard⟩ :=
            ih ⟨between.state, between.journal ++ [⟨.warning, text⟩]⟩
          refine ⟨_, after, .cons h (.error failure) hrest, ?_, ?_⟩
          · rw [hasked', hasked, List.append_assoc, List.singleton_append]
          · exact (perform_bind_ok (perform_log .warning text between)).trans hdiscard

theorem perform_acquire (count : Int) (w : Logged (Ledger (Recorded σ))) :
    ∃ asked result after, Acquisition w.state.live asked (handed result) after.state.live ∧
      after.state.inner.asked = w.state.inner.asked ++ asked ∧
      (p.recorded.acquire count).perform w = (result, after) := by
  unfold acquire
  split
  · exact ⟨[], _, w, .refused _, (List.append_nil _).symm, rfl⟩
  · let text := "Provisioning " ++ Decimal.render count ++ " " ++ p.recorded.kind.name ++ " worker(s)"
    rw [perform_bind_ok (perform_log .info text w)]
    obtain ⟨result, between, hnoted, hlive, hasked⟩ :=
      exists_noted (show p.recorded.provision count.toNat = Recorded.noting _ _ from rfl)
        ⟨w.state, w.journal ++ [⟨.info, text⟩]⟩
    cases result with
    | error failure =>
        rw [perform_bind_error hnoted]
        refine ⟨_, .error failure, between, ?_, hasked, rfl⟩
        rw [hlive]
        exact .failed _ _ _
    | ok handles =>
        rw [perform_bind_ok hnoted]
        split
        · obtain ⟨asked, after, hdiscards, hasked', hdiscard⟩ :=
            p.perform_discard handles (between.map Ledger.inner)
          have hinner : (onInner (p.recorded.discard handles)).perform between =
              (.ok (), ⟨{ between.state with inner := after.state }, after.journal⟩) := by
            rw [onInner, perform_onPart, hdiscard]
          rw [perform_bind_ok hinner]
          refine ⟨.provision count.toNat (.ok handles) :: asked, _, _, ?_, ?_, rfl⟩
          · show Acquisition w.state.live _ [] between.state.live
            rw [hlive]
            exact .miscounted hdiscards
          · rw [hasked', ← List.singleton_append, ← List.append_assoc]
            exact congrArg (· ++ asked) hasked
        · refine ⟨[.provision count.toNat (.ok handles)], .ok handles,
            ⟨{ between.state with live := handles.foldl Ledger.enter between.state.live },
              between.journal⟩, ?_, hasked, rfl⟩
          show Acquisition w.state.live _ handles (handles.foldl Ledger.enter between.state.live)
          rw [hlive]
          exact .made _ _ _

end Provider

end SumTree
