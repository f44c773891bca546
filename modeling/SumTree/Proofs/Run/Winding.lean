import SumTree.Proofs.Run.Schedules
import SumTree.Run.Orchestrator

/-!
# Winding down

A run that fails tells its pending exchanges to end and waits for them: as long as the grace period
lasts, and after it for those that it has aborted. Meanwhile the exchanges go on in whatever order, each
of them finds the signal set and ends, and nobody knows when. So this is a machine, with one step for
each of the things that can happen, and what a run does to its pending exchanges is one of its courses
(`exists_course_of_drain`).

Two invariants carry everything. The run goes on only when no exchange is running (`none_running`), and
what has happened since the signal is of one form (`Recorded`): first some exchanges end, then all that
are still running are aborted, then these end. All courses of the same exchanges have the same events up
to the order in which the exchanges end (`perm_drain_of_over`).

An exchange has ended when nobody waits for it any more. With what outcome it ends does not matter, since
the run has failed already.

## Main Definitions

* `Progress.giveUp` — an exchange goes on that finds the signal set.
* `Progress.running`, `Proceedings.running` — the chunks whose exchanges have not ended.
* `Event.ended?` — the chunk whose exchange ends in an event.
* `Winding`, `Winding.Turn`, `Winding.after` — the machine.
* `Winding.course` — the state of the machine after some turns.
-/

namespace SumTree

/-! ### Exchanges that are told to end -/

namespace Progress

/-- The exchange goes on and finds the signal set. If it has not begun it sends nothing, and if it is
under way it takes its reply, or ends without it when there is none. -/
def giveUp (x : Progress) : Progress :=
  (x.begin true).wake true

/-- An exchange that finds the signal set ends. -/
theorem exists_outcome_giveUp (x : Progress) : ∃ outcome, x.giveUp.outcome? = some outcome := by
  obtain ⟨exchange, standing, sent⟩ := x
  cases standing with
  | waiting => exact ⟨_, rfl⟩
  | underway reply? =>
      cases reply? with
      | none => exact ⟨_, rfl⟩
      | some reply => exact ⟨_, rfl⟩
  | ended outcome => exact ⟨outcome, rfl⟩

theorem giveUp_of_outcome {x : Progress} {outcome : Outcome} (h : x.outcome? = some outcome) :
    x.giveUp = x := by
  obtain ⟨exchange, standing, sent⟩ := x
  cases standing with
  | ended outcome => rfl
  | _ => cases h

/-- The chunks whose exchanges have not ended, in order. -/
def running (progress : List Progress) : List Nat :=
  (List.range progress.length).filter fun chunk => (progress[chunk]?.bind outcome?).isNone

variable {progress : List Progress} {chunk : Nat}

theorem mem_running : chunk ∈ running progress ↔
    chunk < progress.length ∧ progress[chunk]?.bind outcome? = none := by
  rw [running, List.mem_filter, List.mem_range, Option.isNone_iff_eq_none]

theorem nodup_running (progress : List Progress) : (running progress).Nodup :=
  List.nodup_range.filter _

/-- Without a running exchange, all have ended. -/
theorem running_eq_nil_iff :
    running progress = [] ↔ ∀ x ∈ progress, ∃ outcome, x.outcome? = some outcome := by
  rw [List.eq_nil_iff_forall_not_mem]
  constructor
  · intro h x hx
    obtain ⟨i, hi, rfl⟩ := List.mem_iff_getElem.mp hx
    by_contra hnone
    refine h i (mem_running.mpr ⟨hi, ?_⟩)
    rw [List.getElem?_eq_getElem hi, Option.bind_some]
    exact Option.eq_none_iff_forall_ne_some.mpr fun outcome houtcome => hnone ⟨outcome, houtcome⟩
  · intro h i hi
    obtain ⟨hlt, hnone⟩ := mem_running.mp hi
    obtain ⟨outcome, houtcome⟩ := h progress[i] (List.getElem_mem hlt)
    rw [List.getElem?_eq_getElem hlt, Option.bind_some, houtcome] at hnone
    cases hnone

/-- An exchange that goes on is no longer running, and the others are as they were. -/
theorem running_modify (progress : List Progress) (chunk : Nat) :
    running (progress.modify chunk giveUp) = (running progress).filter (· != chunk) := by
  rw [running, running, List.length_modify, List.filter_filter]
  refine List.filter_congr fun i hi => ?_
  obtain ⟨x, hget⟩ : ∃ x, progress[i]? = some x :=
    ⟨_, List.getElem?_eq_getElem (List.mem_range.mp hi)⟩
  rw [List.getElem?_modify, hget]
  by_cases hsame : chunk = i
  · obtain ⟨outcome, houtcome⟩ := exists_outcome_giveUp x
    simp [hsame, houtcome]
  · simp [hsame, Ne.symm hsame]

/-- An exchange that is not running does not go on. -/
theorem modify_of_not_running (h : chunk ∉ running progress) :
    progress.modify chunk giveUp = progress := by
  refine List.ext_getElem? fun i => ?_
  rw [List.getElem?_modify]
  cases hx : progress[i]? with
  | none => rfl
  | some x =>
      by_cases hsame : chunk = i
      · subst hsame
        cases houtcome : x.outcome? with
        | none =>
            refine absurd (mem_running.mpr ⟨(List.getElem?_eq_some_iff.mp hx).1, ?_⟩) h
            rw [hx]
            exact houtcome
        | some outcome =>
            simp only [if_true, Option.map_eq_map, Option.map_some, giveUp_of_outcome houtcome]
      · simp [hsame]

end Progress

/-- The chunks whose exchanges have not ended, in order. -/
def Proceedings.running (p : Proceedings) : List Nat :=
  Progress.running p.progress

/-! ### The exchanges that end in some events -/

/-- The chunk whose exchange ends in an event. -/
def Event.ended? : Event → Option Nat
  | .ended chunk => some chunk
  | _ => none

namespace Event

theorem ended_map_ended (chunks : List Nat) :
    (chunks.map Event.ended).filterMap Event.ended? = chunks :=
  (List.filterMap_map ..).trans List.filterMap_some

theorem ended_map_aborted (chunks : List Nat) :
    (chunks.map Event.aborted).filterMap Event.ended? = [] :=
  (List.filterMap_map ..).trans (List.filterMap_eq_nil_iff.mpr fun _ _ => rfl)

/-- The exchanges that end are those of the events in which one does. -/
theorem mem_ended_iff {events : List Event} {chunk : Nat} :
    chunk ∈ events.filterMap Event.ended? ↔ .ended chunk ∈ events := by
  refine List.mem_filterMap.trans ⟨?_, fun h => ⟨_, h, rfl⟩⟩
  rintro ⟨event, hevent, hended⟩
  cases event with
  | ended i =>
      cases hended
      exact hevent
  | _ => cases hended

end Event

/-! ### The machine -/

/-- How far a run is that tells its exchanges to end. -/
inductive Winding.Stage
  /-- It waits, as long as the grace period lasts. -/
  | waits
  /-- It has aborted those that were still running, and waits for them. -/
  | aborts
  /-- It goes on. -/
  | over
  deriving DecidableEq

/-- A run that tells its exchanges to end: how they stand, how far it is, which of them it has aborted,
and what has happened since the signal. -/
structure Winding where
  progress : List Progress
  stage : Winding.Stage
  stragglers : List Nat
  events : List Event

/-- What can happen to it. -/
inductive Winding.Turn
  /-- The exchange of a chunk goes on. -/
  | goes (chunk : Nat)
  /-- The grace period is over. -/
  | expires
  /-- The run looks whether it may go on. -/
  | resumes

namespace Winding

open Orchestrator

/-- The chunks whose exchanges have not ended, in order. -/
def running (w : Winding) : List Nat :=
  Progress.running w.progress

/-- The warning that exchanges are aborted. -/
def lateness (grace : Number) (count : Nat) : Event :=
  warning (toString count ++ " executor(s) still running after " ++ Real64.fixed1 grace.toFloat
    ++ "s, aborting them")

/-- All exchanges that are still running are aborted. -/
def abort (grace : Number) (w : Winding) : Winding :=
  { w with
    stage := .aborts
    stragglers := w.running
    events := w.events ++ lateness grace w.running.length :: w.running.map .aborted }

/-- The exchange of a chunk goes on, and ends if it is running. -/
def goOn (w : Winding) (chunk : Nat) : Winding :=
  { w with
    progress := w.progress.modify chunk Progress.giveUp
    events := if chunk ∈ w.running then w.events ++ [.ended chunk] else w.events }

/-- The machine after one turn. Nobody is aborted twice, and the run goes on only when no exchange is
running. -/
def after (grace : Number) (w : Winding) : Turn → Winding
  | .goes chunk => w.goOn chunk
  | .expires => if w.stage = .waits ∧ w.running ≠ [] then w.abort grace else w
  | .resumes => if w.running = [] then { w with stage := .over } else w

/-- A run that has just told its exchanges to end. -/
def waiting (e : RunError) (p : Proceedings) : Winding :=
  ⟨p.progress, .waits, [], [announcement e p.running]⟩

/-- The machine when the signal is set after the failure of a run. Without a grace period it aborts at
once, and without a running exchange there is nothing to wait for. -/
def start (grace : Number) (e : RunError) (p : Proceedings) : Winding :=
  if p.running = [] then ⟨p.progress, .over, [], []⟩
  else if hasGrace grace then waiting e p
  else (waiting e p).abort grace

/-- The machine after some turns. -/
def afterAll (grace : Number) (w : Winding) (turns : List Turn) : Winding :=
  turns.foldl (after grace) w

/-- What becomes of the exchanges after some turns, from when the signal is set. -/
def course (grace : Number) (e : RunError) (p : Proceedings) (turns : List Turn) : Winding :=
  (start grace e p).afterAll grace turns

variable {grace : Number} {e : RunError} {p : Proceedings} {w : Winding}

@[simp] theorem abort_running (grace : Number) (w : Winding) :
    (w.abort grace).running = w.running := rfl

theorem afterAll_append (grace : Number) (w : Winding) (front back : List Turn) :
    w.afterAll grace (front ++ back) = (w.afterAll grace front).afterAll grace back :=
  List.foldl_append

theorem goOn_running (w : Winding) (chunk : Nat) :
    (w.goOn chunk).running = w.running.filter (· != chunk) :=
  Progress.running_modify w.progress chunk

theorem goOn_of_not_running {chunk : Nat} (h : chunk ∉ w.running) : w.goOn chunk = w := by
  rw [goOn, if_neg h, Progress.modify_of_not_running h]

theorem nodup_running (w : Winding) : w.running.Nodup :=
  Progress.nodup_running w.progress

/-- One of the running exchanges ends, and the others are left. -/
theorem perm_goOn_running {chunk : Nat} (h : chunk ∈ w.running) :
    w.running.Perm (chunk :: (w.goOn chunk).running) := by
  rw [goOn_running, ← w.nodup_running.erase_eq_filter chunk]
  exact List.perm_cons_erase h

/-! ### Invariants -/

/-- What holds at the start and is kept by every turn holds after any turns. -/
theorem course_induction {P : Winding → Prop} (hstart : P (start grace e p))
    (hafter : ∀ w turn, P w → P (after grace w turn)) (turns : List Turn) :
    P (course grace e p turns) := by
  rw [course]
  generalize start grace e p = w at hstart
  induction turns generalizing w with
  | nil => exact hstart
  | cons turn rest ih => exact ih _ (hafter w turn hstart)

/-- The run has gone on only if no exchange is running. -/
def Settled (w : Winding) : Prop :=
  w.stage = .over → w.running = []

theorem settled_start (grace : Number) (e : RunError) (p : Proceedings) :
    (start grace e p).Settled := by
  unfold start
  split
  · rename_i hnone
    exact fun _ => hnone
  · split
    · intro hover
      cases hover
    · intro hover
      cases hover

theorem settled_after (h : w.Settled) (turn : Turn) : (after grace w turn).Settled := by
  cases turn with
  | goes chunk =>
      intro hover
      rw [after, goOn_running, h hover]
      rfl
  | expires =>
      rw [after]
      split
      · intro hover
        cases hover
      · exact h
  | resumes =>
      rw [after]
      split
      · rename_i hnone
        exact fun _ => hnone
      · exact h

/-- Whatever happens and in whatever order, the run goes on only when no exchange is running. -/
theorem none_running {turns : List Turn} (hover : (course grace e p turns).stage = .over) :
    (course grace e p turns).running = [] :=
  course_induction (settled_start grace e p) (fun _ turn h => settled_after h turn) turns hover

/-- What has happened to some pending exchanges since the signal. -/
inductive Recorded (grace : Number) (e : RunError) (pending : List Nat) (w : Winding) : Prop
  /-- There is no exchange to wait for. -/
  | idle (none : pending = []) (running : w.running = []) (stragglers : w.stragglers = [])
      (events : w.events = [])
  /-- The exchanges end one by one. -/
  | ending (early : List Nat) (nonempty : pending ≠ []) (split : (early ++ w.running).Perm pending)
      (stragglers : w.stragglers = [])
      (events : w.events = announcement e pending :: early.map .ended)
  /-- Those that were still running have been aborted, and end one by one. -/
  | aborting (early late : List Nat) (stage : w.stage ≠ .waits) (some : w.stragglers ≠ [])
      (split : (early ++ w.stragglers).Perm pending) (rest : (late ++ w.running).Perm w.stragglers)
      (events : w.events = announcement e pending :: (early.map .ended ++
        lateness grace w.stragglers.length :: (w.stragglers.map .aborted ++ late.map .ended)))

/-- A running exchange is aborted when those before it have ended. -/
theorem recorded_abort {pending early : List Nat} (hsplit : (early ++ w.running).Perm pending)
    (hevents : w.events = announcement e pending :: early.map .ended) (hrunning : w.running ≠ []) :
    (w.abort grace).Recorded grace e pending := by
  refine .aborting early [] nofun hrunning hsplit (List.Perm.refl _) ?_
  rw [abort, hevents, List.map_nil, List.append_nil]
  rfl

theorem recorded_start (grace : Number) (e : RunError) (p : Proceedings) :
    (start grace e p).Recorded grace e p.running := by
  unfold start
  split
  · rename_i hnone
    exact .idle hnone hnone rfl rfl
  · rename_i hsome
    split
    · exact .ending [] hsome (List.Perm.refl _) rfl rfl
    · exact recorded_abort (List.Perm.refl ([] ++ p.running)) rfl hsome

/-- A running exchange that goes on is the next one that ends. -/
theorem recorded_goOn {pending : List Nat} {chunk : Nat} (hrunning : chunk ∈ w.running)
    (h : w.Recorded grace e pending) : (w.goOn chunk).Recorded grace e pending := by
  have hnext := perm_goOn_running hrunning
  have hmoved : ∀ ended : List Nat,
      ((ended ++ [chunk]) ++ (w.goOn chunk).running).Perm (ended ++ w.running) := by
    intro ended
    rw [List.append_assoc]
    exact hnext.symm.append_left ended
  have hlogged : (w.goOn chunk).events = w.events ++ [.ended chunk] := if_pos hrunning
  cases h with
  | idle none running stragglers events =>
      rw [running] at hrunning
      cases hrunning
  | ending early nonempty split stragglers events =>
      refine .ending (early ++ [chunk]) nonempty ((hmoved early).trans split) stragglers ?_
      rw [hlogged, events, List.map_append]
      rfl
  | aborting early late stage some split rest events =>
      refine .aborting early (late ++ [chunk]) stage some split ((hmoved late).trans rest) ?_
      rw [hlogged, events, List.map_append]
      simp [goOn]

theorem recorded_after {pending : List Nat} (h : w.Recorded grace e pending) (turn : Turn) :
    (after grace w turn).Recorded grace e pending := by
  cases turn with
  | goes chunk =>
      rw [after]
      by_cases hrunning : chunk ∈ w.running
      · exact recorded_goOn hrunning h
      · rw [goOn_of_not_running hrunning]
        exact h
  | expires =>
      rw [after]
      split
      · rename_i hwaits
        cases h with
        | idle none running stragglers events => exact absurd running hwaits.2
        | ending early nonempty split stragglers events => exact recorded_abort split events hwaits.2
        | aborting early late stage some split rest events => exact absurd hwaits.1 stage
      · exact h
  | resumes =>
      rw [after]
      split
      · cases h with
        | idle none running stragglers events => exact .idle none running stragglers events
        | ending early nonempty split stragglers events =>
            exact .ending early nonempty split stragglers events
        | aborting early late stage some split rest events =>
            exact .aborting early late nofun some split rest events
      · exact h

/-- What has happened is of this form after any turns. -/
theorem recorded_course (grace : Number) (e : RunError) (p : Proceedings) (turns : List Turn) :
    (course grace e p turns).Recorded grace e p.running :=
  course_induction (recorded_start grace e p) (fun _ turn h => recorded_after h turn) turns

/-! ### What has happened when the run goes on -/

section Over

variable {turns : List Turn}

/-- An exchange is aborted when it is one of the stragglers, and it ends after that. -/
theorem exists_split_of_straggler (hover : (course grace e p turns).stage = .over) {chunk : Nat}
    (h : chunk ∈ (course grace e p turns).stragglers) :
    ∃ front back, (course grace e p turns).events = front ++ .aborted chunk :: back ∧
      .ended chunk ∉ front ∧ .ended chunk ∈ back := by
  cases recorded_course grace e p turns with
  | idle none running stragglers events =>
      rw [stragglers] at h
      cases h
  | ending early nonempty split stragglers events =>
      rw [stragglers] at h
      cases h
  | aborting early late stage some split rest events =>
      rw [none_running hover, List.append_nil] at rest
      obtain ⟨first, last, hsplit⟩ := List.append_of_mem h
      have hearly : chunk ∉ early := by
        have hnodup := (split.nodup_iff).mpr (Progress.nodup_running p.progress)
        exact fun hmem => (List.nodup_append.mp hnodup).2.2 chunk hmem chunk h rfl
      refine ⟨announcement e p.running :: (early.map .ended ++ lateness grace
          (course grace e p turns).stragglers.length :: first.map .aborted),
        last.map .aborted ++ late.map .ended, ?_, ?_, ?_⟩
      · rw [events]
        nth_rewrite 2 [hsplit]
        simp only [List.map_append, List.map_cons, List.append_assoc, List.cons_append]
      · simp [announcement, lateness, warning, hearly]
      · exact List.mem_append_right _ (List.mem_map_of_mem (rest.mem_iff.mpr h))

/-- No other exchange is aborted. -/
theorem mem_stragglers_iff {chunk : Nat} :
    .aborted chunk ∈ (course grace e p turns).events ↔
      chunk ∈ (course grace e p turns).stragglers := by
  cases recorded_course grace e p turns with
  | idle none running stragglers events => simp [events, stragglers]
  | ending early nonempty split stragglers events => simp [events, stragglers, announcement, warning]
  | aborting early late stage some split rest events =>
      rw [events]
      simp [announcement, lateness, warning]

/-- Every pending exchange ends once before the run goes on, and no other does. -/
theorem perm_ended_of_over (hover : (course grace e p turns).stage = .over) :
    ((course grace e p turns).events.filterMap Event.ended?).Perm p.running := by
  have hnone := none_running hover
  have hannounced : ∀ rest : List Event, (announcement e p.running :: rest).filterMap Event.ended? =
      rest.filterMap Event.ended? := fun _ => rfl
  cases recorded_course grace e p turns with
  | idle none running stragglers events =>
      rw [events, none]
      exact List.Perm.refl _
  | ending early nonempty split stragglers events =>
      rw [hnone, List.append_nil] at split
      rw [events, hannounced, Event.ended_map_ended]
      exact split
  | aborting early late stage some split rest events =>
      rw [hnone, List.append_nil] at rest
      have hlate : ∀ rest : List Event, (lateness grace
          (course grace e p turns).stragglers.length :: rest).filterMap Event.ended? =
          rest.filterMap Event.ended? := fun _ => rfl
      rw [events, hannounced, List.filterMap_append, hlate, List.filterMap_append,
        Event.ended_map_ended, Event.ended_map_ended, Event.ended_map_aborted, List.nil_append]
      exact (rest.append_left early).trans split

/-- Without a grace period all pending exchanges are aborted. -/
theorem stragglers_of_no_grace (hgrace : hasGrace grace = false) (turns : List Turn) :
    (course grace e p turns).stage ≠ .waits ∧ (course grace e p turns).stragglers = p.running := by
  refine course_induction (P := fun w => w.stage ≠ .waits ∧ w.stragglers = p.running) ?_ ?_ turns
  · unfold start
    split
    · rename_i hnone
      exact ⟨nofun, hnone.symm⟩
    · rw [hgrace, if_neg Bool.false_ne_true]
      exact ⟨nofun, rfl⟩
  · rintro w turn ⟨hstage, hstragglers⟩
    cases turn with
    | goes chunk => exact ⟨hstage, hstragglers⟩
    | expires =>
        rw [after, if_neg fun h => hstage h.1]
        exact ⟨hstage, hstragglers⟩
    | resumes =>
        rw [after]
        split
        · exact ⟨nofun, hstragglers⟩
        · exact ⟨hstage, hstragglers⟩

/-- Whatever happened and in whatever order: up to the order in which exchanges end, it is what a run
does to its pending exchanges when the stragglers are those that resist. -/
theorem perm_drain_of_over (hover : (course grace e p turns).stage = .over) :
    (course grace e p turns).events.Perm
      (drain grace e p.running (course grace e p turns).stragglers) := by
  have hnone := none_running hover
  have hstragglers : (if hasGrace grace then (course grace e p turns).stragglers else p.running) =
      (course grace e p turns).stragglers := by
    cases hgrace : hasGrace grace with
    | true => rfl
    | false => exact (stragglers_of_no_grace hgrace turns).2.symm
  rw [drain, hstragglers]
  cases recorded_course grace e p turns with
  | idle none running stragglers events => simp [none, events]
  | ending early nonempty split stragglers events =>
      rw [hnone, List.append_nil] at split
      rw [events, stragglers, if_neg (by simpa using nonempty)]
      exact (split.map Event.ended).cons _
  | aborting early late stage some split rest events =>
      rw [hnone, List.append_nil] at rest
      have hpending : p.running ≠ [] := by
        intro hempty
        rw [hempty] at split
        exact some (List.append_eq_nil_iff.mp split.eq_nil).2
      have hearly : early.Perm (p.running.filter fun chunk =>
          !(course grace e p turns).stragglers.contains chunk) := by
        have hnodup := (split.nodup_iff).mpr (Progress.nodup_running p.progress)
        refine List.Perm.trans ?_ (split.filter _)
        have hkept : early.filter (fun chunk =>
            !(course grace e p turns).stragglers.contains chunk) = early := by
          refine List.filter_eq_self.mpr fun chunk hchunk => ?_
          have hapart := fun h => (List.nodup_append.mp hnodup).2.2 chunk hchunk chunk h rfl
          simpa using hapart
        have hdropped : (course grace e p turns).stragglers.filter (fun chunk =>
            !(course grace e p turns).stragglers.contains chunk) = [] := by
          refine List.filter_eq_nil_iff.mpr fun chunk hchunk => ?_
          simpa using hchunk
        rw [List.filter_append, hkept, hdropped, List.append_nil]
      rw [events, if_neg (by simpa using hpending), if_neg (by simpa using some)]
      exact ((hearly.map Event.ended).append
        ((((rest.map Event.ended).append_left _)).cons _)).cons _

end Over

/-! ### What a run does to its pending exchanges -/

/-- Running exchanges that go on one after the other end in this order. -/
theorem afterAll_goes (grace : Number) {chunks : List Nat} (hnodup : chunks.Nodup)
    (hrunning : ∀ chunk ∈ chunks, chunk ∈ w.running) :
    let next := w.afterAll grace (chunks.map .goes)
    next.events = w.events ++ chunks.map .ended ∧
      next.running = w.running.filter (fun chunk => !chunks.contains chunk) ∧
      next.stage = w.stage ∧ next.stragglers = w.stragglers := by
  induction chunks generalizing w with
  | nil => simp [afterAll]
  | cons chunk rest ih =>
      obtain ⟨hfresh, hnodup⟩ := List.nodup_cons.mp hnodup
      obtain ⟨hhere, hrest⟩ := List.forall_mem_cons.mp hrunning
      have hrest' : ∀ other ∈ rest, other ∈ (w.goOn chunk).running := by
        intro other hother
        rw [goOn_running]
        refine List.mem_filter.mpr ⟨hrest other hother, ?_⟩
        exact bne_iff_ne.mpr fun hsame => hfresh (hsame ▸ hother)
      obtain ⟨hevents, hleft, hstage, hstragglers⟩ := ih hnodup hrest'
      refine ⟨?_, ?_, hstage, hstragglers⟩
      · refine hevents.trans ?_
        rw [goOn, if_pos hhere, List.append_assoc]
        rfl
      · refine hleft.trans ?_
        rw [goOn_running, List.filter_filter]
        refine List.filter_congr fun other _ => ?_
        rw [List.contains_cons, Bool.not_or, Bool.and_comm]
        rfl

/-- When all running exchanges have gone on, the run goes on. -/
theorem afterAll_resumes (grace : Number) (w : Winding) :
    let next := w.afterAll grace (w.running.map .goes ++ [.resumes])
    next.stage = .over ∧ next.events = w.events ++ w.running.map .ended ∧
      next.stragglers = w.stragglers := by
  obtain ⟨hevents, hleft, -, hstragglers⟩ := afterAll_goes grace w.nodup_running fun _ h => h
  have hnone : (w.afterAll grace (w.running.map .goes)).running = [] := by
    refine hleft.trans (List.filter_eq_nil_iff.mpr fun chunk hchunk => ?_)
    simpa using hchunk
  have hnext : w.afterAll grace (w.running.map .goes ++ [.resumes]) =
      { w.afterAll grace (w.running.map .goes) with stage := .over } := by
    rw [afterAll_append]
    exact if_pos hnone
  rw [hnext]
  exact ⟨rfl, hevents, hstragglers⟩

/-- When those have gone on that do not resist, and the grace period is over, the others are aborted. -/
theorem afterAll_expires (grace : Number) (hwaits : w.stage = .waits) {late : List Nat}
    (hsome : late ≠ []) (hlate : w.running.filter late.contains = late) :
    let early := w.running.filter fun chunk => !late.contains chunk
    let next := w.afterAll grace (early.map .goes ++ [.expires])
    next.running = late ∧ next.stragglers = late ∧
      next.events = w.events ++ early.map .ended ++ lateness grace late.length ::
        late.map .aborted := by
  intro early
  obtain ⟨hevents, hleft, hstage, -⟩ := afterAll_goes grace
    (w.nodup_running.filter fun chunk => !late.contains chunk)
    fun chunk hchunk => (List.mem_filter.mp hchunk).1
  have hrunning : (w.afterAll grace (early.map .goes)).running = late := by
    refine Eq.trans ?_ hlate
    refine hleft.trans (List.filter_congr fun chunk hchunk => ?_)
    simp [hchunk]
  have hnext : w.afterAll grace (early.map .goes ++ [.expires]) =
      (w.afterAll grace (early.map .goes)).abort grace := by
    rw [afterAll_append]
    exact if_pos ⟨hstage.trans hwaits, hrunning ▸ hsome⟩
  rw [hnext]
  refine ⟨hrunning, hrunning, ?_⟩
  rw [abort, hrunning, hevents]

/-- What a run does to its pending exchanges is a course of the machine that is over: those that do not
resist go on within the grace period, and the others once they are aborted. -/
theorem exists_course_of_drain (grace : Number) (e : RunError) (p : Proceedings)
    (resists : Nat → Bool) :
    ∃ turns, (course grace e p turns).stage = .over ∧
      (course grace e p turns).events = drain grace e p.running (p.running.filter resists) ∧
      (course grace e p turns).stragglers =
        if hasGrace grace then p.running.filter resists else p.running := by
  by_cases hnone : p.running = []
  · exact ⟨[], by simp [course, afterAll, start, hnone, drain]⟩
  have hsome : p.running.isEmpty = false := by simpa using hnone
  cases hgrace : hasGrace grace with
  | false =>
      have hstart : start grace e p = (waiting e p).abort grace := by
        rw [start, if_neg hnone, hgrace, if_neg Bool.false_ne_true]
      have hearly : p.running.filter (fun chunk => !p.running.contains chunk) = [] := by
        refine List.filter_eq_nil_iff.mpr fun chunk hchunk => ?_
        simpa using hchunk
      obtain ⟨hover, hevents, hstragglers⟩ := afterAll_resumes grace ((waiting e p).abort grace)
      refine ⟨p.running.map .goes ++ [.resumes], ?_⟩
      rw [course, hstart]
      refine ⟨hover, hevents.trans ?_, hstragglers⟩
      simp only [drain, hsome, hgrace, Bool.false_eq_true, if_false, hearly]
      rfl
  | true =>
      have hstart : start grace e p = waiting e p := by
        rw [start, if_neg hnone, hgrace, if_pos rfl]
      have hlate : p.running.filter (p.running.filter resists).contains = p.running.filter resists := by
        refine List.filter_congr fun chunk hchunk => ?_
        simp [hchunk]
      generalize p.running.filter resists = late at hlate
      by_cases hnobody : late = []
      · obtain ⟨hover, hevents, hstragglers⟩ := afterAll_resumes grace (waiting e p)
        refine ⟨p.running.map .goes ++ [.resumes], ?_⟩
        rw [course, hstart, hnobody]
        refine ⟨hover, hevents.trans ?_, hstragglers⟩
        simp only [drain, hsome, hgrace, Bool.false_eq_true, if_false]
        rfl
      · obtain ⟨hrunning, hlisted, hbefore⟩ :=
          afterAll_expires (w := waiting e p) grace rfl hnobody hlate
        generalize ((waiting e p).running.filter fun chunk => !late.contains chunk).map Turn.goes ++
          [.expires] = turns at hrunning hlisted hbefore
        obtain ⟨hover, hevents, hstragglers⟩ :=
          afterAll_resumes grace ((waiting e p).afterAll grace turns)
        refine ⟨turns ++ (((waiting e p).afterAll grace turns).running.map .goes ++ [.resumes]), ?_⟩
        rw [course, hstart, afterAll_append]
        refine ⟨hover, hevents.trans ?_, hstragglers.trans hlisted⟩
        have hsome' : late.isEmpty = false := by simpa using hnobody
        rw [hbefore, hrunning]
        simp only [drain, hsome, hgrace, hsome', Bool.false_eq_true, if_false, if_true,
          List.append_assoc, List.cons_append]
        rfl

end Winding

end SumTree
