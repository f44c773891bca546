import SumTree.Proofs.Run.States

/-!
# Calls on one orchestrator

An orchestrator can be asked to run and to cancel again and again, also while a run of it is under
way. A session is an orchestrator in the course of such calls: a call to run begins a run, which then
enters one state after the other and answers at last, unless the call is answered at once because the
orchestrator is used. Between any two of these moments other calls may come.

One invariant holds of every session (`orderly_play`): its states are a path of the documented machine,
the ongoing run will continue that path, and whatever was answered fits the state of that moment. That
the orchestrator is still idle means that every run so far was asked for something that is no integer,
or for fewer than one executor with a number too long to be written; these are the ways in which an
orchestrator that was asked to run can be asked again.

## Main Definitions

* `Underway`, `Answered` — a run that goes on, and one that has answered.
* `Session`, `Move` — an orchestrator in the course of calls, and what can happen to it.
* `Session.after`, `Session.play` — the session after one move and after several.
* `Session.Orderly` — the invariant of sessions.

## Design Notes

What a cancellation does to the ongoing run is part of what the run meets with, so that a statement
about all circumstances covers every moment at which it can be asked for.
-/

namespace SumTree

/-- A run that goes on: the states that it is yet to enter, and how it will have gone. -/
structure Underway (σ : Type) where
  coming : List RunState
  report : Report σ

/-- A run that has answered, and the state at that moment. -/
structure Answered (σ : Type) where
  report : Report σ
  state : RunState

/-- An orchestrator in the course of the calls on it. -/
structure Session (σ : Type) where
  orchestrator : Orchestrator
  /-- The states entered so far, in order. -/
  passed : List RunState
  underway? : Option (Underway σ)
  answered : List (Answered σ)

/-- What can happen to an orchestrator. -/
inductive Move (σ : Type)
  | cancels
  /-- It is asked to run, with a spawner in some state. -/
  | runs (c : Circumstances σ) (entries : List Entry) (count : Count) (s : σ)
  /-- The ongoing run enters its next state or, after the last one, answers. -/
  | proceeds

namespace Session

variable {σ : Type}

/-- A new orchestrator. -/
def start : Session σ :=
  ⟨.idle, [], none, []⟩

/-- A run enters a state and goes on. -/
def enter (t : Session σ) (s : RunState) (u : Underway σ) : Session σ :=
  { t with
    orchestrator := { t.orchestrator with state := s }
    passed := t.passed ++ [s]
    underway? := some u }

/-- A run answers. -/
def answer (t : Session σ) (report : Report σ) : Session σ :=
  { t with answered := t.answered ++ [⟨report, t.orchestrator.state⟩] }

/-- The ongoing run goes on. -/
def proceed (t : Session σ) (u : Underway σ) : Session σ :=
  match u.coming with
  | [] => { t.answer u.report with underway? := none }
  | s :: rest => t.enter s ⟨rest, u.report⟩

/-- The session after a move. A run enters its first state before anything else can happen, and one
that enters no state answers at once. -/
def after (config : RunConfig) (t : Session σ) : Move σ → Session σ
  | .cancels => { t with orchestrator := t.orchestrator.cancel }
  | .runs c entries count s =>
    let report := t.orchestrator.runFor c config entries count s
    match report.entered with
    | [] => t.answer report
    | first :: rest => t.enter first ⟨rest, report⟩
  | .proceeds =>
    match t.underway? with
    | none => t
    | some u => t.proceed u

/-- The session of a new orchestrator after some moves. -/
def play (config : RunConfig) (moves : List (Move σ)) : Session σ :=
  moves.foldl (after config) start

theorem play_append (config : RunConfig) (moves more : List (Move σ)) :
    play config (moves ++ more) = more.foldl (after config) (play config moves) :=
  List.foldl_append

/-- All runs among some moves were asked for numbers of executors that are refused by a failure which
is no error of a run. -/
def Unreported (moves : List (Move σ)) : Prop :=
  ∀ c entries count s, .runs c entries count s ∈ moves → count.isUnreported = true

theorem unreported_concat (moves : List (Move σ)) (c : Circumstances σ) (entries : List Entry)
    (count : Count) (s : σ) :
    Unreported (moves ++ [.runs c entries count s]) ↔
      Unreported moves ∧ count.isUnreported = true := by
  constructor
  · intro h
    refine ⟨fun c' entries' count' s' hmem => ?_, ?_⟩
    · exact h c' entries' count' s' (List.mem_append_left _ hmem)
    · exact h c entries count s (List.mem_append_right _ (List.mem_singleton_self _))
  · rintro ⟨hbefore, hlast⟩ c' entries' count' s' hmem
    rcases List.mem_append.mp hmem with hearlier | hnow
    · exact hbefore c' entries' count' s' hearlier
    · cases List.mem_singleton.mp hnow
      exact hlast

theorem unreported_concat_of_ne (moves : List (Move σ)) (move : Move σ)
    (hmove : ∀ c entries count s, move ≠ .runs c entries count s) :
    Unreported (moves ++ [move]) ↔ Unreported moves := by
  refine forall_congr' fun c => forall_congr' fun entries => forall_congr' fun count =>
    forall_congr' fun s => ?_
  rw [List.mem_append, List.mem_singleton, or_iff_left (hmove c entries count s).symm]

/-- What holds of a session after some moves: its states are a path of the machine, which the ongoing
run continues to the state that it will answer in; the answers fit their states; and the orchestrator
is idle as long as no run was asked for that gets anywhere. -/
structure Orderly (moves : List (Move σ)) (t : Session σ) : Prop where
  path : RunState.Path .idle t.passed t.orchestrator.state
  going : ∀ u ∈ t.underway?, t.orchestrator.state ≠ .idle ∧
    RunState.Path t.orchestrator.state u.coming u.report.orchestrator.state ∧
      u.report.Answers u.report.orchestrator.state
  answered : ∀ a ∈ t.answered, a.report.Answers a.state
  idle : t.orchestrator.state = .idle ↔ Unreported moves

variable {config : RunConfig} {moves : List (Move σ)} {t : Session σ}

theorem orderly_start : (start : Session σ).Orderly [] where
  path := .stay _
  going u hu := by cases hu
  answered a ha := by cases ha
  idle := iff_of_true rfl fun c entries executors s h => by cases h

namespace Orderly

theorem cancel (h : t.Orderly moves) : (t.after config .cancels).Orderly (moves ++ [.cancels]) := by
  have hstate : (t.after config .cancels).orchestrator.state = t.orchestrator.state :=
    Orchestrator.cancel_state t.orchestrator
  refine ⟨?_, ?_, h.answered, ?_⟩
  · rw [hstate]
    exact h.path
  · rw [hstate]
    exact h.going
  · rw [hstate, h.idle]
    exact (unreported_concat_of_ne moves _ fun _ _ _ _ h => by cases h).symm

/-- A run that enters a state continues the path. -/
theorem enter (h : t.Orderly moves) {s final : RunState} {u : Underway σ} {next : List (Move σ)}
    (hpath : RunState.Path t.orchestrator.state (s :: u.coming) final)
    (hfinal : u.report.orchestrator.state = final) (hanswers : u.report.Answers final)
    (hnext : ¬ Unreported next) : (t.enter s u).Orderly next := by
  cases hpath with
  | go step onward =>
      have hne : s ≠ .idle := step.ne_idle
      refine ⟨h.path.append (.single step), ?_, h.answered, iff_of_false hne hnext⟩
      rintro _ ⟨⟩
      rw [hfinal]
      exact ⟨hne, onward, hanswers⟩

/-- Answers that fit the state are added to those that do. -/
theorem answer (h : t.Orderly moves) {report : Report σ}
    (hanswers : report.Answers t.orchestrator.state) :
    ∀ a ∈ (t.answer report).answered, a.report.Answers a.state := by
  intro a ha
  rcases List.mem_append.mp ha with hbefore | hnow
  · exact h.answered a hbefore
  · rw [List.mem_singleton.mp hnow]
    exact hanswers

theorem runs (h : t.Orderly moves) (c : Circumstances σ) (entries : List Entry) (count : Count)
    (s : σ) :
    (t.after config (.runs c entries count s)).Orderly
      (moves ++ [.runs c entries count s]) := by
  have hpath := Orchestrator.path_runFor t.orchestrator c config entries s count
  have hanswers := Orchestrator.answers_runFor t.orchestrator c config entries s count
  have hnone := Orchestrator.entered_runFor_eq_nil_iff t.orchestrator c config entries s count
  have hunreported := unreported_concat moves c entries count s
  generalize hreport : t.orchestrator.runFor c config entries count s = report at *
  simp only [after, hreport]
  cases hentered : report.entered with
  | nil =>
      rw [hentered] at hpath
      rw [hpath.eq_of_nil] at hanswers
      refine ⟨h.path, h.going, h.answer hanswers, ?_⟩
      rw [hunreported, ← h.idle]
      -- The run is answered at once: the orchestrator is used, or the number is not reported.
      rcases hnone.mp hentered with hused | hlong
      · exact iff_of_false hused fun both => hused both.1
      · exact (and_iff_left hlong).symm
  | cons first rest =>
      rw [hentered] at hpath
      refine h.enter (u := ⟨rest, report⟩) hpath rfl hanswers fun hall => ?_
      rw [hnone.mpr (.inr (hunreported.mp hall).2)] at hentered
      cases hentered

theorem proceed (h : t.Orderly moves) :
    (t.after config .proceeds).Orderly (moves ++ [.proceeds]) := by
  have hsame := unreported_concat_of_ne moves .proceeds fun _ _ _ _ h => by cases h
  rw [after]
  cases hunderway : t.underway? with
  | none => exact ⟨h.path, h.going, h.answered, h.idle.trans hsame.symm⟩
  | some u =>
      obtain ⟨hne, hpath, hanswers⟩ := h.going u hunderway
      dsimp only
      rw [Session.proceed]
      cases hcoming : u.coming with
      | nil =>
          rw [hcoming] at hpath
          rw [hpath.eq_of_nil] at hanswers
          refine ⟨h.path, ?_, h.answer hanswers, h.idle.trans hsame.symm⟩
          rintro _ ⟨⟩
      | cons s rest =>
          rw [hcoming] at hpath
          refine h.enter (u := ⟨rest, u.report⟩) hpath rfl hanswers fun hall => ?_
          exact hne (h.idle.mpr (hsame.mp hall))

theorem after (h : t.Orderly moves) (move : Move σ) :
    (t.after config move).Orderly (moves ++ [move]) := by
  cases move with
  | cancels => exact h.cancel
  | runs c entries count s => exact h.runs c entries count s
  | proceeds => exact h.proceed

end Orderly

/-- Every session is orderly. -/
theorem orderly_play (config : RunConfig) (moves : List (Move σ)) :
    (play config moves).Orderly moves := by
  induction moves using List.reverseRecOn with
  | nil => exact orderly_start
  | append_singleton moves move ih =>
      rw [play_append]
      exact ih.after move

/-! ### Used orchestrators -/

/-- A used orchestrator refuses to run, and nothing else changes. -/
theorem after_runs_of_used (hused : t.orchestrator.state ≠ .idle) (c : Circumstances σ)
    (entries : List Entry) (count : Count) (s : σ) :
    t.after config (.runs c entries count s) =
      t.answer (t.orchestrator.runFor c config entries count s) := by
  have hnone := (Orchestrator.entered_runFor_eq_nil_iff t.orchestrator c config entries s count).mpr
    (.inl hused)
  simp only [after, hnone]

/-- A state in which a run has ended is never left, and cancelling has no effect in it. -/
theorem orchestrator_after_of_isTerminal (h : t.Orderly moves)
    (hterminal : t.orchestrator.state.isTerminal = true) (move : Move σ) :
    (t.after config move).orchestrator = t.orchestrator := by
  have hused : t.orchestrator.state ≠ .idle := by
    intro hidle
    rw [hidle] at hterminal
    cases hterminal
  cases move with
  | cancels => exact Orchestrator.cancel_of_isTerminal hterminal
  | runs c entries count s => rw [after_runs_of_used hused, answer]
  | proceeds =>
      rw [after]
      cases hunderway : t.underway? with
      | none => rfl
      | some u =>
          have hcoming := ((h.going u hunderway).2.1.eq_of_isTerminal hterminal).1
          dsimp only
          rw [proceed, hcoming]
          rfl

theorem orchestrator_play_of_isTerminal (config : RunConfig) (moves more : List (Move σ))
    (hterminal : (play config moves).orchestrator.state.isTerminal = true) :
    (play config (moves ++ more)).orchestrator = (play config moves).orchestrator := by
  induction more using List.reverseRecOn with
  | nil => rw [List.append_nil]
  | append_singleton more move ih =>
      rw [← List.append_assoc, play_append config (moves ++ more)]
      rw [← ih] at hterminal ⊢
      exact orchestrator_after_of_isTerminal (orderly_play config (moves ++ more)) hterminal move

/-- The states of an orchestrator, whatever runs and cancellations are asked of it, form a path of the
documented machine, so that none is entered twice, and one in which a run has ended is never left.
A run answers in a state that fits the answer. An orchestrator is used once a run was asked for with an
integer as the number of executors that is at least one or can be written, and then every further run
is refused and changes nothing. A run aggregates only after each of its exchanges has ended with a
tree. -/
theorem follows_documented_machine (config : RunConfig) :
    (∀ moves : List (Move σ),
      let t := play config moves
      RunState.Path .idle t.passed t.orchestrator.state ∧ (RunState.idle :: t.passed).Nodup ∧
      (t.orchestrator.state.isTerminal = true → ∀ more,
        (play config (moves ++ more)).orchestrator = t.orchestrator) ∧
      (∀ a ∈ t.answered, a.report.Answers a.state) ∧
      (t.orchestrator.state = .idle ↔ Unreported moves) ∧
      (¬ Unreported moves → ∀ c entries count s,
        let report := t.orchestrator.runFor c config entries count s
        report = ⟨.error ⟨.run (.misuse ("Orchestrator already used (state: " ++
            t.orchestrator.state.name ++ ")")), none⟩, [], t.orchestrator, s⟩ ∧
          play config (moves ++ [.runs c entries count s]) =
            { t with answered := t.answered ++ [⟨report, t.orchestrator.state⟩] })) ∧
    ∀ (o : Orchestrator) (spawner : Spawning σ) (cancelledEarly : Bool)
      (connection : Except Failure Unit) (happenings : List Exchange → List Happening)
      (entries : List Entry) (count : Count) (s : σ) (before after : List Event),
      (o.runFor (.amid spawner cancelledEarly connection happenings) config entries count s).events =
          before ++ .entered .aggregating :: after →
        ∃ chunks handles, Partition.chunksFor entries count = .ok chunks ∧
          (Orchestrator.acquisition spawner chunks s).1 = .ok handles ∧
          let xs := Orchestrator.exchanges config chunks handles
          ∀ i < xs.length, .ended i ∈ before ∧ ∃ tree,
            (Proceedings.play xs (happenings xs)).progress[i]?.bind Progress.outcome? =
              some (.ok tree) := by
  constructor
  · intro moves t
    have horderly := orderly_play config moves
    refine ⟨horderly.path, horderly.path.nodup, fun hterminal more => ?_, horderly.answered,
      horderly.idle, ?_⟩
    · exact orchestrator_play_of_isTerminal config moves more hterminal
    · intro hgoing c entries count s report
      have hused : t.orchestrator.state ≠ .idle := mt horderly.idle.mp hgoing
      refine ⟨Orchestrator.runFor_of_used t.orchestrator c config entries s count hused, ?_⟩
      rw [play_append]
      exact after_runs_of_used hused c entries count s
  · intro o spawner cancelledEarly connection happenings entries count s before after hevents
    obtain ⟨executors, rfl⟩ := Orchestrator.int_of_aggregating o _ config entries s count hevents
    obtain ⟨chunks, handles, trees, hchunks, hacquired, hcomplete, hended⟩ :=
      Orchestrator.trees_of_aggregating o _ config entries executors s hevents
    have hsound := Proceedings.sound_play (Orchestrator.exchanges config chunks handles)
      (happenings (Orchestrator.exchanges config chunks handles))
    obtain ⟨tree, -, houtcomes⟩ := hsound.trees_of_complete hcomplete
    refine ⟨chunks, handles, hchunks, hacquired, fun i hi => ⟨hended i ?_, tree i, houtcomes i hi⟩⟩
    exact hsound.length_progress.symm ▸ hi

/-- A second run is asked for while the first is under way, and a cancellation as well. -/
theorem follows_documented_machine_backwards :
    let run : Move Unit := .runs Sample.backwards Sample.entries (.int 2) ()
    let moves := [run, .proceeds, .cancels, .proceeds, run, .proceeds, .proceeds, .proceeds]
    ¬ Unreported moves ∧
      (play Sample.config moves).passed =
        [.provisioning, .distributing, .awaiting, .aggregating, .completed] ∧
      ∀ more, (play Sample.config (moves ++ more)).orchestrator.state = .completed := by
  intro run moves
  obtain ⟨-, -, hterminal, -, hidle, -⟩ :=
    (follows_documented_machine (σ := Unit) Sample.config).1 moves
  have hcompleted : (play Sample.config moves).orchestrator.state = .completed := by
    decide +kernel
  refine ⟨fun hall => ?_, by decide +kernel, fun more => ?_⟩
  · rw [hidle.mpr hall] at hcompleted
    cases hcompleted
  · rw [hterminal (by rw [hcompleted]; rfl) more, hcompleted]

/-- Where a text is given as the number of executors, or an integer below one that is too long to be
written, a run fails by something that is no error of a run; the orchestrator stays idle, and the next
run is not refused. -/
theorem unrefused_after_unreported :
    let runFor (o : Orchestrator) (count : Count) :=
      o.runFor Sample.backwards Sample.config Sample.entries count ()
    (let first := runFor .idle (.other "str")
      let second := runFor first.orchestrator (.other "str")
      first.outcome = .error ⟨Count.incomparable "str", none⟩ ∧ second.outcome = first.outcome ∧
        second.orchestrator = .idle) ∧
    (let first := runFor .idle (.int (-(10 ^ 4300)))
      let second := runFor first.orchestrator (.int 2)
      first.outcome = .error ⟨.value .tooLongToWrite, none⟩ ∧ first.orchestrator = .idle ∧
        second.outcome.toOption.isSome = true ∧ second.orchestrator.state = .completed) := by
  decide +kernel

end Session

end SumTree
