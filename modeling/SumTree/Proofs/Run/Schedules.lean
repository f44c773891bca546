import SumTree.Proofs.Run.Order
import SumTree.Run.Schedule

/-!
# Schedules

What a list of happenings does to the exchanges of a run, split at any point: rounds are only ever
added (`prefix_rounds`), a collection adds the round of that moment (`mem_rounds_of_collects`), and
once the wait has ended with all trees nothing that comes later makes a difference
(`exchangeAll_append_of_complete`). Without a stop from outside, a wait that fails is a run that fails
with the same error (`held_of_error?`).

No exchange ever goes back (`stage_foldl_le`), so one that begins, is answered and wakes has ended
(`stage_of_answered`), and when all exchanges are collected after that, the wait ends
(`ends_of_brought`). According to a schedule this happens to every exchange that is answered
(`Schedule.sublist_happenings`).

## Main Definitions

* `Proceedings.Unstopped` — the run is not stopped from outside.
* `Standing.stage`, `Proceedings.stage` — how far an exchange is.
-/

namespace SumTree

/-- Elements of a list of which one has gone on. -/
theorem forall_mem_modify {α : Type} {l : List α} {i : Nat} {f : α → α} {P : α → Prop}
    (h : ∀ a ∈ l, P a) (hf : ∀ a ∈ l, P (f a)) : ∀ a ∈ l.modify i f, P a := by
  intro a ha
  obtain ⟨j, hj⟩ := List.mem_iff_getElem?.mp ha
  rw [List.getElem?_modify] at hj
  obtain ⟨b, hb, hab⟩ := Option.map_eq_some_iff.mp hj
  have hmem : b ∈ l := List.mem_of_getElem? hb
  split at hab
  · exact hab ▸ hf b hmem
  · exact hab ▸ h b hmem

namespace Waiting

/-- Without a stop, a wait that fails is not stopped later on. -/
theorem not_stoppedLater {w : Waiting} {rounds : List Round}
    (hunstopped : ∀ r ∈ rounds, r.stopped = false) {e : RunError} {pending resisting : List Nat}
    {stoppedLater : Bool} (h : w.collect rounds = .failed e pending resisting stoppedLater) :
    stoppedLater = false := by
  cases w.goes rounds with
  | completes front back split undecided finished =>
      rw [split, collect_of_completes undecided finished] at h
      cases h
  | fails front back r e' split undecided hpending verdict =>
      rw [split, collect_append_of_verdict undecided hpending verdict, Ending.failed.injEq] at h
      rw [← h.2.2.2, List.any_eq_false]
      intro r' hr'
      rw [hunstopped r' (split ▸ List.mem_append_right front (List.mem_cons_of_mem r hr'))]
      exact Bool.false_ne_true
  | stops front back r split undecided hpending verdict stopped =>
      rw [split, collect_append_of_stopped undecided hpending verdict stopped] at h
      cases h
  | lasts undecided hpending =>
      rw [collect_of_lasts undecided hpending] at h
      cases h

/-- A wait that goes on has rounds that decide nothing. -/
theorem undecided_of_unfinished {w : Waiting} {rounds : List Round}
    (h : w.collect rounds = .unfinished) :
    w.Undecided rounds ∧ (w.afterAll rounds).pending ≠ [] := by
  cases w.goes rounds with
  | completes front back split undecided finished =>
      rw [split, collect_of_completes undecided finished] at h
      cases h
  | fails front back r e split undecided hpending verdict =>
      rw [split, collect_append_of_verdict undecided hpending verdict] at h
      cases h
  | stops front back r split undecided hpending verdict stopped =>
      rw [split, collect_append_of_stopped undecided hpending verdict stopped] at h
      cases h
  | lasts undecided hpending => exact ⟨undecided, hpending⟩

/-- None of the rounds that decide nothing brings the signal. -/
theorem Undecided.unsignalled {w : Waiting} {rounds : List Round} (h : w.Undecided rounds) :
    ∀ r ∈ rounds, r.cancelled = false := by
  induction rounds generalizing w with
  | nil =>
      intro r hr
      cases hr
  | cons first rest ih =>
      obtain ⟨hverdict, -, hrest⟩ := h
      intro r hr
      rcases List.mem_cons.mp hr with rfl | hr
      · rw [verdict?_eq, Option.or_eq_none_iff] at hverdict
        cases hcancelled : r.cancelled with
        | false => rfl
        | true =>
            rw [hcancelled] at hverdict
            cases hverdict.2
      · exact ih hrest r hr

end Waiting

namespace Proceedings

variable {xs : List Exchange} {happenings : List Happening}

theorem play_append (xs : List Exchange) (front back : List Happening) :
    play xs (front ++ back) = back.foldl after (play xs front) :=
  List.foldl_append

/-- Rounds are only ever added. -/
theorem prefix_rounds (p : Proceedings) (happenings : List Happening) :
    p.rounds <+: (happenings.foldl after p).rounds := by
  induction happenings generalizing p with
  | nil => exact List.prefix_refl _
  | cons happening rest ih =>
      refine List.IsPrefix.trans ?_ (ih (p.after happening))
      cases happening with
      | collects seesSignal stopped resisting => exact List.prefix_append _ _
      | _ => exact List.prefix_refl _

/-- A collection adds the round of that moment. -/
theorem mem_rounds_of_collects (xs : List Exchange) (front back : List Happening)
    (seesSignal stopped : Bool) (resisting : List Nat) :
    (⟨(play xs front).finished, (play xs front).signalled && seesSignal, stopped, resisting⟩ : Round) ∈
      (play xs (front ++ .collects seesSignal stopped resisting :: back)).rounds := by
  rw [play_append, List.foldl_cons]
  exact (prefix_rounds _ back).subset (List.mem_append_right _ (List.mem_singleton_self _))

/-- The run is not stopped from outside. -/
def Unstopped (happenings : List Happening) : Prop :=
  ∀ seesSignal resisting, .collects seesSignal true resisting ∉ happenings

theorem unstopped_round (h : Unstopped happenings) {r : Round}
    (hr : r ∈ (play xs happenings).rounds) : r.stopped = false := by
  refine Bool.eq_false_iff.mpr fun hstopped => ?_
  obtain ⟨seesSignal, resisting, hmem⟩ := exists_of_stopped_round hr hstopped
  exact h seesSignal resisting hmem

theorem ending_ne_stopped (h : Unstopped happenings) (pending : List Nat) :
    (play xs happenings).ending ≠ .stopped pending := by
  intro hending
  obtain ⟨r, hr, hstopped⟩ := Waiting.exists_of_collect_eq_stopped hending
  rw [unstopped_round h hr] at hstopped
  cases hstopped

/-- Without a stop, a wait that does not go on forever has its trees or its error. -/
theorem ending_of_unstopped (h : Unstopped happenings)
    (hends : (play xs happenings).ending ≠ .unfinished) :
    (∃ trees, (play xs happenings).ending = .complete trees) ∨
      ∃ e, (play xs happenings).ending.error? = some e := by
  cases hending : (play xs happenings).ending with
  | complete trees => exact .inl ⟨trees, rfl⟩
  | failed e pending resisting stoppedLater => exact .inr ⟨e, rfl⟩
  | stopped pending => exact absurd hending (ending_ne_stopped h pending)
  | unfinished => exact absurd hending hends

/-- Without a stop, a run whose wait fails ends the holding of its workers with that error. -/
theorem held_of_error? (h : Unstopped happenings) {e : RunError}
    (he : (play xs happenings).ending.error? = some e) (config : RunConfig) (missing : Nat) :
    (Orchestrator.exchangeAll config missing (play xs happenings)).held = .error e := by
  cases hending : (play xs happenings).ending with
  | failed e' pending resisting stoppedLater =>
      rw [hending] at he
      cases he
      have hlater := Waiting.not_stoppedLater (fun r hr => unstopped_round h hr) hending
      simp only [Orchestrator.exchangeAll, hending, hlater, Bool.false_and, Bool.false_eq_true,
        if_false]
  | _ =>
      rw [hending] at he
      cases he

/-! ### How far exchanges are -/

end Proceedings

/-- How far an exchange is that stands here: from not begun to ended. -/
def Standing.stage : Standing → Nat
  | .waiting => 0
  | .underway none => 1
  | .underway (some _) => 2
  | .ended _ => 3

namespace Progress

variable (x : Progress)

theorem stage_begin (signalled : Bool) :
    x.standing.stage ≤ (x.begin signalled).standing.stage ∧
      1 ≤ (x.begin signalled).standing.stage := by
  rw [begin]
  cases hstanding : x.standing with
  | waiting =>
      dsimp only
      refine ⟨Nat.zero_le _, ?_⟩
      split <;> simp [Standing.stage]
  | underway reply? => cases reply? <;> simp [hstanding, Standing.stage]
  | ended outcome => simp [hstanding, Standing.stage]

theorem stage_receive (reply : Reply) :
    x.standing.stage ≤ (x.receive reply).standing.stage ∧
      (1 ≤ x.standing.stage → 2 ≤ (x.receive reply).standing.stage) := by
  rw [receive]
  cases hstanding : x.standing with
  | waiting => simp [hstanding, Standing.stage]
  | underway reply? => cases reply? <;> simp [hstanding, Standing.stage]
  | ended outcome => simp [hstanding, Standing.stage]

theorem stage_wake (signalled : Bool) :
    x.standing.stage ≤ (x.wake signalled).standing.stage ∧
      (2 ≤ x.standing.stage → 3 ≤ (x.wake signalled).standing.stage) := by
  rw [wake]
  cases hstanding : x.standing with
  | waiting => simp [hstanding, Standing.stage]
  | underway reply? =>
      cases reply? with
      | none =>
          cases signalled <;> simp [Exchange.await, hstanding, Standing.stage]
      | some reply => simp [Exchange.await, Standing.stage]
  | ended outcome => simp [hstanding, Standing.stage]

end Progress

namespace Proceedings

/-- How far the exchange of a chunk is. -/
def stage (p : Proceedings) (chunk : Nat) : Nat :=
  match p.progress[chunk]? with
  | some x => x.standing.stage
  | none => 0

theorem stage_of_getElem? {p : Proceedings} {chunk : Nat} {x : Progress}
    (hx : p.progress[chunk]? = some x) : p.stage chunk = x.standing.stage := by
  rw [stage, hx]

theorem getElem?_advance (p : Proceedings) (chunk : Nat) (f : Progress → Progress) :
    (p.advance chunk f).progress[chunk]? = p.progress[chunk]?.map f := by
  rw [advance, List.getElem?_modify_eq]
  rfl

theorem stage_advance_le (p : Proceedings) (chunk i : Nat) {f : Progress → Progress}
    (hf : ∀ x, x.standing.stage ≤ (f x).standing.stage) : p.stage i ≤ (p.advance chunk f).stage i := by
  rw [stage, stage, advance]
  dsimp only
  rw [List.getElem?_modify]
  cases p.progress[i]? with
  | none => exact Nat.le_refl _
  | some x =>
      by_cases hi : chunk = i
      · simpa [hi] using hf x
      · simp [hi]

/-- No exchange ever goes back. -/
theorem stage_after_le (p : Proceedings) (happening : Happening) (i : Nat) :
    p.stage i ≤ (p.after happening).stage i := by
  cases happening with
  | begins chunk => exact p.stage_advance_le chunk i fun x => (x.stage_begin p.signalled).1
  | replies chunk reply => exact p.stage_advance_le chunk i fun x => (x.stage_receive reply).1
  | wakes chunk => exact p.stage_advance_le chunk i fun x => (x.stage_wake p.signalled).1
  | cancels => exact Nat.le_refl _
  | collects seesSignal stopped resisting => exact Nat.le_refl _

theorem stage_foldl_le (p : Proceedings) (happenings : List Happening) (i : Nat) :
    p.stage i ≤ (happenings.foldl after p).stage i := by
  induction happenings generalizing p with
  | nil => exact Nat.le_refl _
  | cons happening rest ih => exact (p.stage_after_le happening i).trans (ih (p.after happening))

theorem length_after (p : Proceedings) (happening : Happening) :
    (p.after happening).progress.length = p.progress.length := by
  cases happening with
  | begins chunk => exact List.length_modify _ _ _
  | replies chunk reply => exact List.length_modify _ _ _
  | wakes chunk => exact List.length_modify _ _ _
  | cancels => rfl
  | collects seesSignal stopped resisting => rfl

theorem length_foldl (p : Proceedings) (happenings : List Happening) :
    (happenings.foldl after p).progress.length = p.progress.length := by
  induction happenings generalizing p with
  | nil => rfl
  | cons happening rest ih => rw [List.foldl_cons, ih, length_after]

/-- An exchange that goes on is as far as this leads. -/
theorem stage_advance {p : Proceedings} {i : Nat} {x : Progress} (hx : p.progress[i]? = some x)
    (f : Progress → Progress) : (p.advance i f).stage i = (f x).standing.stage := by
  refine stage_of_getElem? ?_
  rw [getElem?_advance, hx, Option.map_some]

theorem exists_of_stage_pos {p : Proceedings} {i : Nat} (h : 1 ≤ p.stage i) :
    ∃ x, p.progress[i]? = some x := by
  rw [stage] at h
  cases hx : p.progress[i]? with
  | none =>
      rw [hx] at h
      exact absurd h (by decide)
  | some x => exact ⟨x, rfl⟩

/-- An exchange to which something happens that takes it one step on, as soon as it is far enough, is
further on in the end. -/
theorem stage_of_mem {p : Proceedings} {happenings : List Happening} {happening : Happening}
    (hmem : happening ∈ happenings) {n i : Nat} (h : n ≤ p.stage i)
    (hstep : ∀ q : Proceedings, q.progress.length = p.progress.length → n ≤ q.stage i →
      n + 1 ≤ (q.after happening).stage i) :
    n + 1 ≤ (happenings.foldl after p).stage i := by
  obtain ⟨front, back, rfl⟩ := List.append_of_mem hmem
  rw [List.foldl_append, List.foldl_cons]
  refine Nat.le_trans ?_ (stage_foldl_le _ back i)
  exact hstep _ (p.length_foldl front) (Nat.le_trans h (p.stage_foldl_le front i))

/-- An exchange that begins, is answered and wakes, in this order, has ended. -/
theorem stage_of_answered {i : Nat} (hi : i < xs.length) {reply : Reply}
    (h : List.Sublist [.begins i, .replies i reply, .wakes i] happenings) :
    3 ≤ (play xs happenings).stage i := by
  obtain ⟨first, rest, rfl, hbegins, hrest⟩ := List.cons_sublist_iff.mp h
  obtain ⟨second, third, rfl, hreplies, hwakes⟩ := List.cons_sublist_iff.mp hrest
  rw [play, List.foldl_append, List.foldl_append]
  refine stage_of_mem (List.singleton_sublist.mp hwakes) ?_ fun q _ hq => ?_
  · refine stage_of_mem hreplies ?_ fun q _ hq => ?_
    · refine stage_of_mem hbegins (Nat.zero_le _) fun q hlength _ => ?_
      have hlt : i < q.progress.length := by
        rwa [hlength, start, List.length_map]
      rw [after, stage_advance (List.getElem?_eq_getElem hlt)]
      exact (Progress.stage_begin _ _).2
    · obtain ⟨x, hx⟩ := exists_of_stage_pos hq
      rw [stage_of_getElem? hx] at hq
      rw [after, stage_advance hx]
      exact (x.stage_receive reply).2 hq
  · obtain ⟨x, hx⟩ := exists_of_stage_pos (Nat.le_of_succ_le hq)
    rw [stage_of_getElem? hx] at hq
    rw [after, stage_advance hx]
    exact (x.stage_wake q.signalled).2 hq

/-- An exchange that is as far as can be has ended. -/
theorem exists_outcome_of_stage {p : Proceedings} {i : Nat} (h : 3 ≤ p.stage i) :
    ∃ outcome, p.progress[i]?.bind Progress.outcome? = some outcome := by
  rw [stage] at h
  cases hx : p.progress[i]? with
  | none =>
      rw [hx] at h
      exact absurd h (by decide)
  | some x =>
      rw [hx] at h
      rw [Option.bind_some, Progress.outcome?]
      cases hstanding : x.standing with
      | waiting => simp [hstanding, Standing.stage] at h
      | underway reply? => cases reply? <;> simp [hstanding, Standing.stage] at h
      | ended outcome => exact ⟨outcome, rfl⟩

/-- An exchange that has ended before the run collects is brought by some round, with its outcome. -/
theorem exists_firstOutcome (xs : List Exchange) (front back : List Happening)
    (seesSignal stopped : Bool) (resisting : List Nat) {i : Nat} (h : 3 ≤ (play xs front).stage i) :
    ∃ outcome, firstOutcome
        (play xs (front ++ .collects seesSignal stopped resisting :: back)).rounds i = some outcome ∧
      (play xs (front ++ .collects seesSignal stopped resisting :: back)).progress[i]?.bind
        Progress.outcome? = some outcome := by
  have hround := mem_rounds_of_collects xs front back seesSignal stopped resisting
  have hsound := sound_play xs (front ++ .collects seesSignal stopped resisting :: back)
  obtain ⟨ended, hended⟩ := exists_outcome_of_stage h
  cases hfirst : firstOutcome
      (play xs (front ++ .collects seesSignal stopped resisting :: back)).rounds i with
  | none =>
      have hnone := firstOutcome_eq_none_iff.mp hfirst _ hround
      rw [lookup_finished, hended] at hnone
      cases hnone
  | some outcome =>
      obtain ⟨r, hr, hlookup⟩ := exists_round_of_firstOutcome hfirst
      exact ⟨outcome, rfl, hsound.brought r hr i outcome hlookup⟩

/-- An exchange that begins, is answered and wakes before the run collects is brought by some round. -/
theorem exists_firstOutcome_of_answered {i : Nat} (hi : i < xs.length) {reply : Reply}
    {seesSignal stopped : Bool} {resisting : List Nat}
    (h : List.Sublist [.begins i, .replies i reply, .wakes i,
      .collects seesSignal stopped resisting] happenings) :
    ∃ outcome, firstOutcome (play xs happenings).rounds i = some outcome := by
  obtain ⟨first, rest, rfl, hanswered, hcollects⟩ :=
    List.append_sublist_iff.mp (show List.Sublist ([.begins i, .replies i reply, .wakes i] ++
      [.collects seesSignal stopped resisting]) happenings from h)
  obtain ⟨second, back, rfl⟩ := List.append_of_mem (List.singleton_sublist.mp hcollects)
  have hstage : 3 ≤ (play xs (first ++ second)).stage i := by
    rw [play_append]
    exact Nat.le_trans (stage_of_answered hi hanswered) (stage_foldl_le _ second i)
  obtain ⟨outcome, hfirst, -⟩ := exists_firstOutcome xs _ back seesSignal stopped resisting hstage
  rw [List.append_assoc] at hfirst
  exact ⟨outcome, hfirst⟩

/-- A wait ends when every exchange is brought by some round. -/
theorem ends_of_brought (h : ∀ i < xs.length, ∃ outcome,
    firstOutcome (play xs happenings).rounds i = some outcome) :
    (play xs happenings).ending ≠ .unfinished := by
  intro hunfinished
  obtain ⟨-, hpending⟩ := Waiting.undecided_of_unfinished hunfinished
  obtain ⟨i, hi⟩ := List.exists_mem_of_ne_nil _ hpending
  have hwaiting : i ∈ ((Waiting.start (play xs happenings).addresses).afterAll
      (play xs happenings).rounds).pending := hi
  rw [Waiting.mem_pending_afterAll_start, (sound_play xs happenings).length_addresses] at hwaiting
  obtain ⟨outcome, hfirst⟩ := h i hwaiting.1
  rw [firstOutcome_eq_none_iff.mpr hwaiting.2] at hfirst
  cases hfirst

/-! ### After the last tree -/

/-- When every exchange has brought its tree, none of them goes on. -/
theorem ended_of_complete {trees : List MiniTree}
    (hcomplete : (play xs happenings).ending = .complete trees) :
    ∀ x ∈ (play xs happenings).progress, ∃ outcome, x.standing = .ended outcome := by
  have hsound := sound_play xs happenings
  obtain ⟨t, -, houtcomes⟩ := hsound.trees_of_complete hcomplete
  intro x hx
  obtain ⟨i, hi⟩ := List.mem_iff_getElem?.mp hx
  have hlt : i < xs.length := by
    rw [← hsound.length_progress]
    exact (List.getElem?_eq_some_iff.mp hi).1
  have houtcome := houtcomes i hlt
  rw [hi, Option.bind_some, Progress.outcome?] at houtcome
  split at houtcome
  · exact ⟨_, ‹_›⟩
  · cases houtcome

end Proceedings

/-! ### Happenings according to a schedule -/

namespace Schedule

variable {s : Schedule}

theorem mem_numbered {i : Nat} {course : Course} :
    (i, course) ∈ s.numbered ↔ s.courses[i]? = some course := by
  rw [numbered, List.mem_iff_getElem?]
  constructor
  · rintro ⟨j, hj⟩
    obtain ⟨hrange, hcourse⟩ := List.getElem?_zip_eq_some.mp hj
    rw [List.getElem?_eq_some_iff] at hrange
    obtain ⟨hlt, rfl⟩ := hrange
    rwa [List.getElem_range]
  · intro hcourse
    have hi : i < s.courses.length := (List.getElem?_eq_some_iff.mp hcourse).1
    exact ⟨i, List.getElem?_zip_eq_some.mpr ⟨List.getElem?_range hi, hcourse⟩⟩

theorem mem_foldr_addMoment {m : Nat} {moments : List Nat} :
    m ∈ moments.foldr addMoment [] ↔ m ∈ moments := by
  induction moments with
  | nil => rfl
  | cons first rest ih => rw [List.foldr_cons, mem_addMoment, ih, List.mem_cons]

/-- A reply comes at one of the moments of its schedule. -/
theorem mem_moments {i m : Nat} {course : Course} {reply : Reply}
    (hcourse : s.courses[i]? = some course) (hreply : course.reply? = some (m, reply)) :
    m ∈ s.moments := by
  rw [moments, mem_foldr_addMoment]
  refine List.mem_cons_of_mem 0 (List.mem_append_left _ (List.mem_append_left _ ?_))
  exact List.mem_filterMap.mpr ⟨course, List.mem_of_getElem? hcourse, by rw [hreply]; rfl⟩

/-- What happens according to a schedule without a cancellation and without a stop: exchanges begin,
they are answered as their courses say and wake, and the run collects. -/
theorem of_mem_happenings (hcancel : s.cancelAt? = none) (hstop : s.stopAt? = none)
    {happening : Happening} (h : happening ∈ s.happenings) :
    (∃ i, happening = .begins i) ∨
      (∃ i course m reply, s.courses[i]? = some course ∧ course.reply? = some (m, reply) ∧
        (happening = .replies i reply ∨ happening = .wakes i)) ∨
      ∃ resisting, happening = .collects true false resisting := by
  rw [happenings, List.mem_append, List.mem_map, List.mem_flatMap] at h
  rcases h with ⟨i, -, rfl⟩ | ⟨m, -, h⟩
  · exact .inl ⟨i, rfl⟩
  · simp only [happeningsAt, hcancel, hstop, repliesAt, List.mem_append, List.mem_flatMap] at h
    rcases h with (⟨⟨i, course⟩, hnumbered, h⟩ | h) | h
    · split at h
      · rename_i n reply hreply
        split at h
        · refine .inr (.inl ⟨i, course, n, reply, mem_numbered.mp hnumbered, hreply, ?_⟩)
          simpa using h
        · cases h
      · cases h
    · simp at h
    · exact .inr (.inr ⟨_, List.mem_singleton.mp h⟩)

/-- An exchange that is answered according to its schedule begins, is answered, and wakes before the
run collects. -/
theorem sublist_happenings {i m : Nat} {course : Course} {reply : Reply}
    (hcourse : s.courses[i]? = some course) (hreply : course.reply? = some (m, reply)) :
    ∃ stopped resisting, List.Sublist [.begins i, .replies i reply, .wakes i,
      .collects true stopped resisting] s.happenings := by
  have hi : i < s.courses.length := (List.getElem?_eq_some_iff.mp hcourse).1
  have hbegins : List.Sublist [.begins i] ((List.range s.courses.length).map Happening.begins) :=
    List.singleton_sublist.mpr (List.mem_map_of_mem (List.mem_range.mpr hi))
  have hanswered : List.Sublist [.replies i reply, .wakes i] (s.repliesAt m) := by
    rw [repliesAt, List.flatMap_def]
    refine List.Sublist.trans ?_
      (List.sublist_flatten_of_mem (List.mem_map_of_mem (mem_numbered.mpr hcourse)))
    simp only [hreply, beq_self_eq_true, if_true, List.Sublist.refl]
  have hmoment : (s.happeningsAt m).Sublist (s.moments.flatMap s.happeningsAt) := by
    rw [List.flatMap_def]
    exact List.sublist_flatten_of_mem (List.mem_map_of_mem (mem_moments hcourse hreply))
  have hat : ∃ stopped resisting, List.Sublist [.replies i reply, .wakes i,
      .collects true stopped resisting] (s.happeningsAt m) :=
    ⟨_, _, (hanswered.trans (List.sublist_append_left _ _)).append (List.Sublist.refl _)⟩
  obtain ⟨stopped, resisting, hat⟩ := hat
  exact ⟨stopped, resisting, hbegins.append (hat.trans hmoment)⟩

end Schedule

end SumTree
