import Mathlib.Data.List.Basic
import SumTree.Proofs.Run.Verdict
import SumTree.Run.Proceedings

/-!
# Exchanges under every order of happenings

What holds of the exchanges of a run after any list of happenings. Where an exchange can stand is
listed once (`Progress.Reached`), and every step leads from one of these cases to another. From this
follow what the rounds can bring (`Proceedings.Sound`) and, when the caller does not cancel, that the
signal is set only after a verdict (`Proceedings.Uncancelled`).

## Main Definitions

* `Progress.Reached` — the cases in which an exchange can stand.
* `Progress.Continues` — a step keeps the exchange and how it ended.
* `Exchange.OwnFailure` — the failures that an exchange brings about itself.
* `Proceedings.Sound`, `Proceedings.Uncancelled` — the invariants of the proceedings.
-/

namespace SumTree

/-- A failure that comes from the request of an exchange or from a reply to it. -/
def Exchange.OwnFailure (x : Exchange) (replied : Reply → Prop) (failure : Failure) : Prop :=
  x.request = .error failure ∨ ∃ reply, replied reply ∧ x.judge reply = .error failure

namespace Progress

/-- Where an exchange can stand, given the replies that can come in and whether the signal is set. -/
inductive Reached (replied : Reply → Prop) (signalled : Bool) : Progress → Prop
  | waiting (x : Exchange) : Reached replied signalled ⟨x, .waiting, []⟩
  | underway {x : Exchange} {q : Address × List WireEntry} (reply? : Option Reply)
      (request : x.request = .ok q) (came : ∀ reply ∈ reply?, replied reply) :
      Reached replied signalled ⟨x, .underway reply?, [q]⟩
  /-- There is nothing that could be sent. -/
  | refused {x : Exchange} {failure : Failure} (request : x.request = .error failure) :
      Reached replied signalled ⟨x, .ended (.error failure), []⟩
  | answered {x : Exchange} {q : Address × List WireEntry} (reply : Reply)
      (request : x.request = .ok q) (came : replied reply) :
      Reached replied signalled ⟨x, .ended (x.judge reply), [q]⟩
  /-- The signal was set before the exchange began. -/
  | withheld (x : Exchange) (set : signalled = true) :
      Reached replied signalled
        ⟨x, .ended (x.cancelled "cancelled before the request was sent"), []⟩
  /-- The signal was set before a reply came in. -/
  | aborted {x : Exchange} {q : Address × List WireEntry} (request : x.request = .ok q)
      (set : signalled = true) :
      Reached replied signalled ⟨x, .ended (x.cancelled "in-flight request aborted"), [q]⟩

/-- A step of an exchange keeps the exchange, and how it ended if it had. -/
structure Continues (p next : Progress) : Prop where
  exchange : next.exchange = p.exchange
  outcome : ∀ outcome, p.outcome? = some outcome → next.outcome? = some outcome

namespace Reached

variable {replied : Reply → Prop} {signalled : Bool} {p : Progress}

theorem start (x : Exchange) : (Progress.start x).Reached replied signalled :=
  .waiting x

/-- The signal stays set. -/
theorem signal (h : p.Reached replied signalled) {later : Bool}
    (hlater : signalled = true → later = true) : p.Reached replied later := by
  cases h with
  | waiting x => exact .waiting x
  | underway reply? request came => exact .underway reply? request came
  | refused request => exact .refused request
  | answered reply request came => exact .answered reply request came
  | withheld x set => exact .withheld x (hlater set)
  | aborted request set => exact .aborted request (hlater set)

theorem begin (h : p.Reached replied signalled) :
    (p.begin signalled).Reached replied signalled ∧ p.Continues (p.begin signalled) := by
  have hstays : p.Reached replied signalled ∧ p.Continues p := ⟨h, rfl, fun _ h => h⟩
  cases h with
  | waiting x =>
      refine ⟨?_, rfl, fun outcome h => by cases h⟩
      cases hsignal : signalled with
      | true => exact .withheld x rfl
      | false =>
          cases hrequest : x.request with
          | error failure =>
              simp only [Progress.begin, Exchange.play, hrequest]
              exact .refused hrequest
          | ok q =>
              simp only [Progress.begin, Exchange.play, hrequest]
              exact .underway none hrequest fun reply hreply => by cases hreply
  | underway reply? request came => exact hstays
  | refused request => exact hstays
  | answered reply request came => exact hstays
  | withheld x set => exact hstays
  | aborted request set => exact hstays

theorem receive (h : p.Reached replied signalled) {reply : Reply} (hreply : replied reply) :
    (p.receive reply).Reached replied signalled ∧ p.Continues (p.receive reply) := by
  have hstays : p.Reached replied signalled ∧ p.Continues p := ⟨h, rfl, fun _ h => h⟩
  cases h with
  | waiting x => exact hstays
  | underway reply? request came =>
      cases reply? with
      | none =>
          refine ⟨.underway (some reply) request ?_, rfl, fun outcome h => by cases h⟩
          rintro _ ⟨⟩
          exact hreply
      | some first => exact hstays
  | refused request => exact hstays
  | answered reply request came => exact hstays
  | withheld x set => exact hstays
  | aborted request set => exact hstays

theorem wake (h : p.Reached replied signalled) :
    (p.wake signalled).Reached replied signalled ∧ p.Continues (p.wake signalled) := by
  have hstays : p.Reached replied signalled ∧ p.Continues p := ⟨h, rfl, fun _ h => h⟩
  cases h with
  | waiting x => exact hstays
  | underway reply? request came =>
      cases reply? with
      | some reply =>
          exact ⟨.answered reply request (came reply rfl), rfl, fun outcome h => by cases h⟩
      | none =>
          cases hsignal : signalled with
          | true => exact ⟨.aborted request rfl, rfl, fun outcome h => by cases h⟩
          | false => exact ⟨.underway none request came, rfl, fun _ h => h⟩
  | refused request => exact hstays
  | answered reply request came => exact hstays
  | withheld x set => exact hstays
  | aborted request set => exact hstays

/-- An exchange sends nothing or its own request once. -/
theorem sent (h : p.Reached replied signalled) :
    p.sent = [] ∨ ∃ q, p.exchange.request = .ok q ∧ p.sent = [q] := by
  cases h with
  | waiting x => exact .inl rfl
  | underway reply? request came => exact .inr ⟨_, request, rfl⟩
  | refused request => exact .inl rfl
  | answered reply request came => exact .inr ⟨_, request, rfl⟩
  | withheld x set => exact .inl rfl
  | aborted request set => exact .inr ⟨_, request, rfl⟩

/-- A tree comes from a reply to a request that was sent. -/
theorem of_tree (h : p.Reached replied signalled) {t : MiniTree}
    (ht : p.outcome? = some (.ok t)) :
    ∃ q reply, p.exchange.request = .ok q ∧ p.sent = [q] ∧ replied reply ∧
      p.exchange.judge reply = .ok t := by
  cases h with
  | waiting x => cases ht
  | underway reply? request came => cases ht
  | refused request => cases ht
  | answered reply request came => exact ⟨_, reply, request, rfl, came, Option.some.inj ht⟩
  | withheld x set => cases ht
  | aborted request set => cases ht

/-- Without the signal, a failed exchange failed by itself. -/
theorem of_failure (h : p.Reached replied false) {failure : Failure}
    (hfailure : p.outcome? = some (.error failure)) : p.exchange.OwnFailure replied failure := by
  cases h with
  | waiting x => cases hfailure
  | underway reply? request came => cases hfailure
  | refused request =>
      cases hfailure
      exact .inl request
  | answered reply request came => exact .inr ⟨reply, came, Option.some.inj hfailure⟩
  | withheld x set => cases set
  | aborted request set => cases set

end Reached

end Progress

namespace Proceedings

/-- The replies to the exchange of a chunk that are among some happenings. -/
def RepliesAmong (happenings : List Happening) (chunk : Nat) (reply : Reply) : Prop :=
  .replies chunk reply ∈ happenings

/-- The exchanges stand where exchanges can stand, and the rounds bring how they ended. -/
structure Sound (xs : List Exchange) (replied : Nat → Reply → Prop) (p : Proceedings) : Prop where
  exchanges : p.progress.map Progress.exchange = xs
  reached : ∀ i (x : Progress), p.progress[i]? = some x → x.Reached (replied i) p.signalled
  brought : ∀ r ∈ p.rounds, ∀ i outcome, r.finished.lookup i = some outcome →
    p.progress[i]?.bind Progress.outcome? = some outcome

theorem lookup_finished (p : Proceedings) (i : Nat) :
    p.finished.lookup i = p.progress[i]?.bind Progress.outcome? := by
  rw [finished, lookup_filterMap_pair]
  split
  · rfl
  · rename_i hi
    rw [List.getElem?_eq_none (by simpa using hi), Option.bind_none]

namespace Sound

variable {xs : List Exchange} {replied : Nat → Reply → Prop} {p : Proceedings}

theorem start (xs : List Exchange) (replied : Nat → Reply → Prop) :
    (Proceedings.start xs).Sound xs replied where
  exchanges := by
    simp only [Proceedings.start, List.map_map]
    exact List.map_id xs
  reached := by
    intro i x hx
    simp only [Proceedings.start, List.getElem?_map, Option.map_eq_some_iff] at hx
    obtain ⟨y, -, rfl⟩ := hx
    exact .start y
  brought := by
    intro r hr
    cases hr

/-- A step of one exchange that leads to a case of `Progress.Reached` keeps the proceedings sound. -/
theorem advance (h : p.Sound xs replied) (chunk : Nat) {f : Progress → Progress}
    (hf : ∀ x, p.progress[chunk]? = some x →
      (f x).Reached (replied chunk) p.signalled ∧ x.Continues (f x)) :
    (p.advance chunk f).Sound xs replied where
  exchanges := by
    rw [← h.exchanges]
    refine List.ext_getElem? fun i => ?_
    simp only [Proceedings.advance, List.getElem?_map, List.getElem?_modify]
    cases hx : p.progress[i]? with
    | none => rfl
    | some x =>
        by_cases hi : chunk = i
        · subst hi
          simp [(hf x hx).2.exchange]
        · simp [hi]
  reached := by
    intro i y hy
    simp only [Proceedings.advance, List.getElem?_modify] at hy
    cases hx : p.progress[i]? with
    | none => simp [hx] at hy
    | some x =>
        by_cases hi : chunk = i
        · subst hi
          have hy' : f x = y := by simpa [hx] using hy
          exact hy' ▸ (hf x hx).1
        · have hy' : x = y := by simpa [hx, hi] using hy
          exact hy' ▸ h.reached i x hx
  brought := by
    intro r hr i outcome hlookup
    have hbefore := h.brought r hr i outcome hlookup
    simp only [Proceedings.advance, List.getElem?_modify]
    cases hx : p.progress[i]? with
    | none => simp [hx] at hbefore
    | some x =>
        rw [hx, Option.bind_some] at hbefore
        by_cases hi : chunk = i
        · subst hi
          simpa using (hf x hx).2.outcome outcome hbefore
        · simpa [hi] using hbefore

/-- Setting the signal keeps the proceedings sound. -/
theorem signal (h : p.Sound xs replied) {later : Bool}
    (hlater : p.signalled = true → later = true) :
    ({ p with signalled := later } : Proceedings).Sound xs replied where
  exchanges := h.exchanges
  reached i x hx := (h.reached i x hx).signal hlater
  brought := h.brought

/-- Collecting what has finished keeps the proceedings sound. -/
theorem collect (h : p.Sound xs replied) (r : Round) (hr : r.finished = p.finished) :
    (p.collect r).Sound xs replied where
  exchanges := h.exchanges
  reached i x hx := (h.reached i x hx).signal fun hset => by simp [Proceedings.collect, hset]
  brought := by
    intro r' hr' i outcome hlookup
    rcases List.mem_append.mp hr' with hold | hnew
    · exact h.brought r' hold i outcome hlookup
    · rw [List.mem_singleton.mp hnew, hr, lookup_finished] at hlookup
      exact hlookup

/-- Whatever happens keeps the proceedings sound. -/
theorem after (h : p.Sound xs replied) (happening : Happening)
    (hreplied : ∀ chunk reply, happening = .replies chunk reply → replied chunk reply) :
    (p.after happening).Sound xs replied := by
  cases happening with
  | begins chunk => exact h.advance chunk fun x hx => (h.reached chunk x hx).begin
  | replies chunk reply =>
      exact h.advance chunk fun x hx => (h.reached chunk x hx).receive (hreplied chunk reply rfl)
  | wakes chunk => exact h.advance chunk fun x hx => (h.reached chunk x hx).wake
  | cancels => exact h.signal fun _ => rfl
  | collects seesSignal stopped resisting => exact h.collect _ rfl

end Sound

/-- The proceedings are sound after any happenings, with the replies among them. -/
theorem sound_play (xs : List Exchange) (happenings : List Happening) :
    (play xs happenings).Sound xs (RepliesAmong happenings) := by
  refine List.foldlRecOn happenings after (Sound.start xs _) fun p hp happening hmem => ?_
  refine hp.after happening fun chunk reply hreplies => ?_
  rwa [RepliesAmong, ← hreplies]

namespace Sound

variable {xs : List Exchange} {replied : Nat → Reply → Prop} {p : Proceedings}

theorem addresses (h : p.Sound xs replied) :
    p.addresses = xs.map fun x => x.handle.address := by
  rw [← h.exchanges, List.map_map]
  rfl

theorem length_progress (h : p.Sound xs replied) : p.progress.length = xs.length := by
  rw [← h.exchanges, List.length_map]

theorem length_addresses (h : p.Sound xs replied) : p.addresses.length = xs.length := by
  rw [h.addresses, List.length_map]

theorem getElem?_exchange (h : p.Sound xs replied) (i : Nat) :
    p.progress[i]?.map Progress.exchange = xs[i]? := by
  rw [← h.exchanges, List.getElem?_map]

/-- When every exchange brings its tree, each has ended with it. -/
theorem trees_of_complete (h : p.Sound xs replied) {trees : List MiniTree}
    (hcomplete : p.ending = .complete trees) :
    ∃ t : Nat → MiniTree, trees = (List.range xs.length).map t ∧
      ∀ i < xs.length, p.progress[i]?.bind Progress.outcome? = some (.ok (t i)) := by
  obtain ⟨t, htrees, hbrought⟩ := Waiting.exists_rounds_of_distribute_eq_complete hcomplete
  rw [h.length_addresses] at htrees hbrought
  refine ⟨t, htrees, fun i hi => ?_⟩
  obtain ⟨r, hr, hlookup⟩ := hbrought i hi
  exact h.brought r hr i _ hlookup

/-- When every exchange brings its tree, each tree is judged from a reply to a request that was
sent. -/
theorem of_complete (h : p.Sound xs replied) {trees : List MiniTree}
    (hcomplete : p.ending = .complete trees) :
    ∃ t : Nat → MiniTree, trees = (List.range xs.length).map t ∧
      ∀ i y, p.progress[i]? = some y → ∃ q reply, y.exchange.request = .ok q ∧
        y.sent = [q] ∧ replied i reply ∧ y.exchange.judge reply = .ok (t i) := by
  obtain ⟨t, htrees, houtcomes⟩ := h.trees_of_complete hcomplete
  refine ⟨t, htrees, fun i y hy => ?_⟩
  have hi : i < xs.length := by
    rw [← h.length_progress]
    exact (List.getElem?_eq_some_iff.mp hy).1
  have houtcome := houtcomes i hi
  rw [hy, Option.bind_some] at houtcome
  exact (h.reached i y hy).of_tree houtcome

end Sound

/-! ### Without a cancellation by the caller -/

/-- The signal is set only once the run breaks off, and what it fails with is the failure of an
exchange of its own. -/
structure Uncancelled (xs : List Exchange) (replied : Nat → Reply → Prop) (p : Proceedings) :
    Prop where
  signal : p.signalled = true → p.ending.isBroken = true
  failure : ∀ e, p.ending.error? = some e → ∃ r ∈ p.rounds, ∃ i x failure, xs[i]? = some x ∧
    r.finished.lookup i = some (.error failure) ∧ x.OwnFailure (replied i) failure ∧
      e = asRunError i x.handle.address failure

namespace Uncancelled

variable {xs : List Exchange} {replied : Nat → Reply → Prop} {p next : Proceedings}

theorem start (xs : List Exchange) (replied : Nat → Reply → Prop) :
    (Proceedings.start xs).Uncancelled xs replied where
  signal hset := by cases hset
  failure e he := by
    obtain ⟨front, r, back, hsplit, -⟩ := Waiting.exists_of_error?_collect he
    simp [Proceedings.start] at hsplit

/-- A step that leaves the rounds and the signal alone. -/
theorem of_same (h : p.Uncancelled xs replied) (haddresses : next.addresses = p.addresses)
    (hrounds : next.rounds = p.rounds) (hsignal : next.signalled = p.signalled) :
    next.Uncancelled xs replied := by
  have hending : next.ending = p.ending := by rw [ending, ending, haddresses, hrounds]
  constructor
  · rw [hsignal, hending]
    exact h.signal
  · rw [hending, hrounds]
    exact h.failure

/-- Collecting a round that does not see a signal of the caller. -/
theorem collect (h : p.Uncancelled xs replied) (hsound : p.Sound xs replied) (r : Round)
    (hfinished : r.finished = p.finished) (hcancelled : r.cancelled = true → p.signalled = true) :
    (p.collect r).Uncancelled xs replied := by
  have hending : (p.collect r).ending = (Waiting.start p.addresses).collect (p.rounds ++ [r]) := rfl
  have hsignalled : (p.collect r).signalled = (p.signalled || (p.collect r).ending.isBroken) := rfl
  by_cases hgoing : (Waiting.start p.addresses).collect p.rounds = .unfinished
  · -- Nothing is decided yet, so the signal is not set and all outcomes are the exchanges' own.
    have hunset : p.signalled = false := by
      cases hset : p.signalled with
      | false => rfl
      | true =>
          have hbroken := h.signal hset
          rw [ending, Waiting.distribute_eq, hgoing] at hbroken
          cases hbroken
    constructor
    · intro hset
      rwa [hsignalled, hunset, Bool.false_or] at hset
    · intro e he
      rw [hending, Waiting.error?_collect_append_singleton hgoing] at he
      rcases Waiting.of_verdict?_eq_some he with ⟨i, failure, -, hlookup, he⟩ | ⟨hset, -⟩
      · have hfails := hlookup
        rw [hfinished, lookup_finished, Option.bind_eq_some_iff] at hfails
        obtain ⟨y, hy, houtcome⟩ := hfails
        have hreached := hsound.reached i y hy
        rw [hunset] at hreached
        have hx : xs[i]? = some y.exchange := by
          rw [← hsound.getElem?_exchange, hy, Option.map_some]
        refine ⟨r, List.mem_append_right _ (List.mem_singleton_self r), i, y.exchange, failure, hx,
          hlookup, hreached.of_failure houtcome, ?_⟩
        rw [he, Waiting.afterAll_addresses, Waiting.start_addresses, hsound.addresses,
          List.getElem?_map, hx]
        rfl
      · rw [hcancelled hset] at hunset
        cases hunset
  -- The wait has ended before, and one more round changes nothing about how.
  · obtain ⟨herror, hbroken⟩ := Waiting.collect_append_of_ended hgoing [r]
    constructor
    · intro hset
      rcases Bool.or_eq_true_iff.mp hset with hbefore | hnow
      · rw [hending, hbroken]
        exact h.signal hbefore
      · exact hnow
    · intro e he
      rw [hending, herror] at he
      obtain ⟨r', hr', hfailure⟩ := h.failure e he
      exact ⟨r', List.mem_append_left _ hr', hfailure⟩

theorem after (h : p.Uncancelled xs replied) (hsound : p.Sound xs replied)
    (happening : Happening) (hcancels : happening ≠ .cancels)
    (hreplied : ∀ chunk reply, happening = .replies chunk reply → replied chunk reply) :
    (p.after happening).Uncancelled xs replied := by
  have hnext := hsound.after happening hreplied
  cases happening with
  | begins chunk =>
      exact h.of_same (hnext.addresses.trans hsound.addresses.symm) rfl rfl
  | replies chunk reply =>
      exact h.of_same (hnext.addresses.trans hsound.addresses.symm) rfl rfl
  | wakes chunk =>
      exact h.of_same (hnext.addresses.trans hsound.addresses.symm) rfl rfl
  | cancels => exact absurd rfl hcancels
  | collects seesSignal stopped resisting =>
      exact h.collect hsound _ rfl fun hset => (Bool.and_eq_true_iff.mp hset).1

end Uncancelled

/-- When the caller never cancels, a run that fails does so by the own failure of an exchange. -/
theorem uncancelled_play (xs : List Exchange) (happenings : List Happening)
    (hcancels : .cancels ∉ happenings) :
    (play xs happenings).Uncancelled xs (RepliesAmong happenings) := by
  -- Collecting reads the outcomes off the exchanges, so both invariants are carried together.
  have hboth : (play xs happenings).Sound xs (RepliesAmong happenings) ∧
      (play xs happenings).Uncancelled xs (RepliesAmong happenings) := by
    refine List.foldlRecOn (motive := fun p => p.Sound xs (RepliesAmong happenings) ∧
      p.Uncancelled xs (RepliesAmong happenings)) happenings after
      ⟨Sound.start xs _, Uncancelled.start xs _⟩ ?_
    rintro p ⟨hsound, huncancelled⟩ happening hmem
    have hreplied : ∀ chunk reply, happening = .replies chunk reply →
        RepliesAmong happenings chunk reply := by
      rintro chunk reply rfl
      exact hmem
    have hother : happening ≠ .cancels := by
      rintro rfl
      exact hcancels hmem
    exact ⟨hsound.after happening hreplied, huncancelled.after hsound happening hother hreplied⟩
  exact hboth.2

end Proceedings

end SumTree
