import SumTree.Proofs.Run.Accepted
import SumTree.Proofs.Run.Schedules
import SumTree.Proofs.Spawner.Listeners
import SumTree.Proofs.Worker.Agreement
import SumTree.Spawner.InProcess

/-!
# Exchanges with listeners

Exchanges whose workers are listeners of the process, some of them made to fail. What a failing
listener replies is judged as its way to fail demands, whatever it was sent
(`InProcess.judge_of_failing`), and a healthy one replies as it would if no other failed
(`InProcess.reply_of_healthy`). So the first failure that is heard of comes from a failing listener
(`InProcess.Serves.exists_of_error?`), and if all trees come, no listener fails
(`InProcess.Serves.trees_of_complete`).

## Main Definitions

* `FailureMode.Shows` — the faults by which a way to fail shows.
* `InProcess.Serves` — what happens to exchanges whose listeners answer all that they can.
* `InProcess.Yields` — the trees that listeners reply.
-/

namespace SumTree

/-- The faults by which a way to fail shows. -/
def FailureMode.Shows : FailureMode → ExchangeFault → Prop
  | .reject, fault => ∃ body, fault = .rejected (some 500) body
  | .malformed, fault => ∃ status? body, fault = .malformed status? body
  | .hang, fault => fault = .unreachable

/-- An answer of the wrong shape is no tree, whatever was sent. -/
theorem Wire.readTreeChars_of_wrong_shape (entries : List Entry) :
    ∃ issues, readTreeChars entries
      (some (Json.obj [("unexpected", .str "shape")]).wire.toList) = .error issues := by
  have hlegible : Json.Legible 1 (Json.obj [("unexpected", .str "shape")]) :=
    .obj fun m hm => List.mem_singleton.mp hm ▸ .str "shape"
  have hread : Json.readChars dialect (Json.obj [("unexpected", .str "shape")]).wireChars = .ok _ :=
    Json.readChars_of_spells (Json.spells_wireChars hlegible) (by decide)
  rw [readTreeChars, Json.wire, String.toList_ofList, Option.map_some, hread]
  exact ⟨_, rfl⟩

namespace InProcess

variable {c : MockConfig} {hasher : Hasher} {x : Exchange} {body : List WireEntry}

/-- What an exchange hears of an answer. -/
def heard : Except Failure (Option Response) → Reply
  | .ok (some response) => .utf8 response.status (bytes response)
  | .ok none => .timedOut
  | .error _ => .utf8 500 []

/-- An exchange hears what its listener answers to a first request. -/
theorem reply_eq (c : MockConfig) (hasher : Hasher) (x : Exchange) (body : List WireEntry) :
    reply c hasher x body = heard (Listener.answer ⟨c.failures.lookup (x.handle.index : Int), 0⟩
      (worker c hasher) (received body)) := by
  simp only [reply, Listeners.perform_receive, List.lookup_cons, beq_self_eq_true, Option.getD_some]
  rfl

/-- What an exchange hears does not depend on what the other listeners got, as long as its own has got
no request. -/
theorem reply_of_lookup {s : Logged Listening} (hfresh : s.state.listeners.lookup x.handle.token =
    some ⟨c.failures.lookup (x.handle.index : Int), 0⟩) :
    heard ((Listeners.receive (worker c hasher) x.handle.token (received body)).perform s).1 =
      reply c hasher x body := by
  rw [Listeners.perform_receive, hfresh, Option.getD_some, reply_eq]

/-- In a spawner that has just made its listeners, each of them replies to its first request, whatever
requests the others got before. -/
theorem reply_of_entered {authority : Nat → String} {serial count i : Nat}
    (hh : (Listeners.handles authority serial count)[i]? = some x.handle) {s : Logged Listening}
    (hs : s.state.listeners = Listeners.entered c serial count) {requests : List (Token × Request)}
    (hothers : ∀ q ∈ requests, q.1 ≠ x.handle.token) :
    heard ((Listeners.receive (worker c hasher) x.handle.token (received body)).perform
        (Listeners.attended (worker c hasher) s requests)).1 = reply c hasher x body := by
  refine reply_of_lookup ?_
  rw [Listeners.lookup_attended _ hothers, hs]
  exact Listeners.lookup_entered c hh

/-- A listener that is not made to fail replies as if none were. -/
theorem reply_of_healthy (hhealthy : c.failures.lookup (x.handle.index : Int) = none) :
    reply c hasher x body = reply { c with failures := [] } hasher x body := by
  rw [reply_eq, reply_eq, hhealthy]
  rfl

/-- The reply of a listener that is made to fail is judged as its way to fail demands. -/
theorem judge_of_failing {mode : FailureMode}
    (hmode : c.failures.lookup (x.handle.index : Int) = some mode) :
    ∃ fault reason, mode.Shows fault ∧
      x.judge (reply c hasher x body) =
        .error (.run (.exchange ⟨fault, reason, some x.chunk, some x.handle.address⟩)) := by
  rw [reply_eq, hmode]
  cases mode with
  | reject => exact ⟨_, _, ⟨_, rfl⟩, rfl⟩
  | malformed =>
      let shape := (Json.obj [("unexpected", .str "shape")]).wire
      obtain ⟨issues, hissues⟩ := Wire.readTreeChars_of_wrong_shape x.entries
      have hjudged : x.judgeBody shape.toUTF8.toList (.ok (Utf8.lossy shape.toUTF8.toList)) =
          x.fail (.malformed none (Exchange.preview (Utf8.lossy shape.toUTF8.toList)))
            ("unexpected response format: " ++ toString issues.length ++ " validation error(s)") := by
        unfold Exchange.judgeBody
        rw [Utf8.decodeChars?_toUTF8, hissues]
        rfl
      exact ⟨_, _, ⟨_, _, rfl⟩, hjudged⟩
  | hang => exact ⟨_, _, rfl, rfl⟩

/-- Entries that can be written are sent as they are. -/
theorem request_of_fits {url : Address} (hurl : Address.base? x.handle.address = some url)
    (hfits : ∀ e ∈ x.entries, ∀ b ∈ e.amounts, Decimal.fits b = true) :
    x.request = .ok (url, x.entries.map Entry.wire) := by
  unfold Exchange.request
  rw [Wire.encodeEntries_of_fits hfits]
  simp only [hurl]

/-- The reply of a listener that is not made to fail is judged as the tree over the entries, as long as
these fit into a request. -/
theorem judge_of_build {tree : MiniTree}
    (hhealthy : c.failures.lookup (x.handle.index : Int) = none) (hhasher : hasher.NeverEmpty)
    (hbuild : MiniTree.build hasher c.policy x.entries = .ok tree)
    (hfits : ∀ e ∈ x.entries, ∀ b ∈ e.amounts, Decimal.fits b = true)
    (hsize : (Wire.requestJson (x.entries.map Entry.wire)).wire.toUTF8.toList.length <
      Request.sizeLimit) :
    x.judge (reply c hasher x (x.entries.map Entry.wire)) = .ok tree := by
  have htext : Json.Spells 3 (Wire.requestJson (x.entries.map Entry.wire))
      (Wire.requestJson (x.entries.map Entry.wire)).wire.toList := by
    rw [Json.wire, String.toList_ofList]
    exact Json.spells_wireChars (Wire.legible_requestJson_wire _)
  have hanswer := (worker c hasher).answer_of_build hhasher hbuild hfits htext hsize
  have hcount : x.entries.length ≤ Request.sizeLimit :=
    Nat.le_trans (length_le_of_spells htext) (Nat.le_of_lt hsize)
  have hanswered : Listener.answer ⟨none, 0⟩ (worker c hasher)
      (received (x.entries.map Entry.wire)) = .ok (some ⟨200, some (Wire.treeJson tree)⟩) :=
    congrArg (Except.map some) hanswer
  rw [reply_eq, hhealthy, hanswered]
  exact Exchange.judge_of_build hhasher hbuild hcount _

/-- What happens to exchanges whose listeners answer all that they can: nobody interferes, each reply
that comes in is that of the listener, and unless the run breaks off, every exchange begins, is
answered, and wakes before the run collects. -/
structure Serves (c : MockConfig) (hasher : Hasher) (xs : List Exchange)
    (happenings : List Happening) : Prop where
  uncancelled : .cancels ∉ happenings
  unstopped : Proceedings.Unstopped happenings
  replies : ∀ i given, .replies i given ∈ happenings → ∀ (x : Exchange) url body, xs[i]? = some x →
    x.request = .ok (url, body) → given = reply c hasher x body
  answers : (Proceedings.play xs happenings).ending.isBroken = false → ∀ i < xs.length,
    ∃ given seesSignal stopped resisting, List.Sublist [.begins i, .replies i given, .wakes i,
      .collects seesSignal stopped resisting] happenings

/-- The listeners of some exchanges reply trees. -/
def Yields (c : MockConfig) (hasher : Hasher) (xs : List Exchange) (t : Nat → MiniTree) : Prop :=
  ∀ (i : Nat) (x : Exchange), xs[i]? = some x → ∃ url body, x.request = .ok (url, body) ∧
    x.judge (reply c hasher x body) = .ok (t i)

variable {xs : List Exchange} {happenings : List Happening} {t : Nat → MiniTree}

/-- Whenever the listeners answer: when all requests can be sent, they answer all that they can. -/
theorem serves_schedule (c : MockConfig) (hasher : Hasher) (moment : Nat → Nat)
    (hrequests : ∀ x ∈ xs, ∃ url body, x.request = .ok (url, body)) :
    Serves c hasher xs (schedule c hasher moment xs).happenings := by
  have hcourse : ∀ (i : Nat) (given : Course), (schedule c hasher moment xs).courses[i]? = some given →
      ∃ x, xs[i]? = some x ∧ ∃ url body, x.request = .ok (url, body) ∧
        given.reply? = some (moment x.chunk, reply c hasher x body) := by
    intro i given hgiven
    rw [schedule, List.getElem?_map] at hgiven
    obtain ⟨x, hx, rfl⟩ := Option.map_eq_some_iff.mp hgiven
    obtain ⟨url, body, hrequest⟩ := hrequests x (List.mem_of_getElem? hx)
    exact ⟨x, hx, url, body, hrequest, by rw [course, hrequest]⟩
  -- What happens is one of three things, so that only the case remains that fits each field.
  constructor
  · intro hcancels
    rcases Schedule.of_mem_happenings rfl rfl hcancels with
      ⟨i, h⟩ | ⟨i, course, m, given, -, -, h | h⟩ | ⟨resisting, h⟩ <;> cases h
  · intro seesSignal resisting hstopped
    rcases Schedule.of_mem_happenings rfl rfl hstopped with
      ⟨i, h⟩ | ⟨i, course, m, given, -, -, h | h⟩ | ⟨resisting, h⟩ <;> cases h
  · intro i given hreplies x url body hx hrequest
    rcases Schedule.of_mem_happenings rfl rfl hreplies with
      ⟨i, h⟩ | ⟨i, course, m, given, hi, hgiven, h | h⟩ | ⟨resisting, h⟩ <;> cases h
    obtain ⟨x', hx', url', body', hrequest', hreply⟩ := hcourse i course hi
    rw [hx, Option.some.injEq] at hx'
    subst hx'
    rw [hrequest] at hrequest'
    cases hrequest'
    rw [hgiven, Option.some.injEq, Prod.mk.injEq] at hreply
    exact hreply.2
  · intro _ i hi
    have hlength : i < (schedule c hasher moment xs).courses.length := by
      rwa [schedule, List.length_map]
    obtain ⟨x, -, url, body, -, hreply⟩ := hcourse i _ (List.getElem?_eq_getElem hlength)
    obtain ⟨stopped, resisting, h⟩ :=
      Schedule.sublist_happenings (List.getElem?_eq_getElem hlength) hreply
    exact ⟨_, true, stopped, resisting, h⟩

/-- The wait for listeners ends. -/
theorem Serves.ends (h : Serves c hasher xs happenings) :
    (Proceedings.play xs happenings).ending ≠ .unfinished := by
  intro hunfinished
  have hunbroken : (Proceedings.play xs happenings).ending.isBroken = false := by
    rw [hunfinished]
    rfl
  refine Proceedings.ends_of_brought (fun i hi => ?_) hunfinished
  obtain ⟨given, seesSignal, stopped, resisting, hanswered⟩ := h.answers hunbroken i hi
  exact Proceedings.exists_firstOutcome_of_answered hi hanswered

/-- When the wait ends with trees, these are what the listeners reply. -/
theorem Serves.yields (h : Serves c hasher xs happenings) {trees : List MiniTree}
    (hcomplete : (Proceedings.play xs happenings).ending = .complete trees) :
    ∃ t, trees = (List.range xs.length).map t ∧ Yields c hasher xs t := by
  have hsound := Proceedings.sound_play xs happenings
  obtain ⟨t, htrees, hjudged⟩ := hsound.of_complete hcomplete
  refine ⟨t, htrees, fun i x hx => ?_⟩
  have hexchange := hsound.getElem?_exchange i
  rw [hx] at hexchange
  obtain ⟨y, hy, rfl⟩ := Option.map_eq_some_iff.mp hexchange
  obtain ⟨⟨url, body⟩, given, hrequest, -, hgiven, hjudge⟩ := hjudged i y hy
  rw [h.replies i given hgiven _ url body hx hrequest] at hjudge
  exact ⟨url, body, hrequest, hjudge⟩

/-- When honest listeners reply trees, the failure that the run hears of comes from a listener that is
made to fail. -/
theorem Serves.exists_of_error? (h : Serves c hasher xs happenings)
    (hhonest : Yields { c with failures := [] } hasher xs t) {e : RunError}
    (he : (Proceedings.play xs happenings).ending.error? = some e) :
    ∃ (i : Nat) (x : Exchange) (mode : FailureMode) (fault : ExchangeFault) (reason : String),
      xs[i]? = some x ∧ c.failures.lookup (x.handle.index : Int) = some mode ∧ mode.Shows fault ∧
        e = .exchange ⟨fault, reason, some x.chunk, some x.handle.address⟩ := by
  obtain ⟨-, -, i, x, failure, hx, -, hown, rfl⟩ :=
    (Proceedings.uncancelled_play xs happenings h.uncancelled).failure e he
  obtain ⟨url, body, hrequest, hjudge⟩ := hhonest i x hx
  -- The request can be sent, so that it is a reply that was judged to be a failure.
  rcases hown with hrefused | ⟨given, hgiven, hfails⟩
  · rw [hrequest] at hrefused
    cases hrefused
  · rw [h.replies i given hgiven x url body hx hrequest] at hfails
    cases hmode : c.failures.lookup (x.handle.index : Int) with
    | none =>
        rw [reply_of_healthy hmode, hjudge] at hfails
        cases hfails
    | some mode =>
        obtain ⟨fault, reason, hshows, hjudged⟩ := judge_of_failing hmode
        rw [hjudged] at hfails
        cases hfails
        exact ⟨i, x, mode, fault, reason, hx, hmode, hshows, rfl⟩

/-- When all trees come, no listener was made to fail, and the trees are those of honest listeners. -/
theorem Serves.trees_of_complete (h : Serves c hasher xs happenings)
    (hhonest : Yields { c with failures := [] } hasher xs t) {trees : List MiniTree}
    (hcomplete : (Proceedings.play xs happenings).ending = .complete trees) :
    trees = (List.range xs.length).map t ∧
      ∀ (i : Nat) (x : Exchange), xs[i]? = some x → c.failures.lookup (x.handle.index : Int) = none := by
  obtain ⟨t', rfl, hyields⟩ := h.yields hcomplete
  have hsame : ∀ (i : Nat) (x : Exchange), xs[i]? = some x →
      c.failures.lookup (x.handle.index : Int) = none ∧ t' i = t i := by
    intro i x hx
    obtain ⟨url, body, hrequest, hjudge⟩ := hyields i x hx
    obtain ⟨url', body', hrequest', hjudge'⟩ := hhonest i x hx
    rw [hrequest] at hrequest'
    cases hrequest'
    cases hmode : c.failures.lookup (x.handle.index : Int) with
    | none =>
        rw [reply_of_healthy hmode, hjudge'] at hjudge
        exact ⟨rfl, (Except.ok.inj hjudge).symm⟩
    | some mode =>
        obtain ⟨fault, reason, -, hjudged⟩ := judge_of_failing hmode
        rw [hjudged] at hjudge
        cases hjudge
  refine ⟨List.map_congr_left fun i hi => ?_, fun i x hx => (hsame i x hx).1⟩
  exact (hsame i _ (List.getElem?_eq_getElem (List.mem_range.mp hi))).2

end InProcess

end SumTree
