import SumTree.Proofs.Spawner.Books
import SumTree.Proofs.Spawner.Turns
import SumTree.Spawner.Listeners

/-!
# Listeners over their lives

A spawner of listeners whose host can be opened hands out one handle for each position, with tokens
numbered over its life (`Listeners.perform_acquire`). Requests are only counted
(`Listeners.perform_receive`), so a listener answers its first request the same way whatever the others
got (`Listeners.lookup_attended`). When all live handles are released, each is taken down once, and no
listener of theirs is left (`Listeners.perform_release_attended`).

## Main Definitions

* `Listener.answer` — what a listener answers to a request.
* `Listeners.attended` — the listeners after some requests to them.
* `Listeners.Opens` — a host can be opened.
* `Listeners.handles`, `Listeners.entered` — the handles of an acquisition, and their listeners.
* `Listeners.without` — the listeners once some handles were taken down.
-/

namespace SumTree

/-- What a listener answers to a request; nothing while it hangs. -/
def Listener.answer (l : Listener) (w : Worker) (r : Request) : Except Failure (Option Response) :=
  match if l.requests == 0 then l.failure? else none with
  | some .reject => .ok (some (.refusal 500 "injected failure"))
  | some .malformed => .ok (some ⟨200, some (.obj [("unexpected", .str "shape")])⟩)
  | some .hang => .ok none
  | none => (w.answer r).map some

namespace Ledger

/-- The first of the live handles is struck. -/
theorem strike_cons {h : Handle} {rest : List Handle}
    (htokens : ((h :: rest).map Handle.token).Nodup) : strike (h :: rest) h.token = rest := by
  rw [List.map_cons, List.nodup_cons] at htokens
  have hother : ∀ l ∈ rest, (l.token != h.token) = true := by
    intro l hl
    rw [bne_iff_ne]
    exact fun hsame => htokens.1 (hsame ▸ List.mem_map_of_mem hl)
  rw [strike, List.filter_cons_of_neg (by simp), List.filter_eq_self.mpr hother]

end Ledger

namespace Listeners

open SumTree.Action

/-! ### Requests -/

/-- The state once the listener with a token got a request. -/
def counted (s : Listening) (t : Token) : Listening :=
  { s with listeners := s.listeners.map fun l =>
      if l.1 == t then (t, { l.2 with requests := l.2.requests + 1 }) else l }

/-- A request is answered by its listener, and counted. -/
theorem perform_receive (w : Worker) (t : Token) (r : Request) (s : Logged Listening) :
    (receive w t r).perform s =
      (((s.state.listeners.lookup t).getD ⟨none, 0⟩).answer w r, ⟨counted s.state t, s.journal⟩) := by
  unfold receive
  rw [perform_bind_ok (perform_state s), perform_bind_ok (perform_change _ s), Listener.answer]
  generalize (s.state.listeners.lookup t).getD ⟨none, 0⟩ = listener
  generalize (if listener.requests == 0 then listener.failure? else none) = mode?
  cases mode? with
  | some mode => cases mode <;> rfl
  | none =>
      cases w.answer r with
      | ok response => rfl
      | error failure => rfl

/-- A request leaves the other listeners alone. -/
theorem lookup_receive_of_ne (w : Worker) {t other : Token} (hne : other ≠ t) (r : Request)
    (s : Logged Listening) :
    ((receive w t r).perform s).2.state.listeners.lookup other = s.state.listeners.lookup other := by
  rw [perform_receive]
  dsimp only [counted]
  induction s.state.listeners with
  | nil => rfl
  | cons l rest ih =>
      rw [List.map_cons, List.lookup_cons, List.lookup_cons, ih]
      by_cases htoken : l.1 = t
      · rw [if_pos (beq_iff_eq.mpr htoken), htoken, beq_eq_false_iff_ne.mpr hne]
      · rw [if_neg (fun h => htoken (beq_iff_eq.mp h))]

/-- A request changes no tokens. -/
theorem tokens_receive (w : Worker) (t : Token) (r : Request) (s : Logged Listening) :
    ((receive w t r).perform s).2.state.listeners.map Prod.fst = s.state.listeners.map Prod.fst := by
  rw [perform_receive]
  dsimp only [counted]
  rw [List.map_map]
  refine List.map_congr_left fun l _ => ?_
  by_cases htoken : l.1 = t
  · simp [htoken]
  · simp [htoken]

/-- The listeners after some requests to them. -/
def attended (w : Worker) (s : Logged Listening) (requests : List (Token × Request)) :
    Logged Listening :=
  requests.foldl (fun s q => ((receive w q.1 q.2).perform s).2) s

theorem lookup_attended (w : Worker) {t : Token} {requests : List (Token × Request)}
    (hothers : ∀ q ∈ requests, q.1 ≠ t) (s : Logged Listening) :
    (attended w s requests).state.listeners.lookup t = s.state.listeners.lookup t := by
  rw [attended]
  induction requests generalizing s with
  | nil => rfl
  | cons q rest ih =>
      rw [List.foldl_cons, ih fun q' hq' => hothers q' (List.mem_cons_of_mem q hq')]
      exact lookup_receive_of_ne w (hothers q List.mem_cons_self).symm q.2 s

/-- Requests change nothing but how many requests each listener got. -/
theorem tokens_attended (w : Worker) (s : Logged Listening) (requests : List (Token × Request)) :
    (attended w s requests).state.listeners.map Prod.fst = s.state.listeners.map Prod.fst ∧
      (attended w s requests).state.serial = s.state.serial ∧
      (attended w s requests).state.teardowns = s.state.teardowns := by
  rw [attended]
  induction requests generalizing s with
  | nil => exact ⟨rfl, rfl, rfl⟩
  | cons q rest ih =>
      obtain ⟨htokens, hserial, hteardowns⟩ := ih ((receive w q.1 q.2).perform s).2
      rw [List.foldl_cons]
      rw [perform_receive] at hserial hteardowns
      refine ⟨htokens.trans (tokens_receive w q.1 q.2 s), ?_, ?_⟩
      · rw [perform_receive]
        exact hserial
      · rw [perform_receive]
        exact hteardowns

/-! ### Coming up -/

/-- A host can be opened, under an authority that may depend on how many listeners there were. -/
def Opens (listen : String → Action Listening String) (host : String) (authority : Nat → String) :
    Prop :=
  ∀ w, (listen host).perform w = (.ok (authority w.state.serial), w)

/-- The token with a number. -/
def tokenAt (serial : Nat) : Token :=
  .text ("mock-" ++ toString serial)

theorem tokenAt_injective : Function.Injective tokenAt :=
  Token.numbered_injective "mock-"

/-- The handles of listeners that come up one after the other, from a number and a position on. -/
def handlesFrom (authority : Nat → String) (serial index left : Nat) : List Handle :=
  (List.range left).map fun i =>
    ⟨"http://" ++ authority (serial + i), .mock, tokenAt (serial + i), index + i⟩

/-- The listeners that come up one after the other, from a number and a position on. -/
def enteredFrom (c : MockConfig) (serial index left : Nat) : List (Token × Listener) :=
  (List.range left).map fun i =>
    (tokenAt (serial + i), ⟨c.failures.lookup ((index + i : Nat) : Int), 0⟩)

theorem handlesFrom_succ (authority : Nat → String) (serial index left : Nat) :
    handlesFrom authority serial index (left + 1) =
      ⟨"http://" ++ authority serial, .mock, tokenAt serial, index⟩ ::
        handlesFrom authority (serial + 1) (index + 1) left := by
  rw [handlesFrom, List.range_succ_eq_map, List.map_cons, List.map_map, handlesFrom]
  simp only [Function.comp_def, Nat.add_zero, Nat.succ_eq_add_one, Nat.add_assoc, Nat.add_comm 1]

theorem enteredFrom_succ (c : MockConfig) (serial index left : Nat) :
    enteredFrom c serial index (left + 1) =
      (tokenAt serial, ⟨c.failures.lookup (index : Int), 0⟩) ::
        enteredFrom c (serial + 1) (index + 1) left := by
  rw [enteredFrom, List.range_succ_eq_map, List.map_cons, List.map_map, enteredFrom]
  simp only [Function.comp_def, Nat.add_zero, Nat.succ_eq_add_one, Nat.add_assoc, Nat.add_comm 1]

section

variable {c : MockConfig} {listen : String → Action Listening String} {authority : Nat → String}
  (hopens : Opens listen c.host authority)

include hopens

theorem perform_listenAt (index : Nat) (w : Logged Listening) :
    (listenAt c listen index).perform w =
      (.ok ⟨"http://" ++ authority w.state.serial, .mock, tokenAt w.state.serial, index⟩,
        ⟨{ w.state with
            serial := w.state.serial + 1
            listeners := w.state.listeners ++
              [(tokenAt w.state.serial, ⟨c.failures.lookup (index : Int), 0⟩)] }, w.journal⟩) := by
  unfold listenAt
  rw [perform_bind_ok (hopens w)]
  rfl

theorem perform_listenFrom (count left index : Nat) (started : List Handle) (w : Logged Listening) :
    (listenFrom c listen count left index started).perform w =
      (.ok (started ++ handlesFrom authority w.state.serial index left),
        ⟨{ w.state with
            serial := w.state.serial + left
            listeners := w.state.listeners ++ enteredFrom c w.state.serial index left },
          w.journal⟩) := by
  induction left generalizing index started w with
  | zero =>
      rw [listenFrom, perform_pure, handlesFrom, enteredFrom, List.range_zero, List.map_nil,
        List.map_nil, List.append_nil, List.append_nil]
      rfl
  | succ left ih =>
      have hattempt := perform_attempt (listenAt c listen index) w
      rw [perform_listenAt hopens] at hattempt
      rw [listenFrom, perform_bind_ok hattempt]
      dsimp only
      rw [ih, handlesFrom_succ, enteredFrom_succ, List.append_assoc, List.append_assoc]
      simp only [List.singleton_append, Nat.add_assoc, Nat.add_comm 1]

end

/-- The handles of an acquisition. -/
def handles (authority : Nat → String) (serial count : Nat) : List Handle :=
  handlesFrom authority serial 0 count

/-- The listeners of an acquisition. -/
def entered (c : MockConfig) (serial count : Nat) : List (Token × Listener) :=
  enteredFrom c serial 0 count

theorem length_handles (authority : Nat → String) (serial count : Nat) :
    (handles authority serial count).length = count := by
  rw [handles, handlesFrom, List.length_map, List.length_range]

/-- The handle of a position. -/
theorem eq_of_getElem?_handles {authority : Nat → String} {serial count i : Nat} {h : Handle}
    (hh : (handles authority serial count)[i]? = some h) :
    i < count ∧ h = ⟨"http://" ++ authority (serial + i), .mock, tokenAt (serial + i), i⟩ := by
  rw [handles, handlesFrom, List.getElem?_map, Option.map_eq_some_iff] at hh
  obtain ⟨j, hj, rfl⟩ := hh
  obtain ⟨hi, hji⟩ := List.getElem?_eq_some_iff.mp hj
  rw [List.getElem_range] at hji
  rw [List.length_range] at hi
  subst hji
  exact ⟨hi, by rw [Nat.zero_add]⟩

theorem tokens_handles (authority : Nat → String) (serial count : Nat) :
    (handles authority serial count).map Handle.token =
      (List.range count).map fun i => tokenAt (serial + i) := by
  rw [handles, handlesFrom, List.map_map]
  rfl

/-- The listeners of an acquisition have the tokens of its handles. -/
theorem tokens_entered (c : MockConfig) (authority : Nat → String) (serial count : Nat) :
    (entered c serial count).map Prod.fst =
      (handles authority serial count).map Handle.token := by
  rw [tokens_handles, entered, enteredFrom, List.map_map]
  rfl

/-- No two listeners of an acquisition have the same token. -/
theorem nodup_tokens (authority : Nat → String) (serial count : Nat) :
    ((handles authority serial count).map Handle.token).Nodup := by
  rw [tokens_handles]
  refine List.nodup_range.map fun i j h => ?_
  exact Nat.add_left_cancel (tokenAt_injective h)

/-- A listener that has come up has got no request yet. -/
theorem lookup_enteredFrom (c : MockConfig) (serial index : Nat) {left i : Nat} (hi : i < left) :
    (enteredFrom c serial index left).lookup (tokenAt (serial + i)) =
      some ⟨c.failures.lookup ((index + i : Nat) : Int), 0⟩ := by
  induction left generalizing serial index i with
  | zero => exact absurd hi (Nat.not_lt_zero i)
  | succ left ih =>
      rw [enteredFrom_succ, List.lookup_cons]
      cases i with
      | zero =>
          rw [Nat.add_zero, beq_self_eq_true]
          rfl
      | succ i =>
          have hother : (tokenAt (serial + (i + 1)) == tokenAt serial) = false := by
            rw [beq_eq_false_iff_ne]
            intro htoken
            have := tokenAt_injective htoken
            omega
          rw [hother, show serial + (i + 1) = serial + 1 + i by omega,
            show index + (i + 1) = index + 1 + i by omega]
          exact ih (serial + 1) (index + 1) (Nat.lt_of_succ_lt_succ hi)

/-- The listener of a handle of an acquisition. -/
theorem lookup_entered (c : MockConfig) {authority : Nat → String} {serial count i : Nat} {h : Handle}
    (hh : (handles authority serial count)[i]? = some h) :
    (entered c serial count).lookup h.token = some ⟨c.failures.lookup (h.index : Int), 0⟩ := by
  obtain ⟨hi, rfl⟩ := eq_of_getElem?_handles hh
  have hlookup := lookup_enteredFrom c serial 0 hi
  rwa [Nat.zero_add] at hlookup

/-- An acquisition without live handles: as many listeners as it is asked for come up. -/
theorem perform_acquire {c : MockConfig} {listen : String → Action Listening String}
    {authority : Nat → String} (hopens : Opens listen c.host authority)
    (hown : c.addresses? = none) {count : Int} (hcount : 1 ≤ count) (s : Listening)
    (journal : List LogRecord) :
    ∃ journal', ((provider c listen).acquire count).perform ⟨⟨[], s⟩, journal⟩ =
      (.ok (handles authority s.serial count.toNat),
        ⟨⟨handles authority s.serial count.toNat,
          { s with
            serial := s.serial + count.toNat
            listeners := s.listeners ++ entered c s.serial count.toNat }⟩, journal'⟩) := by
  have hprovision : ((provider c listen).provision count.toNat).perform
      ((provider c listen).announced count ⟨⟨[], s⟩, journal⟩) =
        (.ok (handles authority s.serial count.toNat),
          ⟨{ s with
            serial := s.serial + count.toNat
            listeners := s.listeners ++ entered c s.serial count.toNat },
            ((provider c listen).announced count ⟨⟨[], s⟩, journal⟩).journal⟩) := by
    show (provision c listen count.toNat).perform _ = _
    rw [provision, hown]
    exact perform_listenFrom hopens _ _ _ _ _
  have hacquired := (provider c listen).perform_acquire_of_provision count hcount hprovision
    fun _ h => Except.ok.inj h ▸ length_handles authority s.serial count.toNat
  rw [handed, Ledger.foldl_enter (nodup_tokens authority s.serial count.toNat),
    List.nil_append] at hacquired
  exact ⟨_, hacquired⟩

/-! ### Being taken down -/

/-- The state once some handles were taken down. -/
def without (s : Listening) (handles : List Handle) : Listening :=
  { s with
    listeners := s.listeners.filter fun l => l.1 ∉ handles.map Handle.token
    teardowns := s.teardowns ++ handles }

theorem without_cons (s : Listening) (h : Handle) (rest : List Handle) :
    without { s with
      listeners := s.listeners.filter (·.1 != h.token)
      teardowns := s.teardowns ++ [h] } rest = without s (h :: rest) := by
  rw [without, without, List.filter_filter, List.append_assoc, List.singleton_append]
  congr 1
  refine List.filter_congr fun l _ => ?_
  rw [Bool.eq_iff_iff]
  simp [and_comm]

/-- When the handles of all listeners were taken down, none is left. -/
theorem without_of_tokens {s : Listening} {handles : List Handle}
    (htokens : s.listeners.map Prod.fst = handles.map Handle.token) :
    without s handles = ⟨s.serial, [], s.teardowns ++ handles⟩ := by
  rw [without, List.filter_eq_nil_iff.mpr]
  intro l hl
  have htoken : l.1 ∈ s.listeners.map Prod.fst := List.mem_map_of_mem hl
  rw [htokens] at htoken
  simpa using htoken

variable (c : MockConfig) (listen : String → Action Listening String)

/-- A live handle is taken down, whatever the state of its listener. -/
theorem perform_releaseOne (done : Provider.Released) {h : Handle} {w : Logged (Ledger Listening)}
    (hlive : Ledger.find? w.state.live h.token = some h) :
    ((provider c listen).releaseOne done h).perform w =
      (.ok { done with released := done.released ++ [h] },
        ⟨⟨Ledger.strike w.state.live h.token,
          { w.state.inner with
            listeners := w.state.inner.listeners.filter (·.1 != h.token)
            teardowns := w.state.inner.teardowns ++ [h] }⟩, w.journal⟩) := by
  unfold Provider.releaseOne
  rw [perform_bind_ok (perform_state w), if_neg (by simp [hlive])]
  rfl

/-- All live handles are taken down, each of them once. -/
theorem perform_releaseAll (done : Provider.Released) (w : Logged (Ledger Listening))
    (htokens : (w.state.live.map Handle.token).Nodup) :
    (w.state.live.foldlM (provider c listen).releaseOne done).perform w =
      (.ok { done with released := done.released ++ w.state.live },
        ⟨⟨[], without w.state.inner w.state.live⟩, w.journal⟩) := by
  obtain ⟨⟨live, inner⟩, journal⟩ := w
  dsimp only at htokens ⊢
  induction live generalizing done inner with
  | nil =>
      rw [List.foldlM_nil, perform_pure, List.append_nil, without, List.append_nil]
      simp
  | cons h rest ih =>
      have hlive : Ledger.find? (h :: rest) h.token = some h :=
        (Ledger.find?_eq_some_iff htokens).mpr List.mem_cons_self
      rw [List.foldlM_cons, perform_bind_ok (perform_releaseOne c listen done hlive)]
      dsimp only
      rw [Ledger.strike_cons htokens, ih _ _ (List.nodup_cons.mp htokens).2, without_cons,
        List.append_assoc, List.singleton_append]

/-- A release of all live handles takes each of them down once, and succeeds. -/
theorem perform_release (w : Logged (Ledger Listening))
    (htokens : (w.state.live.map Handle.token).Nodup) :
    ∃ journal, ((provider c listen).release w.state.live).perform w =
      (.ok (), ⟨⟨[], without w.state.inner w.state.live⟩, journal⟩) := by
  have hall := perform_releaseAll c listen ⟨[], []⟩ w htokens
  rw [Provider.release_eq, perform_bind_ok hall, List.nil_append]
  split
  · exact Provider.perform_conclude w.state.live.length ⟨[], w.state.live⟩ [] _
  · rw [perform_bind_ok (perform_state _)]
    exact Provider.perform_conclude w.state.live.length ⟨[], w.state.live⟩ [] _

/-- A release of the handles of all listeners leaves none of them. -/
theorem perform_release_of_tokens {inner : Listening} {handles : List Handle}
    (htokens : inner.listeners.map Prod.fst = handles.map Handle.token)
    (hnodup : (handles.map Handle.token).Nodup) (journal : List LogRecord) :
    ∃ journal', ((provider c listen).release handles).perform ⟨⟨handles, inner⟩, journal⟩ =
      (.ok (), ⟨⟨[], ⟨inner.serial, [], inner.teardowns ++ handles⟩⟩, journal'⟩) := by
  rw [← without_of_tokens htokens]
  exact perform_release c listen ⟨⟨handles, inner⟩, journal⟩ hnodup

/-- This is so whatever requests the listeners of an acquisition got before. -/
theorem perform_release_attended (w : Worker) (authority : Nat → String) (serial count : Nat)
    (torn : List Handle) (requests : List (Token × Request)) (journal : List LogRecord) :
    let handles := handles authority serial count
    let inner := (attended w ⟨⟨serial + count, entered c serial count, torn⟩, []⟩ requests).state
    ∃ journal', ((provider c listen).release handles).perform ⟨⟨handles, inner⟩, journal⟩ =
      (.ok (), ⟨⟨[], ⟨serial + count, [], torn ++ handles⟩⟩, journal'⟩) := by
  intro handles inner
  obtain ⟨htokens, hserial, hteardowns⟩ :=
    tokens_attended w ⟨⟨serial + count, entered c serial count, torn⟩, []⟩ requests
  have hsame : inner.listeners.map Prod.fst = handles.map Handle.token :=
    htokens.trans (tokens_entered c authority serial count)
  obtain ⟨journal', hrelease⟩ := perform_release_of_tokens c listen hsame
    (nodup_tokens authority serial count) journal
  rw [hserial, hteardowns] at hrelease
  exact ⟨journal', hrelease⟩

end Listeners

end SumTree
