import SumTree.Proofs.Run.Accepted
import SumTree.Run.Round

/-!
# How exchanges end

An exchange that nobody cancels ends with the first reply that comes in. A time that runs out or a
connection that fails makes the worker unreachable, an answer that is no success makes it one that
rejects, and a success is either the tree of the chunk or malformed (`Exchange.Documented`). Every one
of these errors names the chunk and the worker, and shows no more than the front of the body.

Two things end an exchange in another way (`Exchange.Undocumented`): what else fails on the way of a
reply is passed on as it is, and totals that are not those of the chunk cannot be reported when there
are too many digits to be written among them. An exchange ends in one of these ways or in one of the
others, and the reply decides which (`Exchange.ends_as_documented`).

## Main Definitions

* `Exchange.Undisturbed` — what an exchange finds that is neither cancelled nor stopped.
* `Exchange.firstReply?` — the reply that counts.
* `Exchange.error` — an error that names the chunk and the worker of an exchange.
* `Exchange.Documented`, `Exchange.Undocumented` — how an exchange ends with a reply.
-/

namespace SumTree

/-! ### Numbers in a message -/

/-- Numbers in brackets are written when each of them is. -/
theorem tupleText_cases (numbers : List Int) :
    ((∀ n ∈ numbers, Decimal.fits n = true) ∧ ∃ text, tupleText numbers = .ok text) ∨
      (∃ n ∈ numbers, Decimal.fits n = false) ∧ tupleText numbers = .error .tooLongToWrite := by
  rw [tupleText]
  by_cases hall : ∀ n ∈ numbers, Decimal.fits n = true
  · have htexts : numbers.mapM Decimal.text = .ok (numbers.map Decimal.render) :=
      mapM_eq_ok_map fun n hn => Decimal.text_of_fits (hall n hn)
    refine .inl ⟨hall, ?_⟩
    simp only [htexts, bind, Except.bind]
    split
    · exact ⟨_, rfl⟩
    · exact ⟨_, rfl⟩
  · push Not at hall
    obtain ⟨n, hn, hunfit⟩ := hall
    have hunfit' : Decimal.fits n = false := by simpa using hunfit
    refine .inr ⟨⟨n, hn, hunfit'⟩, ?_⟩
    cases htexts : numbers.mapM Decimal.text with
    | ok texts =>
        obtain ⟨text, htext⟩ := exists_of_mem_mapM htexts hn
        rw [(Decimal.of_text_eq_ok htext).1] at hunfit'
        cases hunfit'
    | error fault =>
        obtain ⟨m, -, hm⟩ := exists_of_mapM_eq_error htexts
        rw [(Decimal.of_text_eq_error hm).2]
        rfl

/-- Only totals may be impossible to report, given a depth that is not. -/
theorem Inconsistency.message_cases {found : Inconsistency}
    (hdepth : ∀ depth expected, found = .depth depth expected → Decimal.fits depth = true) :
    (∃ text, found.message = .ok text) ∨
      ∃ balances expected, found = .totals balances expected ∧
        (∃ n ∈ balances ++ expected, Decimal.fits n = false) ∧
        found.message = .error .tooLongToWrite := by
  cases found with
  | noLevels => exact .inl ⟨_, rfl⟩
  | leafCount found expected => exact .inl ⟨_, rfl⟩
  | topLevel => exact .inl ⟨_, rfl⟩
  | width found expected => exact .inl ⟨_, rfl⟩
  | depth depth expected =>
      rw [message, Decimal.text_of_fits (hdepth depth expected rfl)]
      exact .inl ⟨_, rfl⟩
  | totals balances expected =>
      rw [message]
      rcases tupleText_cases balances with ⟨-, text, htext⟩ | ⟨⟨n, hn, hunfit⟩, hfault⟩
      · rcases tupleText_cases expected with ⟨-, text', htext'⟩ | ⟨⟨n, hn, hunfit⟩, hfault⟩
        · rw [htext, htext']
          exact .inl ⟨_, rfl⟩
        · rw [htext, hfault]
          exact .inr ⟨_, _, rfl, ⟨n, List.mem_append_right _ hn, hunfit⟩, rfl⟩
      · rw [hfault]
        exact .inr ⟨_, _, rfl, ⟨n, List.mem_append_left _ hn, hunfit⟩, rfl⟩

namespace Exchange

/-! ### What an exchange finds -/

/-- Neither the signal to cancel nor a stop from outside is ever found. -/
def Undisturbed (wakes : List Wake) : Prop :=
  ∀ wake ∈ wakes, wake.signalled = false ∧ wake.stopped = false

/-- The reply that counts: the first one that is found. -/
def firstReply? (wakes : List Wake) : Option Reply :=
  wakes.findSome? Wake.reply?

variable {x : Exchange}

/-- An undisturbed exchange waits for its reply and judges it. -/
theorem await_of_undisturbed {wakes : List Wake} (h : Undisturbed wakes) :
    x.await wakes = (firstReply? wakes).map x.judge := by
  induction wakes with
  | nil => rfl
  | cons wake rest ih =>
      obtain ⟨⟨hsignalled, hstopped⟩, hrest⟩ := List.forall_mem_cons.mp h
      rw [await, firstReply?, List.findSome?_cons]
      cases hreply : wake.reply? with
      | some reply => rfl
      | none =>
          simp only [hsignalled, hstopped, Bool.false_eq_true, if_false]
          exact ih hrest

/-! ### Ways to end -/

/-- An error that names the chunk and the worker of an exchange. -/
def error (x : Exchange) (fault : ExchangeFault) (reason : String) : Failure :=
  .run (.exchange ⟨fault, reason, some x.chunk, some x.handle.address⟩)

/-- A status of success. -/
def Succeeds (status : Int) : Prop :=
  200 ≤ status ∧ status ≤ 299

/-- A body that is no tree, or one that cannot be the sum tree of the chunk. -/
def Unusable (x : Exchange) (body : List UInt8) : Prop :=
  ∀ t, Wire.readTreeChars x.entries (Utf8.decodeChars? body) = .ok t →
    inconsistency? t x.entries ≠ none

/-- How an exchange ends with a reply, as its errors are documented. -/
inductive Documented (x : Exchange) : Reply → Outcome → Prop
  | timedOut (reason : String) : Documented x .timedOut (.error (x.error .unreachable reason))
  | disconnected {name text : String} (reason : String) :
      Documented x (.disconnected name text) (.error (x.error .unreachable reason))
  | rejected {status : Int} {body : List UInt8} {text shown : String} (reason : String)
      (failure : ¬ Succeeds status) (front : shown.toList = text.toList.take 500) :
      Documented x (.response status body (.ok text))
        (.error (x.error (.rejected (some status) shown) reason))
  | accepted {status : Int} {body : List UInt8} {text : Except Outside String} {t : MiniTree}
      (success : Succeeds status)
      (read : Wire.readTreeChars x.entries (Utf8.decodeChars? body) = .ok t)
      (entries : t.entries = x.entries) (consistent : inconsistency? t x.entries = none) :
      Documented x (.response status body text) (.ok t)
  | malformed {status : Int} {body : List UInt8} {text shown : String} (reason : String)
      (success : Succeeds status) (unusable : x.Unusable body)
      (front : shown.toList = text.toList.take 500) :
      Documented x (.response status body (.ok text))
        (.error (x.error (.malformed none shown) reason))

/-- How else an exchange ends with a reply. -/
inductive Undocumented (x : Exchange) : Reply → Outcome → Prop
  /-- What fails on the way of the reply is neither a time that runs out nor the connection. -/
  | broken (failure : Failure) : Undocumented x (.broken failure) (.error failure)
  /-- The totals are wrong, and cannot be written. -/
  | unwritten {status : Int} {body : List UInt8} {text : Except Outside String} {t : MiniTree} {n : Int}
      (success : Succeeds status)
      (read : Wire.readTreeChars x.entries (Utf8.decodeChars? body) = .ok t)
      (wrong : inconsistency? t x.entries =
        some (.totals t.root.balances (Entry.totals x.entries)))
      (mem : n ∈ t.root.balances ++ Entry.totals x.entries) (long : Decimal.fits n = false) :
      Undocumented x (.response status body text) (.error (.value .tooLongToWrite))
  /-- An error would show the answer, and the character set of the answer makes no text of it. -/
  | illegible {status : Int} {body : List UInt8} {o : Outside}
      (refused : ¬ Succeeds status ∨ x.Unusable body) :
      Undocumented x (.response status body (.error o)) (.error (.outside o))

theorem toList_preview (text : String) : (preview text).toList = text.toList.take 500 :=
  String.toList_ofList

/-- What is found wrong with a tree tells of its own depth and its own totals. -/
theorem data_of_inconsistency? {t : MiniTree} {entries : List Entry} {found : Inconsistency}
    (h : inconsistency? t entries = some found) :
    (∀ depth expected, found = .depth depth expected → depth = t.depth) ∧
      ∀ balances expected, found = .totals balances expected →
        balances = t.root.balances ∧ expected = Entry.totals entries := by
  rw [inconsistency?] at h
  split at h
  · cases h
    exact ⟨fun _ _ h => (by cases h), fun _ _ h => (by cases h)⟩
  · split at h
    · cases h
      exact ⟨fun _ _ h => (by cases h), fun _ _ h => (by cases h)⟩
    · split at h
      · cases h
        exact ⟨fun _ _ h => (by cases h), fun _ _ h => (by cases h)⟩
      · split at h
        · cases h
          exact ⟨fun _ _ h => (by cases h), fun _ _ h => (by cases h)⟩
        · split at h
          · cases h
            exact ⟨fun _ _ h => (by cases h; rfl), fun _ _ h => (by cases h)⟩
          · split at h
            · cases h
              exact ⟨fun _ _ h => (by cases h), fun _ _ h => (by cases h; exact ⟨rfl, rfl⟩)⟩
            · cases h

/-- A success without a usable tree is a malformed answer if there is a text to show of it. -/
theorem ends_of_unusable {status : Int} (hsuccess : Succeeds status) {body : List UInt8}
    (hunusable : x.Unusable body) (text : Except Outside String) (reason : String) :
    x.Documented (.response status body text) (x.refuse text (.malformed none) reason) ∨
      x.Undocumented (.response status body text) (x.refuse text (.malformed none) reason) := by
  cases text with
  | ok text => exact .inl (.malformed reason hsuccess hunusable (toList_preview text))
  | error o => exact .inr (.illegible (.inr hunusable))

/-- The body of a success makes a tree, an answer that is refused, or totals that cannot be written. -/
theorem ends_of_success {status : Int} (hsuccess : Succeeds status) (body : List UInt8)
    (text : Except Outside String) :
    x.Documented (.response status body text) (x.judgeBody body text) ∨
      x.Undocumented (.response status body text) (x.judgeBody body text) := by
  rw [judgeBody]
  cases hread : Wire.readTreeChars x.entries (Utf8.decodeChars? body) with
  | error issues =>
      refine ends_of_unusable hsuccess (fun t ht => ?_) text _
      rw [hread] at ht
      cases ht
  | ok t =>
      dsimp only
      cases hfound : inconsistency? t x.entries with
      | none => exact .inl (.accepted hsuccess hread (Wire.entries_of_readTreeChars hread) hfound)
      | some found =>
          have hunusable : x.Unusable body := by
            intro t' ht' hnone
            rw [hread] at ht'
            cases ht'
            rw [hfound] at hnone
            cases hnone
          obtain ⟨hdepth, htotals⟩ := data_of_inconsistency? hfound
          have hwritable := (Wire.writable_of_readTreeChars hread).2
          have hcases : (∃ problem, found.message = .ok problem) ∨ _ := Inconsistency.message_cases
            fun depth expected h => (hdepth depth expected h).symm ▸ hwritable
          rcases hcases with ⟨problem, hproblem⟩ | ⟨balances, expected, rfl, ⟨n, hn, hunfit⟩, hfault⟩
          · dsimp only
            rw [hproblem]
            exact ends_of_unusable hsuccess hunusable text _
          · obtain ⟨rfl, rfl⟩ := htotals balances expected rfl
            dsimp only
            rw [hfault]
            exact .inr (.unwritten hsuccess hread hfound hn hunfit)

/-- Every reply ends an exchange in one of these ways. -/
theorem ends_of_judge (x : Exchange) (reply : Reply) :
    x.Documented reply (x.judge reply) ∨ x.Undocumented reply (x.judge reply) := by
  cases reply with
  | timedOut => exact .inl (.timedOut _)
  | disconnected name text => exact .inl (.disconnected _)
  | broken failure => exact .inr (.broken failure)
  | response status body text =>
      rw [judge]
      by_cases hsuccess : Succeeds status
      · rw [if_pos (by simpa [Succeeds] using hsuccess)]
        exact ends_of_success hsuccess body text
      · rw [if_neg (by simpa [Succeeds] using hsuccess)]
        cases text with
        | ok text => exact .inl (.rejected _ hsuccess (toList_preview text))
        | error o => exact .inr (.illegible (.inl hsuccess))

/-- No reply ends an exchange in both kinds of ways. -/
theorem Undocumented.not_documented {reply : Reply} {outcome outcome' : Outcome}
    (h : x.Undocumented reply outcome) (h' : x.Documented reply outcome')
    (hsame : outcome = outcome') : False := by
  cases h with
  | broken failure => cases h'
  | unwritten success read wrong mem long =>
      cases h' with
      | rejected reason failure front => exact failure success
      | accepted _ _ _ _ => cases hsame
      | malformed _ _ _ _ => cases hsame
  | illegible refused =>
      cases h' with
      | accepted _ _ _ _ => cases hsame

/-- How an exchange ends that nobody cancels, when its entries can be sent to an address that is a URL:
it sends them once, and the first reply ends it as its errors are documented, unless something other
than the connection or the time fails on the way of the reply, the answer has the wrong totals and
these or those of the chunk are too long to be written, or an error is to show an answer whose character
set makes no text of it. -/
theorem ends_as_documented (x : Exchange) {body : List WireEntry} {url : Address}
    (hbody : Wire.encodeEntries x.entries = .ok body)
    (hurl : Address.base? x.handle.address = some url) {wakes : List Wake}
    (hundisturbed : Undisturbed wakes) {reply : Reply} (hreply : firstReply? wakes = some reply) :
    ∃ outcome, x.play false wakes = ⟨some outcome, [(url, body)]⟩ ∧
      (x.Documented reply outcome ∨ x.Undocumented reply outcome) ∧
      ¬ (x.Documented reply outcome ∧ x.Undocumented reply outcome) := by
  refine ⟨x.judge reply, ?_, ends_of_judge x reply, fun h => h.2.not_documented h.1 rfl⟩
  have hrequest : x.request = .ok (url, body) := by
    rw [request, hbody, hurl]
  simp only [play, Bool.false_eq_true, if_false, hrequest, await_of_undisturbed hundisturbed, hreply,
    Option.map_some]

end Exchange

namespace Sample

/-- The answer of a worker that has no time. -/
def overloaded : Reply :=
  .utf8 503 [98, 117, 115, 121]

/-- An exchange of a single entry. -/
def loneHolder : Exchange :=
  { twoHolders with entries := [⟨"a", [1]⟩] }

/-- A tree over that entry whose total no message can name. -/
def inflated : MiniTree :=
  ⟨⟨[1], [10 ^ 4300]⟩, [[⟨[1], [10 ^ 4300]⟩]], 0, false, loneHolder.entries⟩

end Sample

namespace Exchange

theorem ends_as_documented_busy :
    ∃ body url, Wire.encodeEntries Sample.twoHolders.entries = .ok body ∧
      Address.base? Sample.twoHolders.handle.address = some url ∧
      Undisturbed [⟨none, false, false⟩, ⟨some Sample.overloaded, false, false⟩] ∧
      firstReply? [⟨none, false, false⟩, ⟨some Sample.overloaded, false, false⟩] = some Sample.overloaded ∧
      ∃ outcome, Sample.twoHolders.play false
          [⟨none, false, false⟩, ⟨some Sample.overloaded, false, false⟩] = ⟨some outcome, [(url, body)]⟩ ∧
        Sample.twoHolders.Documented Sample.overloaded outcome := by
  have hbody : Wire.encodeEntries Sample.twoHolders.entries =
      .ok (Sample.twoHolders.entries.map Entry.wire) := by
    refine Wire.encodeEntries_of_fits fun e he b hb => Check.fits_of_natAbs_lt_two_pow ?_
    revert e b
    decide
  obtain ⟨url, hurl⟩ : ∃ url, Address.base? Sample.twoHolders.handle.address = some url :=
    Option.isSome_iff_exists.mp (by decide +kernel)
  have hundisturbed :
      Undisturbed [⟨none, false, false⟩, ⟨some Sample.overloaded, false, false⟩] := by
    simp [Undisturbed]
  obtain ⟨outcome, hplay, hends, -⟩ :=
    ends_as_documented Sample.twoHolders hbody hurl hundisturbed rfl
  refine ⟨_, url, hbody, hurl, hundisturbed, rfl, outcome, hplay, hends.resolve_right ?_⟩
  rintro (_ | ⟨success, -, -, -, -⟩ | _)
  exact absurd success.2 (by decide)

/-- A success with a total that has too many digits to be written is no malformed answer. -/
theorem unwritten_total :
    ∃ body, (Sample.loneHolder.play false [⟨some (.utf8 200 body), false, false⟩]).outcome? =
      some (.error (.value .tooLongToWrite)) := by
  refine ⟨(Wire.treeJson Sample.inflated).wire.toUTF8.toList, ?_⟩
  have hdepth : Decimal.fits Sample.inflated.depth = true :=
    Check.fits_of_natAbs_lt_two_pow (by decide)
  have hread := read_treeJson (x := Sample.loneHolder) (t := Sample.inflated) rfl
    (by decide +kernel) hdepth
  have hwrong : inconsistency? Sample.inflated Sample.loneHolder.entries =
      some (.totals [10 ^ 4300] [1]) := by
    decide +kernel
  have hfault : (Inconsistency.totals [10 ^ 4300] [1]).message = .error .tooLongToWrite := by
    decide +kernel
  have hjudge : Sample.loneHolder.judge
      (.utf8 200 (Wire.treeJson Sample.inflated).wire.toUTF8.toList) =
        .error (.value .tooLongToWrite) := by
    rw [Reply.utf8, judge, if_pos (by decide), judgeBody, hread]
    simp only [hwrong, hfault]
  cases hrequest : Sample.loneHolder.request with
  | error failure =>
      have hsends : Sample.loneHolder.request.toOption.isSome = true := by
        decide +kernel
      rw [hrequest] at hsends
      cases hsends
  | ok sent =>
      simp only [play, Bool.false_eq_true, if_false, hrequest, await, hjudge]

end Exchange

end SumTree
