import Mathlib.Data.List.Nodup
import SumTree.Proofs.Spawner.Turns

/-!
# The books of a spawner

What a spawner keeps right over any sequence of calls, as long as no token is handed out twice: its
live handles are those that were acquired and were not taken down since, in the order of acquisition,
and a handle that was taken down is never to be taken down again (`Books`, `Provider.serve_books`).
With that a release can be read off the live handles alone: the turn of a listed handle finds it live
unless it was not live before or an earlier turn took it down (`Walk.notLive_iff`).

Handles with different tokens that were entered are all live, whatever was live before
(`Ledger.find?_foldl_enter`).

One call runs at a time, so a sequence of calls stands for every interleaving of them.

## Main Definitions

* `Asked.handedOut`, `Asked.attempted`, `Asked.tornDown` — what a request says about handles.
* `Asked.Fresh` — no token is handed out twice.
* `Asked.Once` — nothing is to be taken down after it was.
* `Books` — how acquired handles, live handles and requests belong together.
-/

namespace SumTree

namespace Asked

/-- The handles that a request made. -/
def handedOut : Asked → List Handle
  | .provision _ (.ok handles) => handles
  | _ => []

/-- The handle that a request was to take down. -/
def attempted : Asked → List Handle
  | .teardown h _ => [h]
  | _ => []

/-- The handle that a request took down. -/
def tornDown : Asked → List Handle
  | .teardown h (.ok ()) => [h]
  | _ => []

/-- No token is handed out twice. -/
def Fresh (asked : List Asked) : Prop :=
  ((asked.flatMap handedOut).map Handle.token).Nodup

instance (asked : List Asked) : Decidable (Fresh asked) :=
  inferInstanceAs (Decidable (List.Nodup _))

/-- No handle is to be taken down after it was taken down. -/
def Once (asked : List Asked) : Prop :=
  asked.Pairwise fun earlier later => ∀ h ∈ earlier.tornDown, h ∉ later.attempted

theorem attempted_of_tornDown {a : Asked} {h : Handle} (hh : h ∈ a.tornDown) : h ∈ a.attempted := by
  cases a with
  | provision count result => cases hh
  | teardown h' result =>
      cases result with
      | ok u => exact hh
      | error failure => cases hh
  | finish live released result => cases hh

theorem Fresh.left {asked more : List Asked} (h : Fresh (asked ++ more)) : Fresh asked := by
  rw [Fresh, List.flatMap_append, List.map_append] at h
  exact h.sublist (List.sublist_append_left _ _)

theorem Fresh.append {asked more : List Asked} (h : Fresh asked)
    (hnone : more.flatMap handedOut = []) : Fresh (asked ++ more) := by
  rw [Fresh, List.flatMap_append, hnone, List.append_nil]
  exact h

end Asked

/-- How the acquired handles, the live ones and the requests to the provider belong together. -/
structure Books (acquired live : List Handle) (asked : List Asked) : Prop where
  live : live = acquired.filter fun h => h ∉ asked.flatMap Asked.tornDown
  acquired : acquired.Sublist (asked.flatMap Asked.handedOut)
  attempted : ∀ h ∈ asked.flatMap Asked.attempted, h ∈ asked.flatMap Asked.handedOut
  once : Asked.Once asked

/-- Tokens that are numbered behind a mark tell their numbers. -/
theorem Token.numbered_injective (mark : String) :
    Function.Injective fun n : Nat => Token.text (mark ++ toString n) := by
  intro m n h
  simp only [Token.text.injEq, String.append_right_inj, Nat.toString_eq_ofList_toDigits,
    String.ofList_inj] at h
  rw [← Nat.ofDigitChars_ten_toDigits (n := m), h, Nat.ofDigitChars_ten_toDigits]

/-! ### Handles that are entered -/

namespace Ledger

variable {live handles : List Handle} {h : Handle} {t : Token}

/-- A handle in the place of another one has the token of that one. -/
theorem find?_enter_of_any (hany : live.any (·.token == h.token) = true) (t : Token) :
    find? (enter live h) t = (find? live t).map fun l => if l.token == h.token then h else l := by
  have htoken : ∀ l : Handle, (if l.token == h.token then h else l).token = l.token := by
    intro l
    split
    · rename_i hl
      exact (beq_iff_eq.mp hl).symm
    · rfl
  rw [find?, enter, if_pos hany, List.find?_map]
  have hsame : ((fun l : Handle => l.token == t) ∘ fun l => if l.token == h.token then h else l) =
      fun l => l.token == t := by
    funext l
    rw [Function.comp_apply, htoken]
  rw [hsame]
  rfl

theorem find?_enter_of_not_any (hnone : ¬ live.any (·.token == h.token) = true) (t : Token) :
    find? (enter live h) t = (find? live t).or (if h.token == t then some h else none) := by
  rw [find?, enter, if_neg hnone, List.find?_append, List.find?_singleton]
  rfl

/-- A handle that was entered is the live one with its token. -/
theorem find?_enter (live : List Handle) (h : Handle) : find? (enter live h) h.token = some h := by
  by_cases hany : live.any (·.token == h.token) = true
  · rw [find?_enter_of_any hany]
    cases hfind : find? live h.token with
    | none =>
        obtain ⟨l, hl, htoken⟩ := List.any_eq_true.mp hany
        exact absurd htoken (List.find?_eq_none.mp hfind l hl)
    | some found =>
        have htoken : found.token = h.token := by simpa using List.find?_some hfind
        rw [Option.map_some, if_pos (beq_iff_eq.mpr htoken)]
  · have hfind : find? live h.token = none := by
      rw [Bool.not_eq_true, List.any_eq_false] at hany
      exact List.find?_eq_none.mpr hany
    rw [find?_enter_of_not_any hany, hfind, beq_self_eq_true]
    rfl

theorem find?_enter_of_ne (live : List Handle) (hne : h.token ≠ t) :
    find? (enter live h) t = find? live t := by
  by_cases hany : live.any (·.token == h.token) = true
  · rw [find?_enter_of_any hany]
    cases hfind : find? live t with
    | none => rfl
    | some found =>
        have htoken : found.token = t := by simpa using List.find?_some hfind
        have hother : ¬ (found.token == h.token) = true := by
          rw [beq_iff_eq, htoken]
          exact hne.symm
        rw [Option.map_some, if_neg hother]
  · have hh : ¬ (h.token == t) = true := by
      rw [beq_iff_eq]
      exact hne
    rw [find?_enter_of_not_any hany, if_neg hh, Option.or_none]

theorem find?_foldl_enter_of_notMem (live : List Handle) (h : t ∉ handles.map Handle.token) :
    find? (handles.foldl enter live) t = find? live t := by
  induction handles generalizing live with
  | nil => rfl
  | cons x rest ih =>
      rw [List.map_cons, List.mem_cons, not_or] at h
      rw [List.foldl_cons, ih _ h.2, find?_enter_of_ne live (Ne.symm h.1)]

/-- Handles with different tokens that were entered are all live. -/
theorem find?_foldl_enter (live : List Handle) (htokens : (handles.map Handle.token).Nodup) :
    ∀ h ∈ handles, find? (handles.foldl enter live) h.token = some h := by
  induction handles generalizing live with
  | nil => exact fun h hh => absurd hh List.not_mem_nil
  | cons x rest ih =>
      rw [List.map_cons, List.nodup_cons] at htokens
      intro h hh
      rw [List.foldl_cons]
      rcases List.mem_cons.mp hh with rfl | hh
      · rw [find?_foldl_enter_of_notMem _ htokens.1, find?_enter]
      · exact ih _ htokens.2 h hh

end Ledger

/-! ### Ledgers without repeated tokens -/

namespace Ledger

variable {live : List Handle}

theorem find?_eq_some_iff (htokens : (live.map Handle.token).Nodup) {h : Handle} :
    find? live h.token = some h ↔ h ∈ live := by
  refine ⟨List.mem_of_find?_eq_some, fun hmem => ?_⟩
  cases hfind : find? live h.token with
  | none =>
      have hno := List.find?_eq_none.mp hfind h hmem
      exact absurd (beq_self_eq_true h.token) hno
  | some found =>
      have htoken : found.token = h.token := by simpa using List.find?_some hfind
      rw [List.inj_on_of_nodup_map htokens (List.mem_of_find?_eq_some hfind) hmem htoken]

theorem strike_eq (htokens : (live.map Handle.token).Nodup) {h : Handle} (hmem : h ∈ live) :
    strike live h.token = live.filter fun l => l ∉ [h] := by
  refine List.filter_congr fun l hl => ?_
  rw [Bool.eq_iff_iff]
  simp only [bne_iff_ne, ne_eq, List.mem_singleton, decide_eq_true_eq]
  exact not_congr ⟨fun h' => List.inj_on_of_nodup_map htokens hl hmem h', congrArg Handle.token⟩

/-- Handles with tokens of their own are entered behind the live ones. -/
theorem foldl_enter {handles : List Handle} (htokens : ((live ++ handles).map Handle.token).Nodup) :
    handles.foldl enter live = live ++ handles := by
  induction handles generalizing live with
  | nil => exact (List.append_nil live).symm
  | cons h rest ih =>
      have hnew : live.any (fun l => l.token == h.token) = false := by
        rw [List.any_eq_false]
        intro l hl htoken
        rw [List.map_append, List.map_cons] at htokens
        exact (List.disjoint_of_nodup_append htokens) (List.mem_map_of_mem hl)
          (by rw [beq_iff_eq.mp htoken]; exact List.mem_cons_self)
      have hassoc : live ++ h :: rest = live ++ [h] ++ rest := by simp
      rw [List.foldl_cons, enter, hnew, if_neg Bool.false_ne_true, hassoc]
      rw [hassoc] at htokens
      exact ih htokens

end Ledger

/-! ### What a request does to the books -/

namespace Books

variable {acquired live : List Handle} {asked more : List Asked}

theorem empty : Books [] [] [] :=
  ⟨rfl, .slnil, fun _ h => absurd h List.not_mem_nil, .nil⟩

theorem tokens (h : Books acquired live asked) (hfresh : Asked.Fresh asked) :
    (live.map Handle.token).Nodup := by
  have hsub : live.Sublist (asked.flatMap Asked.handedOut) := by
    rw [h.live]
    exact List.filter_sublist.trans h.acquired
  exact hfresh.sublist (hsub.map _)

theorem tornDown_handedOut (h : Books acquired live asked) {x : Handle}
    (hx : x ∈ asked.flatMap Asked.tornDown) : x ∈ asked.flatMap Asked.handedOut := by
  obtain ⟨a, ha, hxa⟩ := List.mem_flatMap.mp hx
  exact h.attempted x (List.mem_flatMap.mpr ⟨a, ha, Asked.attempted_of_tornDown hxa⟩)

theorem not_mem_tornDown (h : Books acquired live asked) {x : Handle} (hx : x ∈ live) :
    x ∉ asked.flatMap Asked.tornDown := by
  rw [h.live, List.mem_filter, decide_eq_true_eq] at hx
  exact hx.2

theorem handedOut_of_live (h : Books acquired live asked) {x : Handle} (hx : x ∈ live) :
    x ∈ asked.flatMap Asked.handedOut := by
  rw [h.live] at hx
  exact h.acquired.subset (List.mem_of_mem_filter hx)

/-- One more request: handles that it made may be acquired, and whatever it was to take down must have
been handed out before and not taken down since. -/
theorem step (h : Books acquired live asked) {a : Asked} {given : List Handle}
    (hgiven : given.Sublist a.handedOut) (hnew : ∀ x ∈ given, x ∉ asked.flatMap Asked.tornDown)
    (hattempted : ∀ x ∈ a.attempted,
      x ∈ asked.flatMap Asked.handedOut ∧ x ∉ asked.flatMap Asked.tornDown) :
    Books (acquired ++ given) ((live ++ given).filter fun l => l ∉ a.tornDown) (asked ++ [a]) := by
  have hkept : (given.filter fun x => x ∉ asked.flatMap Asked.tornDown) = given :=
    List.filter_eq_self.mpr fun x hx => decide_eq_true (hnew x hx)
  constructor
  case live =>
    calc ((live ++ given).filter fun l => l ∉ a.tornDown)
      _ = ((acquired ++ given).filter fun l => l ∉ asked.flatMap Asked.tornDown).filter
            fun l => l ∉ a.tornDown := by
          rw [List.filter_append acquired given, ← h.live, hkept]
      _ = (acquired ++ given).filter fun l => l ∉ (asked ++ [a]).flatMap Asked.tornDown := by
          rw [List.filter_filter, List.flatMap_append, List.flatMap_singleton]
          refine List.filter_congr fun l _ => ?_
          rw [Bool.eq_iff_iff]
          simp only [Bool.and_eq_true, decide_eq_true_eq, List.mem_append, not_or]
          exact and_comm
  case acquired =>
    rw [List.flatMap_append, List.flatMap_singleton]
    exact h.acquired.append hgiven
  case attempted =>
    intro x hx
    rw [List.flatMap_append, List.flatMap_singleton] at hx
    rw [List.flatMap_append]
    rcases List.mem_append.mp hx with hx | hx
    · exact List.mem_append_left _ (h.attempted x hx)
    · exact List.mem_append_left _ (hattempted x hx).1
  case once =>
    rw [Asked.Once, List.pairwise_append]
    refine ⟨h.once, List.pairwise_singleton _ _, ?_⟩
    intro earlier hearlier later hlater x hx hx'
    rw [List.mem_singleton.mp hlater] at hx'
    exact (hattempted x hx').2 (List.mem_flatMap.mpr ⟨earlier, hearlier, hx⟩)

/-- After a request that was to take nothing down, handles that it made may be acquired. -/
theorem made (h : Books acquired live asked) {a : Asked} (hattempted : a.attempted = [])
    {given : List Handle} (hgiven : given.Sublist a.handedOut) (hfresh : Asked.Fresh (asked ++ [a])) :
    Books (acquired ++ given) (live ++ given) (asked ++ [a]) := by
  have hnothing : ∀ x, x ∉ a.attempted := by
    rw [hattempted]
    exact fun _ => List.not_mem_nil
  have hnew : ∀ x ∈ given, x ∉ asked.flatMap Asked.tornDown := by
    intro x hx htorn
    rw [Asked.Fresh, List.flatMap_append, List.map_append, List.flatMap_singleton] at hfresh
    exact List.disjoint_of_nodup_append hfresh (List.mem_map_of_mem (h.tornDown_handedOut htorn))
      (List.mem_map_of_mem (hgiven.subset hx))
  have hstep := h.step hgiven hnew fun x hx => absurd hx (hnothing x)
  rw [List.filter_eq_self.mpr] at hstep
  · exact hstep
  · exact fun x _ => decide_eq_true fun hx => hnothing x (Asked.attempted_of_tornDown hx)

/-- An attempt at a handle that was handed out and not taken down. -/
theorem attempt (h : Books acquired live asked) {x : Handle}
    (hhanded : x ∈ asked.flatMap Asked.handedOut) (hnew : x ∉ asked.flatMap Asked.tornDown)
    (result : Except Failure Unit) :
    Books acquired (live.filter fun l => l ∉ (Asked.teardown x result).tornDown)
      (asked ++ [.teardown x result]) := by
  have hstep := h.step (a := .teardown x result) (List.nil_sublist _)
    (fun _ hx => absurd hx List.not_mem_nil) fun y hy => by
      rw [List.mem_singleton.mp hy]
      exact ⟨hhanded, hnew⟩
  rw [List.append_nil, List.append_nil] at hstep
  exact hstep

/-- Attempts at handles that are not live, each of them handed out and not taken down. -/
theorem discards (h : Books acquired live asked) {handles : List Handle}
    (hdiscards : Discards handles more) (hnodup : handles.Nodup)
    (hhandles : ∀ x ∈ handles, x ∈ asked.flatMap Asked.handedOut ∧
      x ∉ asked.flatMap Asked.tornDown ∧ x ∉ live) :
    Books acquired live (asked ++ more) := by
  induction hdiscards generalizing asked with
  | nil =>
      rw [List.append_nil]
      exact h
  | @cons rest noted x result _ ih =>
      obtain ⟨⟨hhanded, hnew, hlive⟩, hrest⟩ := List.forall_mem_cons.mp hhandles
      obtain ⟨hx, hnodup⟩ := List.nodup_cons.mp hnodup
      have hsame : (live.filter fun l => l ∉ (Asked.teardown x result).tornDown) = live := by
        refine List.filter_eq_self.mpr fun l hl => decide_eq_true fun hmem => ?_
        have hl' := List.mem_singleton.mp (Asked.attempted_of_tornDown hmem)
        exact hlive (hl' ▸ hl)
      have hstep := h.attempt hhanded hnew result
      rw [hsame] at hstep
      rw [← List.singleton_append, ← List.append_assoc]
      refine ih hstep hnodup fun y hy => ?_
      obtain ⟨hhanded', hnew', hlive'⟩ := hrest y hy
      rw [List.flatMap_append, List.flatMap_append, List.flatMap_singleton, List.flatMap_singleton]
      refine ⟨List.mem_append_left _ hhanded', ?_, hlive'⟩
      rw [List.mem_append]
      rintro (htorn | htorn)
      · exact hnew' htorn
      · have hy' := List.mem_singleton.mp (Asked.attempted_of_tornDown htorn)
        exact hx (hy' ▸ hy)

end Books

/-! ### What a release does -/

namespace Walk

variable {acquired live last : List Handle} {turns : List Turn}

theorem books (hwalk : Walk live turns last) {asked : List Asked} (h : Books acquired live asked)
    (hfresh : Asked.Fresh asked) : Books acquired last (asked ++ turns.flatMap Turn.asked) := by
  induction hwalk generalizing asked with
  | nil live =>
      rw [List.flatMap_nil, List.append_nil]
      exact h
  | notLive _ _ ih => exact ih h hfresh
  | @failed live last x failure rest hfind _ ih =>
      have hlive := (Ledger.find?_eq_some_iff (h.tokens hfresh)).mp hfind
      have hstep := h.attempt (h.handedOut_of_live hlive) (h.not_mem_tornDown hlive) (.error failure)
      have hsame : (live.filter fun l => l ∉ (Asked.teardown x (.error failure)).tornDown) = live :=
        List.filter_eq_self.mpr fun l _ => decide_eq_true List.not_mem_nil
      rw [hsame] at hstep
      rw [List.flatMap_cons, ← List.append_assoc]
      exact ih hstep (hfresh.append rfl)
  | @tornDown live last x rest hfind _ ih =>
      have hlive := (Ledger.find?_eq_some_iff (h.tokens hfresh)).mp hfind
      have hstep := h.attempt (h.handedOut_of_live hlive) (h.not_mem_tornDown hlive) (.ok ())
      rw [List.flatMap_cons, ← List.append_assoc]
      rw [Ledger.strike_eq (h.tokens hfresh) hlive] at ih
      exact ih hstep (hfresh.append rfl)

/-- A listed handle is live at its turn if it was live before the release and no earlier turn took it
down. -/
theorem notLive_iff (hwalk : Walk live turns last) (htokens : (live.map Handle.token).Nodup)
    {before rest : List Turn} {turn : Turn} (hturns : turns = before ++ turn :: rest) :
    turn.fate = .notLive ↔ turn.handle ∉ live ∨ turn.handle ∈ before.flatMap Turn.released := by
  induction hwalk generalizing before with
  | nil live => exact absurd hturns (by simp)
  | notLive hfind _ ih =>
      cases before with
      | nil =>
          cases hturns
          simpa [Ledger.find?_eq_some_iff htokens] using hfind
      | cons first before =>
          cases hturns
          exact (ih htokens rfl).trans Iff.rfl
  | failed hfind _ ih =>
      cases before with
      | nil =>
          cases hturns
          simpa [Ledger.find?_eq_some_iff htokens] using hfind
      | cons first before =>
          cases hturns
          exact (ih htokens rfl).trans Iff.rfl
  | @tornDown live last x rest' hfind _ ih =>
      have hlive := (Ledger.find?_eq_some_iff htokens).mp hfind
      cases before with
      | nil =>
          cases hturns
          simpa using hlive
      | cons first before =>
          cases hturns
          rw [Ledger.strike_eq htokens hlive] at ih
          rw [ih (htokens.sublist (List.filter_sublist.map _)) rfl, List.flatMap_cons,
            List.mem_append, List.mem_filter, decide_eq_true_eq]
          show _ ↔ _ ∨ turn.handle ∈ [x] ∨ _
          tauto

end Walk

/-! ### What an acquisition does -/

theorem Acquisition.books {acquired live last given : List Handle} {asked more : List Asked}
    (hacquisition : Acquisition live more given last) (h : Books acquired live asked)
    (hfresh : Asked.Fresh (asked ++ more)) : Books (acquired ++ given) last (asked ++ more) := by
  cases hacquisition with
  | refused =>
      rw [List.append_nil, List.append_nil]
      exact h
  | failed count failure =>
      have hstep := h.made rfl (List.nil_sublist _) hfresh
      rw [List.append_nil live] at hstep
      exact hstep
  | @miscounted handles count noted hdiscards =>
      rw [← List.singleton_append, ← List.append_assoc] at hfresh ⊢
      have hstep := h.made rfl (List.nil_sublist _) hfresh.left
      rw [List.append_nil live] at hstep
      -- The handles that were just made are none of those that were there before.
      have hdistinct := hfresh.left
      rw [Asked.Fresh, List.flatMap_append, List.flatMap_singleton, List.map_append] at hdistinct
      have hnew : ∀ x ∈ handles, x ∉ asked.flatMap Asked.handedOut := fun x hx hold =>
        List.disjoint_of_nodup_append hdistinct (List.mem_map_of_mem hold) (List.mem_map_of_mem hx)
      refine hstep.discards hdiscards ?_ fun x hx => ⟨?_, ?_, fun hlive => ?_⟩
      · exact (hdistinct.sublist (List.sublist_append_right _ _)).of_map _
      · rw [List.flatMap_append, List.flatMap_singleton]
        exact List.mem_append_right _ hx
      · rw [List.flatMap_append, List.flatMap_singleton]
        show x ∉ asked.flatMap Asked.tornDown ++ []
        rw [List.append_nil]
        exact fun htorn => hnew x hx (h.tornDown_handedOut htorn)
      · exact hnew x hx (h.handedOut_of_live hlive)
  | made count =>
      have hstep := h.made rfl (List.Sublist.refl given) hfresh
      rw [Ledger.foldl_enter]
      · exact hstep
      · exact hstep.tokens hfresh

end SumTree
