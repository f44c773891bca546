import SumTree.Proofs.Text.Utf8
import SumTree.Proofs.Tree.Summed
import SumTree.Proofs.Wire.RoundTrip

/-!
# Which trees are accepted

An exchange accepts exactly the writable trees that look like the sum tree of its entries
(`Exchange.accepts_iff`). Every sum tree looks so, and none is turned away. The converse fails: only the
number of leaves, the widths, the root and the depth are looked at, so that an accepted tree is a sum
tree exactly when its levels are as many as its depth says, hold the sums of one another, and start
from the balances of the entries (`Exchange.accepts_sumTree`).

## Main Definitions

* `Exchange.Accepts` — the trees that come out of an exchange.
-/

namespace SumTree

namespace Exchange

variable {x : Exchange} {t : MiniTree}

/-- Some reply is accepted as this tree. -/
def Accepts (x : Exchange) (t : MiniTree) : Prop :=
  ∃ reply, x.judge reply = .ok t

theorem of_judgeBody_eq_ok {body : List UInt8} {text : Except Outside String}
    (h : x.judgeBody body text = .ok t) :
    Wire.readTreeChars x.entries (Utf8.decodeChars? body) = .ok t ∧
      inconsistency? t x.entries = none := by
  rw [judgeBody] at h
  split at h
  · exact absurd h refuse_ne_ok
  · rename_i tree hread
    split at h
    · rename_i hconsistent
      cases h
      exact ⟨hread, hconsistent⟩
    · split at h
      · exact absurd h refuse_ne_ok
      · cases h

/-- Only the body of a successful response is accepted. -/
theorem exists_body_of_judge {reply : Reply} (h : x.judge reply = .ok t) :
    ∃ status body text, reply = .response status body text ∧ 200 ≤ status ∧ status ≤ 299 ∧
      x.judgeBody body text = .ok t := by
  cases reply with
  | response status body text =>
      rw [judge] at h
      split at h
      · rename_i hstatus
        rw [Bool.and_eq_true, decide_eq_true_eq, decide_eq_true_eq] at hstatus
        exact ⟨status, body, text, rfl, hstatus.1, hstatus.2, h⟩
      · exact absurd h refuse_ne_ok
  | timedOut => cases h
  | disconnected name text => cases h
  | broken failure => cases h

/-- The wire form of a tree is read as that tree. -/
theorem read_treeJson (hentries : t.entries = x.entries) (hwritable : t.Writable)
    (hdepth : Decimal.fits t.depth = true) :
    Wire.readTreeChars x.entries (Utf8.decodeChars? (Wire.treeJson t).wire.toUTF8.toList) =
      .ok t := by
  rw [Utf8.decodeChars?_toUTF8, Json.wire, String.toList_ofList, ← hentries]
  exact Wire.readTreeChars_treeJson hwritable hdepth

/-- The wire form of a tree that looks right is accepted as that tree, whatever text it makes. -/
theorem judge_treeJson (hentries : t.entries = x.entries) (hne : x.entries ≠ [])
    (hwritable : t.Writable) (hdepth : Decimal.fits t.depth = true)
    (hlooks : t.Plausible x.entries) (text : Except Outside String) :
    x.judge (.response 200 (Wire.treeJson t).wire.toUTF8.toList text) = .ok t := by
  show x.judgeBody _ _ = _
  unfold judgeBody
  rw [read_treeJson hentries hwritable hdepth]
  simp only [hlooks.inconsistency?_eq_none hne]

theorem ne_nil_of_inconsistency?_eq_none (h : inconsistency? t x.entries = none) :
    x.entries ≠ [] := by
  intro hnil
  have hleaves : t.leaves = [] := by
    rw [← List.length_eq_zero_iff, (plausible_of_inconsistency?_eq_none h).leaves, hnil,
      List.length_nil]
  rw [inconsistency?, hleaves] at h
  cases h

/-- A tree comes out of an exchange exactly when it carries the entries that were sent, has a wire form,
and looks like their sum tree. -/
theorem accepts_iff : x.Accepts t ↔ t.entries = x.entries ∧ x.entries ≠ [] ∧ t.Writable ∧
    Decimal.fits t.depth = true ∧ t.Plausible x.entries := by
  constructor
  · rintro ⟨reply, h⟩
    obtain ⟨hentries, hlooks⟩ := plausible_of_judge h
    obtain ⟨status, body, text, -, -, -, hbody⟩ := exists_body_of_judge h
    obtain ⟨hread, hconsistent⟩ := of_judgeBody_eq_ok hbody
    obtain ⟨hwritable, hdepth⟩ := Wire.writable_of_readTreeChars hread
    exact ⟨hentries, ne_nil_of_inconsistency?_eq_none hconsistent, hwritable, hdepth, hlooks⟩
  · rintro ⟨hentries, hne, hwritable, hdepth, hlooks⟩
    exact ⟨_, judge_treeJson hentries hne hwritable hdepth hlooks (.ok "")⟩

/-- A tree that looks right is a sum tree if what is not looked at is right too. -/
theorem sumTreeOf_iff_of_plausible {entries : List Entry} (h : t.Plausible entries) :
    t.SumTreeOf entries ↔
      t.levels.length = treeDepth entries.length + 1 ∧
      (∀ k lower upper, t.levels[k]? = some lower → t.levels[k + 1]? = some upper →
        Node.Summed lower upper) ∧
      (t.leaves.map Node.balances).Perm (entries.map Entry.amounts) := by
  constructor
  · intro hsum
    refine ⟨?_, hsum.next, hsum.balances⟩
    have hcount := hsum.count
    rw [hsum.depth] at hcount
    exact_mod_cast hcount
  · rintro ⟨hcount, hnext, hbalances⟩
    refine ⟨h.depth, ?_, hnext, ?_, hbalances⟩
    · rw [hcount, h.depth]
      push_cast
      rfl
    · have htop := h.top
      rw [List.getLastD_eq_getLast?] at htop
      cases hlast : t.levels.getLast? with
      | none =>
          rw [hlast] at htop
          cases htop
      | some level =>
          rw [hlast, Option.getD_some] at htop
          rw [htop]

/-- What comes out of an exchange: the writable trees with as many leaves as entries, the root on top,
one width throughout, the right depth and the totals of the entries. Among them are all writable sum
trees of entries of one width, those of every worker that builds its levels over leaves with the
balances of the entries, in whatever order. Such a tree is a sum tree if and only if its levels are one
more than its depth, each one holds the sums of the one below, and the first holds the balances of the
entries. -/
theorem accepts_sumTree (x : Exchange) (t : MiniTree) :
    (x.Accepts t ↔ t.entries = x.entries ∧ x.entries ≠ [] ∧ t.Writable ∧
      Decimal.fits t.depth = true ∧ t.Plausible x.entries) ∧
    (x.Accepts t →
      (t.SumTreeOf x.entries ↔
        t.levels.length = treeDepth x.entries.length + 1 ∧
        (∀ k lower upper, t.levels[k]? = some lower → t.levels[k + 1]? = some upper →
          Node.Summed lower upper) ∧
        (t.leaves.map Node.balances).Perm (x.entries.map Entry.amounts))) ∧
    (∀ width, (∀ e ∈ x.entries, e.width = width) → t.SumTreeOf x.entries →
      t.entries = x.entries → t.Writable → Decimal.fits t.depth = true → x.Accepts t) ∧
    ∀ hasher policy leaves, buildLevels hasher policy leaves = .ok t.levels →
      (leaves.map Node.balances).Perm (x.entries.map Entry.amounts) → t.root = rootOf t.levels →
      t.depth = treeDepth x.entries.length → t.SumTreeOf x.entries := by
  refine ⟨accepts_iff, ?_, ?_, ?_⟩
  · intro h
    exact sumTreeOf_iff_of_plausible (accepts_iff.mp h).2.2.2.2
  · intro width hwidth hsum hentries hwritable hdepth
    exact accepts_iff.mpr ⟨hentries, hsum.ne_nil, hwritable, hdepth, hsum.toPlausible hwidth⟩
  · intro hasher policy leaves hlevels hbalances hroot hdepth
    exact sumTreeOf_of_buildLevels hlevels hbalances hroot hdepth

end Exchange

namespace Sample

/-- An exchange of two entries. -/
def twoHolders : Exchange :=
  ⟨0, ⟨"http://localhost:80", .mock, .number 4, 4⟩, .int 30, [⟨"a", [1]⟩, ⟨"b", [2]⟩]⟩

/-- Its sum tree over leaves in descending order. -/
def descending : MiniTree :=
  ⟨⟨[3], [3]⟩, [[⟨[2], [2]⟩, ⟨[1], [1]⟩], [⟨[3], [3]⟩]], 1, true, twoHolders.entries⟩

/-- The same root over a leaf that holds more than both entries. -/
def forged : MiniTree :=
  { descending with levels := [[⟨[2], [2]⟩, ⟨[1], [7]⟩], [⟨[3], [3]⟩]] }

end Sample

theorem Exchange.accepts_sumTree_descending :
    Sample.twoHolders.Accepts Sample.descending ∧
      Sample.descending.SumTreeOf Sample.twoHolders.entries := by
  obtain ⟨-, -, haccepts, hbuilt⟩ := accepts_sumTree Sample.twoHolders Sample.descending
  have hlevels : buildLevels ⟨fun _ _ => .ok [], fun _ _ => .ok [3]⟩ .carryUp
      [⟨[2], [2]⟩, ⟨[1], [1]⟩] = .ok Sample.descending.levels := rfl
  have hsum := hbuilt _ _ _ hlevels (by decide) rfl rfl
  have hdepth : Decimal.fits Sample.descending.depth = true :=
    Check.fits_of_natAbs_lt_two_pow (by decide)
  exact ⟨haccepts 1 (by decide) hsum rfl (by decide) hdepth, hsum⟩

/-- A tree is accepted whose levels do not add up and whose leaves are not the entries. -/
theorem Exchange.accepts_forged :
    Sample.twoHolders.judge (.utf8 200 (Wire.treeJson Sample.forged).wire.toUTF8.toList) =
        .ok Sample.forged ∧
      ¬ Sample.forged.SumTreeOf Sample.twoHolders.entries := by
  have hlooks : Sample.forged.Plausible Sample.twoHolders.entries :=
    ⟨rfl, rfl, by decide, rfl, rfl⟩
  have hdepth : Decimal.fits Sample.forged.depth = true :=
    Check.fits_of_natAbs_lt_two_pow (by decide)
  constructor
  · exact judge_treeJson rfl (List.cons_ne_nil _ _) (by decide) hdepth hlooks _
  · intro h
    exact absurd h.balances (by decide)

end SumTree
