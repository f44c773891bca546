import SumTree.Proofs.Run.Accepted
import SumTree.Proofs.Text.Split
import SumTree.Proofs.Tree.Depth
import SumTree.Proofs.Tree.MiniTree
import SumTree.Spawner.InProcess

/-!
# The worker agrees with the builder

A run never rejects the answer of a worker that works as it should: what the worker answers to the
entries of a chunk, read as the run reads it, is the mini-tree that the builder makes of these entries
(`Worker.agrees_with_build`). On the way the entries go through the request and back, the tree goes
through the answer and back, and the tree is found consistent with the entries.

The request may be any text of its JSON value, with its characters escaped or not and with blanks or
without, since clients differ in what they send.

## Main Definitions

* `Request.posted` — the request whose body is a text.
-/

namespace SumTree

/-- The request whose body is a text of JSON. -/
def Request.posted (text : String) : Request :=
  ⟨"POST", "/", "application/json", text.toUTF8.toList⟩

/-! ### The tree is consistent -/

section

variable {hasher : Hasher} {policy : OddPolicy} {width : Nat} {entries : List Entry} {t : MiniTree}

/-- The mini-tree over some entries could be the sum tree of these entries. -/
theorem MiniTree.plausible_of_build (h : build hasher policy entries = .ok t) :
    t.Plausible entries := by
  obtain ⟨width, leaves, hover⟩ := exists_over_of_build h
  have htower := tower_of_buildLevels hover.levels hover.uniform
  obtain ⟨hhead, hlast, hsums⟩ := buildLevels_spec hover.levels
  have hwidths := widths_of_leavesOf hover.hashed
  refine ⟨?_, ?_, ?_, hover.depth, ?_⟩
  · have hlength := congrArg List.length hwidths
    rw [List.length_map, List.length_map] at hlength
    rw [MiniTree.leaves, hhead, hlength]
  · rw [hlast, hover.root]
  · intro n hn
    obtain ⟨level, hlevel, hmem⟩ := List.mem_flatten.mp hn
    rw [htower.uniform level hlevel n hmem, hover.head_width]
  · rw [hover.root, hsums, Node.sums, balances_of_leavesOf hover.hashed, Entry.totals]

/-! ### The worker's side -/

theorem Worker.readEntry_wire {e : Entry} (h : ∀ b ∈ e.amounts, Decimal.fits b = true) :
    readEntry e.wire.toJson = .ok e.received := by
  unfold readEntry
  simp only [Wire.check_wire, Wire.toEntry_wire h, Except.mapError]

theorem Worker.readEntries_wire (h : ∀ e ∈ entries, ∀ b ∈ e.amounts, Decimal.fits b = true) :
    ((entries.map Entry.wire).map WireEntry.toJson).mapM readEntry =
      .ok (entries.map Entry.received) := by
  rw [List.map_map, mapM_eq_ok_iff, List.forall₂_map_left_iff, List.forall₂_map_right_iff,
    List.forall₂_same]
  exact fun e he => readEntry_wire (h e he)

theorem Worker.answerBody_arr (w : Worker) {items : List Json} {received : List ReceivedEntry}
    (hne : items ≠ []) (h : items.mapM readEntry = .ok received) :
    w.answerBody (.arr items) = w.answerEntries received := by
  obtain ⟨first, rest, rfl⟩ := List.exists_cons_of_ne_nil hne
  unfold answerBody
  simp only [h]

/-- A worker builds the mini-tree over the entries that were sent. -/
theorem Worker.build_received (w : Worker) (entries : List Entry) :
    w.build (entries.map Entry.received) =
      (MiniTree.build w.hasher w.policy entries).mapError TreeFault.failure := by
  unfold build
  rw [ReceivedEntry.named_map_received, List.length_map]
  exact if_neg (Nat.lt_irrefl _)

/-- Entries over which there is a tree are answered by that tree. -/
theorem Worker.answerEntries_of_build (w : Worker) (hhasher : w.hasher.NeverEmpty)
    (h : MiniTree.build w.hasher w.policy entries = .ok t) :
    w.answerEntries (entries.map Entry.received) = .ok ⟨200, some (Wire.treeJson t)⟩ := by
  obtain ⟨width, leaves, hover⟩ := MiniTree.exists_over_of_build h
  have hhead : (((entries.map Entry.received).head?.map ReceivedEntry.width).getD 0) = width := by
    rw [← List.head?_map, ReceivedEntry.map_width_received, List.head?_map, hover.head_width]
  have hmisfit : firstMisfit width 0 (entries.map Entry.width) = none :=
    firstMisfit_eq_none_iff.mpr (List.forall_mem_map.mpr hover.width_eq)
  unfold answerEntries
  simp only [hhead, ReceivedEntry.map_width_received, hmisfit, w.build_received, h, Except.mapError,
    Wire.encodeTree_eq (MiniTree.writable_of_build hhasher h)]

/-- A text of the entries over which there is a tree is answered by that tree. -/
theorem Worker.answerText_of_build (w : Worker) (hhasher : w.hasher.NeverEmpty)
    (h : MiniTree.build w.hasher w.policy entries = .ok t)
    (hfits : ∀ e ∈ entries, ∀ b ∈ e.amounts, Decimal.fits b = true) {text : String}
    (htext : Json.Spells 3 (Wire.requestJson (entries.map Entry.wire)) text.toList) :
    w.answerText text = .ok ⟨200, some (Wire.treeJson t)⟩ := by
  have hread : Json.read dialect text = .ok (Wire.requestJson (entries.map Entry.wire)) :=
    Json.readChars_of_spells htext (by decide)
  obtain ⟨width, leaves, hover⟩ := MiniTree.exists_over_of_build h
  have hne : (entries.map Entry.wire).map WireEntry.toJson ≠ [] := by simpa using hover.ne_nil
  unfold answerText
  simp only [hread]
  rw [Wire.requestJson, answerBody_arr w hne (readEntries_wire hfits)]
  exact w.answerEntries_of_build hhasher h

/-! ### Requests -/

/-- A media type without parameters names no character set. -/
theorem Request.charsetLabel_eq_empty {contentType : String} (h : ';' ∉ contentType.toList) :
    charsetLabel contentType = "" := by
  have hpieces : contentType.splitOn ";" = [contentType] := by
    rw [show ";" = String.singleton ';' from rfl, splitOn_singleton, List.splitOn_eq_singleton h,
      List.map_singleton, String.ofList_toList]
  unfold charsetLabel
  rw [hpieces]
  rfl

theorem Request.target_posted (text : String) : (posted text).target = "/" := by
  unfold target posted
  rw [show "/" = String.ofList ['/'] from rfl, String.toList_ofList]
  rfl

/-- A text that is short enough is answered as it is. -/
theorem Worker.answer_posted (w : Worker) {text : String}
    (h : text.toUTF8.toList.length < Request.sizeLimit) :
    w.answer (Request.posted text) = w.answerText text := by
  have htarget : ((Request.posted text).target != "/") = false := by
    rw [Request.target_posted]
    rfl
  have hlabel : Request.charsetLabel (Request.posted text).contentType = "" :=
    Request.charsetLabel_eq_empty (show ';' ∉ "application/json".toList by decide)
  have htext : Charset.utf8.decode? (Request.posted text).body = some text :=
    Utf8.decode?_toUTF8 text
  have hmethod : ((Request.posted text).method != "POST") = false := rfl
  have hsize : ¬ (Request.posted text).body.length ≥ Request.sizeLimit := Nat.not_le.mpr h
  unfold answer
  rw [htarget, if_neg Bool.false_ne_true, hmethod, if_neg Bool.false_ne_true, if_neg hsize]
  simp only [hlabel, show "".isEmpty = true from rfl, if_true, htext]

/-! ### The answer of a worker -/

/-- The depth of a tree over entries that one request holds can be written. -/
theorem fits_treeDepth {leafCount : Nat} (h : leafCount ≤ Request.sizeLimit) :
    Decimal.fits (treeDepth leafCount) = true := by
  have hdepth : treeDepth leafCount ≤ 20 := (treeDepth_le_iff leafCount 20).mpr h
  exact Decimal.fits_of_lt_pow (Nat.lt_of_le_of_lt hdepth (by decide : 20 < Nat.pow 10 2)) (by decide)

/-- A text of entries has at least one character for each of them. -/
theorem length_le_of_spells {text : String}
    (h : Json.Spells 3 (Wire.requestJson (entries.map Entry.wire)) text.toList) :
    entries.length ≤ text.toUTF8.toList.length := by
  have hitems := Json.Spells.length_le h
  rw [List.length_map, List.length_map] at hitems
  exact Nat.le_trans hitems (Utf8.length_le_length_toUTF8 text)

/-- A worker answers the entries of a request by the tree over them. -/
theorem Worker.answer_of_build (w : Worker) (hhasher : w.hasher.NeverEmpty)
    (h : MiniTree.build w.hasher w.policy entries = .ok t)
    (hfits : ∀ e ∈ entries, ∀ b ∈ e.amounts, Decimal.fits b = true) {text : String}
    (htext : Json.Spells 3 (Wire.requestJson (entries.map Entry.wire)) text.toList)
    (hsize : text.toUTF8.toList.length < Request.sizeLimit) :
    w.answer (Request.posted text) = .ok ⟨200, some (Wire.treeJson t)⟩ := by
  rw [w.answer_posted hsize]
  exact w.answerText_of_build hhasher h hfits htext

/-! ### The run's side -/

theorem MiniTree.fits_depth_of_build (h : MiniTree.build hasher policy entries = .ok t)
    (hsize : entries.length ≤ Request.sizeLimit) : Decimal.fits t.depth = true := by
  obtain ⟨width, leaves, hover⟩ := MiniTree.exists_over_of_build h
  rw [hover.depth]
  exact fits_treeDepth hsize

theorem Wire.readTree_of_build (hhasher : hasher.NeverEmpty)
    (h : MiniTree.build hasher policy entries = .ok t) (hsize : entries.length ≤ Request.sizeLimit) :
    readTree entries (some (treeJson t).wire) = .ok t := by
  obtain ⟨width, leaves, hover⟩ := MiniTree.exists_over_of_build h
  rw [readTree, Option.map_some, Json.wire, String.toList_ofList, ← hover.entries]
  exact readTreeChars_treeJson (MiniTree.writable_of_build hhasher h)
    (MiniTree.fits_depth_of_build h hsize)

theorem MiniTree.inconsistency?_of_build (h : build hasher policy entries = .ok t) :
    inconsistency? t entries = none := by
  obtain ⟨width, leaves, hover⟩ := exists_over_of_build h
  exact (plausible_of_build h).inconsistency?_eq_none hover.ne_nil

/-- The wire form of the tree over the entries of an exchange is accepted as this tree, whatever text it
makes. -/
theorem Exchange.judge_of_build {x : Exchange} (hhasher : hasher.NeverEmpty)
    (h : MiniTree.build hasher policy x.entries = .ok t)
    (hsize : x.entries.length ≤ Request.sizeLimit) (shown : Except Outside String) :
    x.judge (.response 200 (Wire.treeJson t).wire.toUTF8.toList shown) = .ok t := by
  obtain ⟨width, leaves, hover⟩ := MiniTree.exists_over_of_build h
  exact judge_treeJson hover.entries hover.ne_nil (MiniTree.writable_of_build hhasher h)
    (MiniTree.fits_depth_of_build h hsize) (MiniTree.plausible_of_build h) shown

end

/-- The answer of a worker is read as the tree that the builder makes of the entries, and this tree is
found consistent with them: whatever the hasher, as long as it gives no empty digest, whatever the
policy, and whatever text of the request the client sends, as long as the worker takes it. -/
theorem Worker.agrees_with_build (w : Worker) (x : Exchange) {tree : MiniTree}
    (hhasher : w.hasher.NeverEmpty) (hbuild : MiniTree.build w.hasher w.policy x.entries = .ok tree)
    (hfits : ∀ e ∈ x.entries, ∀ b ∈ e.amounts, Decimal.fits b = true) :
    ∃ body, Wire.encodeEntries x.entries = .ok body ∧
      Json.Spells 3 (Wire.requestJson body) (Wire.requestJson body).wireChars ∧
      ∀ text : String, Json.Spells 3 (Wire.requestJson body) text.toList →
        text.toUTF8.toList.length < Request.sizeLimit →
        ∃ answer, w.answer (Request.posted text) = .ok ⟨200, some answer⟩ ∧
          Wire.readTree x.entries (some answer.wire) = .ok tree ∧
          inconsistency? tree x.entries = none ∧
          ∀ shown, x.judge (.response 200 answer.wire.toUTF8.toList shown) = .ok tree := by
  refine ⟨_, Wire.encodeEntries_of_fits hfits, Json.spells_wireChars (Wire.legible_requestJson_wire _), ?_⟩
  intro text htext hsize
  have hcount : x.entries.length ≤ Request.sizeLimit :=
    Nat.le_trans (length_le_of_spells htext) (Nat.le_of_lt hsize)
  refine ⟨Wire.treeJson tree, ?_, ?_, ?_, ?_⟩
  · exact w.answer_of_build hhasher hbuild hfits htext hsize
  · exact Wire.readTree_of_build hhasher hbuild hcount
  · exact MiniTree.inconsistency?_of_build hbuild
  · exact fun shown => Exchange.judge_of_build hhasher hbuild hcount shown

namespace Sample

/-- A hasher whose digests grow towards the root. -/
def growing : Hasher :=
  ⟨fun username balances => .ok [1, UInt8.ofNat username.length, UInt8.ofNat balances.length],
    fun left right => .ok (2 :: (left.hash ++ right.hash))⟩

theorem neverEmpty_growing : growing.NeverEmpty := by
  constructor
  · rintro username balances digest h
    cases h
    exact List.cons_ne_nil _ _
  · rintro left right digest h
    cases h
    exact List.cons_ne_nil _ _

/-- A chunk of three entries, one of them without a name. -/
def exchange : Exchange :=
  ⟨4, ⟨"http://localhost:80", .mock, .number 4, 4⟩, .int 30,
    [⟨"ä", [5, 0]⟩, ⟨"", [0, 10 ^ 20]⟩, ⟨"b", [1, 1]⟩]⟩

end Sample

theorem Worker.agrees_with_build_padded :
    ∃ tree body, MiniTree.build Sample.growing .zeroPad Sample.exchange.entries = .ok tree ∧
      Wire.encodeEntries Sample.exchange.entries = .ok body ∧
      ∃ answer, (Worker.mk Sample.growing .zeroPad).answer
          (Request.posted (Wire.requestJson body).wire) = .ok ⟨200, some answer⟩ ∧
        Sample.exchange.judge (.utf8 200 answer.wire.toUTF8.toList) = .ok tree := by
  obtain ⟨tree, hbuild⟩ : ∃ tree,
      MiniTree.build Sample.growing .zeroPad Sample.exchange.entries = .ok tree := ⟨_, rfl⟩
  have hfits : ∀ e ∈ Sample.exchange.entries, ∀ b ∈ e.amounts, Decimal.fits b = true := by
    decide +kernel
  obtain ⟨body, hbody, hspells, hanswer⟩ := Worker.agrees_with_build ⟨Sample.growing, .zeroPad⟩
    Sample.exchange Sample.neverEmpty_growing hbuild hfits
  have hwire : (Wire.requestJson body).wire.toList = (Wire.requestJson body).wireChars :=
    String.toList_ofList
  have hsize : (Wire.requestJson body).wire.toUTF8.toList.length < Request.sizeLimit := by
    rw [Utf8.toUTF8_toList, hwire]
    rw [Wire.encodeEntries_of_fits hfits] at hbody
    cases hbody
    decide +kernel
  obtain ⟨answer, hanswered, -, -, hjudged⟩ := hanswer _ (by rw [hwire]; exact hspells) hsize
  exact ⟨tree, body, hbuild, hbody, answer, hanswered, hjudged _⟩

end SumTree
