import SumTree.Proofs.Run.Acceptance
import SumTree.Proofs.Schema.Checked
import SumTree.Proofs.Wire.Record

/-!
# Trees on the wire and back

A tree has a wire form exactly when it is writable (`encodeTree_eq_ok_iff`), and a tree that was read
always is (`writable_of_readTreeChars`). So both ways around nothing is lost: what is written is read
back, and what was read can be written and is read back again (`round_trip`).

A digest that was read has as many bytes as its digits make, an odd one rounded up, and it is never
empty; a balance that was read is never negative. Both facts come from the mark of base sixteen: what
follows it is at least one digit, and nothing else.
-/

namespace SumTree

/-! ### Hexadecimal text -/

namespace Hexadecimal

theorem ne_nil_of_digits? {s : String} {ds : List Char} (h : digits? s = some ds) : ds ≠ [] := by
  unfold digits? at h
  split at h
  · split at h
    · rename_i hdigits
      cases h
      simp only [Bool.and_eq_true, Bool.not_eq_true', List.isEmpty_eq_false_iff] at hdigits
      exact hdigits.1.2
    · cases h
  · cases h

/-- A digest that is read is not empty. -/
theorem ne_nil_of_digest {s : String} {bytes : List UInt8} (h : digest s = .ok bytes) :
    bytes ≠ [] := by
  rintro rfl
  unfold digest at h
  cases hdigits : digits? s with
  | none =>
      rw [hdigits] at h
      cases h
  | some ds =>
      rw [hdigits] at h
      obtain ⟨c, rest, rfl⟩ := List.exists_cons_of_ne_nil (ne_nil_of_digits? hdigits)
      dsimp only at h
      split at h
      · rename_i found hbytes
        cases h
        -- Behind the first pair of digits there is a first byte.
        have hpair : ∀ cs : List Char, cs ≠ [] → Hex.toBytes? cs ≠ some [] := by
          intro cs hcs hnil
          match cs, hcs with
          | [_], _ => cases hnil
          | high :: low :: others, _ =>
              simp [Hex.toBytes?, Option.bind_eq_some_iff] at hnil
        refine hpair _ ?_ hbytes
        split
        · exact List.cons_ne_nil _ _
        · exact List.cons_ne_nil _ _
      · cases h

/-- Only a digest that is not empty is read from its text. -/
theorem ne_nil_of_digest_hashText {n : Node} {bytes : List UInt8}
    (h : digest n.hashText = .ok bytes) : n.hash ≠ [] := by
  intro hnil
  rw [Node.hashText, hnil] at h
  cases h

/-- Only a balance that is not negative is read from its text. -/
theorem nonneg_of_number_ofInt {b : Int} {n : Nat} (h : number (Hex.ofInt b) = .ok n) : 0 ≤ b := by
  by_contra hneg
  rw [Hex.ofInt, if_pos (Int.not_le.mp hneg), number, digits?, String.toList_ofList] at h
  cases h

end Hexadecimal

namespace Wire

/-! ### Nodes -/

theorem byRule_eq_ok_iff {α : Type} {x : Except ValueFault α} {a : α} :
    byRule x = .ok a ↔ x = .ok a := by
  cases x with
  | ok b => simp [byRule]
  | error fault => simp [byRule, Checked.refuse]

theorem ne_nil_of_checkHash {v : Json} {hash : Digest} (h : checkHash v = .ok hash) : hash ≠ [] := by
  obtain ⟨s, -, h⟩ := exists_of_bind_eq_ok h
  exact Hexadecimal.ne_nil_of_digest (byRule_eq_ok_iff.mp h)

theorem nonneg_of_checkBalances {v : Json} {balances : List Int}
    (h : checkBalances v = .ok balances) : ∀ b ∈ balances, 0 ≤ b := by
  obtain ⟨texts, -, h⟩ := exists_of_bind_eq_ok h
  have hread := mapM_eq_ok_iff.mp (byRule_eq_ok_iff.mp h)
  refine (forall₂_and_right.mp (hread.imp fun s b hb => ⟨hb, ?_⟩)).2
  obtain ⟨n, -, rfl⟩ := exists_of_map_eq_ok hb
  exact Int.natCast_nonneg n

/-- A node that was read can be written. -/
theorem writable_of_checkNode {v : Json} {n : Node} (h : checkNode v = .ok n) : n.Writable := by
  obtain ⟨parts, hparts, rfl⟩ := exists_of_map_eq_ok (eq_ok_of_record h)
  obtain ⟨hhash, hbalances⟩ := Checked.both_eq_ok_iff.mp hparts
  obtain ⟨hashValue, -, hhash⟩ := Check.exists_of_required hhash
  obtain ⟨balancesValue, -, hbalances⟩ := Check.exists_of_required hbalances
  exact ⟨ne_nil_of_checkHash hhash, nonneg_of_checkBalances hbalances⟩

/-- Writing a node checks it, and only a writable one passes. -/
theorem writable_of_writtenNode {n : Node} {v : Json} (h : writtenNode n = .ok v) :
    n.Writable ∧ v = nodeJson n := by
  obtain ⟨m, hm, h⟩ := exists_of_bind_eq_ok h
  cases h
  obtain ⟨parts, hparts, -⟩ := exists_of_map_eq_ok (eq_ok_of_record hm)
  obtain ⟨hhash, hbalances⟩ := Checked.both_eq_ok_iff.mp hparts
  obtain ⟨hashValue, hfound, hhash⟩ := Check.exists_of_required hhash
  cases hfound
  obtain ⟨balancesValue, hfound, hbalances⟩ := Check.exists_of_required hbalances
  cases hfound
  refine ⟨⟨?_, ?_⟩, rfl⟩
  · obtain ⟨s, hs, hhash⟩ := exists_of_bind_eq_ok hhash
    cases hs
    exact Hexadecimal.ne_nil_of_digest_hashText (byRule_eq_ok_iff.mp hhash)
  · have htexts := list_text (n.balances.map Hex.ofInt)
    rw [List.map_map] at htexts
    obtain ⟨texts, hlist, hbalances⟩ := exists_of_bind_eq_ok hbalances
    cases htexts.symm.trans hlist
    intro b hb
    obtain ⟨number, hnumber⟩ := exists_of_mem_mapM (byRule_eq_ok_iff.mp hbalances)
      (List.mem_map_of_mem hb)
    obtain ⟨m, hm, -⟩ := exists_of_map_eq_ok hnumber
    exact Hexadecimal.nonneg_of_number_ofInt hm

/-! ### Trees -/

theorem writable_of_checkLevels {v : Json} {levels : List (List Node)}
    (h : Check.list (Check.list checkNode) v = .ok levels) :
    ∀ level ∈ levels, ∀ n ∈ level, n.Writable := by
  obtain ⟨items, hitems⟩ := Check.exists_of_list h
  refine (forall₂_and_right.mp (hitems.imp fun item level hlevel => ⟨hlevel, ?_⟩)).2
  obtain ⟨nodes, hnodes⟩ := Check.exists_of_list hlevel
  exact (forall₂_and_right.mp (hnodes.imp fun node n hn => ⟨hn, writable_of_checkNode hn⟩)).2

/-- A tree that was read can be written, its depth included. -/
theorem writable_of_checkTree {entries : List Entry} {v : Json} {t : MiniTree} (hv : v.Bounded)
    (h : checkTree entries v = .ok t) : t.Writable ∧ Decimal.fits t.depth = true := by
  obtain ⟨parts, hparts, rfl⟩ := exists_of_map_eq_ok (eq_ok_of_record h)
  obtain ⟨hnodes, hnumbers⟩ := Checked.both_eq_ok_iff.mp hparts
  obtain ⟨hroot, hlevels⟩ := Checked.both_eq_ok_iff.mp hnodes
  obtain ⟨hdepth, -⟩ := Checked.both_eq_ok_iff.mp hnumbers
  obtain ⟨rootValue, -, hroot⟩ := Check.exists_of_required hroot
  obtain ⟨levelsValue, -, hlevels⟩ := Check.exists_of_required hlevels
  obtain ⟨depthValue, hfound, hdepth⟩ := Check.exists_of_required hdepth
  obtain ⟨hnonneg, hinteger⟩ := Check.nonneg_of_natural hdepth
  exact ⟨⟨writable_of_checkNode hroot, writable_of_checkLevels hlevels, hnonneg⟩,
    Check.fits_of_integer (hv.get? hfound) hinteger⟩

/-- A tree that was read from an answer's characters can be written. -/
theorem writable_of_readTreeChars {entries : List Entry} {cs : Option (List Char)} {t : MiniTree}
    (h : readTreeChars entries cs = .ok t) : t.Writable ∧ Decimal.fits t.depth = true := by
  rw [readTreeChars] at h
  split at h
  · rename_i v hv
    obtain ⟨chars, -, hread⟩ := Option.map_eq_some_iff.mp hv
    exact writable_of_checkTree (Json.bounded_of_readChars hread) h
  · cases h

/-- Exactly the writable trees have a wire form. -/
theorem encodeTree_eq_ok_iff {t : MiniTree} {v : Json} :
    encodeTree t = .ok v ↔ t.Writable ∧ v = treeJson t := by
  constructor
  · intro h
    obtain ⟨root, hroot, h⟩ := exists_of_bind_eq_ok h
    obtain ⟨levels, hlevels, h⟩ := exists_of_bind_eq_ok h
    obtain ⟨depth, hdepth, h⟩ := exists_of_bind_eq_ok h
    cases h
    refine ⟨⟨(writable_of_writtenNode hroot).1, ?_, ?_⟩, rfl⟩
    · intro level hlevel n hn
      obtain ⟨nodes, hnodes⟩ := exists_of_mem_mapM hlevels hlevel
      obtain ⟨node, hnode⟩ := exists_of_mem_mapM hnodes hn
      exact (writable_of_writtenNode hnode).1
    · obtain ⟨hnonneg, hinteger⟩ := Check.nonneg_of_natural (Checked.under_eq_ok_iff.mp hdepth)
      cases hinteger
      exact hnonneg
  · rintro ⟨hwritable, rfl⟩
    exact encodeTree_eq hwritable

/-! ### Refusals -/

theorem explained_byRule {α : Type} (x : Except ValueFault α) : Checked.Explained (byRule x) := by
  cases x with
  | ok a => exact Checked.explained_ok a
  | error fault => exact Checked.explained_refuse _

theorem explained_checkNode (v : Json) : Checked.Explained (checkNode v) := by
  have hhash : ∀ v, Checked.Explained (checkHash v) := fun v =>
    (Check.explained_text v).bind fun s => explained_byRule _
  have hbalances : ∀ v, Checked.Explained (checkBalances v) := fun v =>
    (Check.explained_list Check.explained_text v).bind fun texts => explained_byRule _
  refine Check.explained_record (fun v => ?_) v
  exact ((Check.explained_required hhash v _).both (Check.explained_required hbalances v _)).map _

theorem explained_writtenNode (n : Node) : Checked.Explained (writtenNode n) :=
  (explained_checkNode _).bind fun _ => Checked.explained_ok _

/-- A tree that has no wire form is refused with a reason. -/
theorem explained_encodeTree (t : MiniTree) : Checked.Explained (encodeTree t) := by
  refine (explained_writtenNode t.root).bind fun _ => ?_
  refine (Checked.Explained.mapM (Checked.Explained.mapM explained_writtenNode) t.levels).bind
    fun _ => ?_
  exact ((Check.explained_natural_int t.depth).under _).bind fun _ => Checked.explained_ok _

theorem exists_issue_of_not_writable {t : MiniTree} (h : ¬ t.Writable) :
    ∃ issue issues, encodeTree t = .error (issue :: issues) := by
  cases hencoded : encodeTree t with
  | ok v => exact absurd (encodeTree_eq_ok_iff.mp hencoded).1 h
  | error issues =>
      cases issues with
      | nil => exact absurd hencoded (explained_encodeTree t)
      | cons issue rest => exact ⟨issue, rest, rfl⟩

/-! ### Both ways around -/

/-- A tree is read back from whatever text of its wire form. -/
theorem readTree_of_spells {t : MiniTree} (h : t.Writable) {text : String}
    (htext : Json.Spells dialect.maxNesting (treeJson t) text.toList) :
    readTree t.entries (some text) = .ok t := by
  rw [readTree, Option.map_some, readTreeChars, Option.map_some,
    Json.readChars_of_spells htext (Nat.le_refl _)]
  exact checkTree_treeJson h

/-- Nothing is lost between a tree and its wire form. A tree whose depth has few enough digits to be
written as a number is encoded exactly when its root and nodes have a digest and no balance below zero
and its depth is not below zero, and is refused with an issue otherwise; from every JSON text of the
encoded value, the printed one among them, the very tree is read back. And whenever a tree is read
from characters, it is encoded again, and from every text of that the very tree is read back. -/
theorem round_trip :
    (∀ t : MiniTree, Decimal.fits t.depth = true →
      ((∃ v, encodeTree t = .ok v) ↔ t.Writable) ∧
      (¬ t.Writable → ∃ issue issues, encodeTree t = .error (issue :: issues)) ∧
      ∀ v, encodeTree t = .ok v →
        Json.Spells dialect.maxNesting v v.wire.toList ∧
        ∀ text : String, Json.Spells dialect.maxNesting v text.toList →
          readTree t.entries (some text) = .ok t) ∧
    ∀ (entries : List Entry) (cs : Option (List Char)) (t : MiniTree),
      readTreeChars entries cs = .ok t →
      ∃ v, encodeTree t = .ok v ∧ readTree entries (some v.wire) = .ok t ∧
        ∀ text : String, Json.Spells dialect.maxNesting v text.toList →
          readTree entries (some text) = .ok t := by
  have hwire : ∀ t : MiniTree, Decimal.fits t.depth = true →
      Json.Spells dialect.maxNesting (treeJson t) (treeJson t).wire.toList := by
    intro t hdepth
    rw [Json.wire, String.toList_ofList]
    exact (Json.spells_wireChars (legible_treeJson hdepth)).mono (by decide)
  constructor
  · intro t hdepth
    refine ⟨⟨?_, fun h => ⟨_, encodeTree_eq h⟩⟩, exists_issue_of_not_writable, ?_⟩
    · rintro ⟨v, hv⟩
      exact (encodeTree_eq_ok_iff.mp hv).1
    · intro v hv
      obtain ⟨hwritable, rfl⟩ := encodeTree_eq_ok_iff.mp hv
      exact ⟨hwire t hdepth, fun text htext => readTree_of_spells hwritable htext⟩
  · intro entries cs t h
    obtain ⟨hwritable, hdepth⟩ := writable_of_readTreeChars h
    cases entries_of_readTreeChars h
    exact ⟨_, encodeTree_eq hwritable, readTree_of_spells hwritable (hwire t hdepth),
      fun text htext => readTree_of_spells hwritable htext⟩

end Wire

namespace Sample

/-- An answer whose digest has an odd number of digits, and whose flag is left out. -/
def oddAnswer : List Char :=
  ("\x7b \"depth\": \" 00 \", \"root\": \x7b\"hash\": \"0XaBc\", \"balances\": [\"0x007\"]\x7d," ++
    "\"nodes\": [[\x7b\"balances\": [], \"hash\": \"0x0\"\x7d]]\x7d").toList

/-- The tree of that answer. -/
def oddTree : MiniTree :=
  ⟨⟨[0x0a, 0xbc], [7]⟩, [[⟨[0], []⟩]], 0, false, []⟩

/-- The same tree, its depth below zero. -/
def sunkenTree : MiniTree :=
  { oddTree with depth := -1 }

end Sample

/-- The digest comes back with a zero in front and in lower case. -/
theorem Wire.round_trip_odd :
    readTreeChars [] (some Sample.oddAnswer) = .ok Sample.oddTree ∧
    Sample.oddTree.root.hashText = "0x0abc" ∧
    (∃ v, encodeTree Sample.oddTree = .ok v ∧ readTree [] (some v.wire) = .ok Sample.oddTree) ∧
    ∃ issue issues, encodeTree Sample.sunkenTree = .error (issue :: issues) := by
  have hread : readTreeChars [] (some Sample.oddAnswer) = .ok Sample.oddTree := by
    decide +kernel
  obtain ⟨v, hv, hback, -⟩ := round_trip.2 [] _ _ hread
  have hdepth : Decimal.fits Sample.sunkenTree.depth = true :=
    Check.fits_of_natAbs_lt_two_pow (by decide)
  have hsunken : ¬ Sample.sunkenTree.Writable := fun h => absurd h.depth (by decide)
  exact ⟨hread, rfl, ⟨v, hv, hback⟩, (round_trip.1 Sample.sunkenTree hdepth).2.1 hsunken⟩

end SumTree
