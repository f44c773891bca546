import SumTree.Proofs.Entry.Numerals
import SumTree.Proofs.Json.Writing
import SumTree.Wire.Record

/-!
# Records are read as they were written

A record that has a wire form is read back from it: an entry whose balances may be written
(`check_toJson`), a node with a digest and without balances below zero (`checkNode_nodeJson`), and
a tree of such nodes (`checkTree_treeJson`, `readTreeChars_treeJson`).

## Main Definitions

* `Node.Writable` — the nodes that have a wire form.
* `MiniTree.Writable` — the trees that have one.
-/

namespace SumTree

/-! ### Hexadecimal text -/

namespace Hexadecimal

theorem digits?_of_isDigit {ds : List Char} (hne : ds ≠ []) (h : ∀ c ∈ ds, Hex.isDigit c = true) :
    digits? (String.ofList ('0' :: 'x' :: ds)) = some ds := by
  have hdigits : ((('x' == 'x' || 'x' == 'X') && !ds.isEmpty) && ds.all Hex.isDigit) = true := by
    simp [hne, List.all_eq_true.mpr h]
  unfold digits?
  rw [String.toList_ofList]
  exact if_pos hdigits

/-- A digest keeps its width. -/
theorem digest_hashText {n : Node} (h : n.hash ≠ []) : digest n.hashText = .ok n.hash := by
  have hlength := Hex.length_ofBytes n.hash
  have hpos : 0 < n.hash.length := List.length_pos_iff.mpr h
  have hne : Hex.ofBytes n.hash ≠ [] := by
    rw [← List.length_pos_iff]
    omega
  have heven : ((Hex.ofBytes n.hash).length % 2 == 1) = false := by
    rw [hlength, beq_eq_false_iff_ne]
    omega
  unfold digest Node.hashText
  rw [digits?_of_isDigit hne fun _ hc => Hex.isDigit_of_mem_ofBytes hc]
  simp only [heven, Bool.false_eq_true, if_false, Hex.toBytes?_ofBytes]

theorem number_ofInt {b : Int} (h : 0 ≤ b) : number (Hex.ofInt b) = .ok b.toNat := by
  have hsign : ¬ b < 0 := by omega
  unfold number Hex.ofInt
  rw [if_neg hsign, List.nil_append,
    digits?_of_isDigit (Hex.ofNat_ne_nil _) fun _ hc => Hex.isDigit_of_mem_ofNat hc]
  simp only [Hex.toNat_ofNat, Except.ok.injEq]
  omega

end Hexadecimal

/-! ### Lists of a document -/

theorem items_eq_ok {α : Type} {check : Json → Checked α} {items : List Json} {values : List α}
    (h : List.Forall₂ (fun v a => check v = .ok a) items values) (index : Nat) :
    Checked.items check index items = .ok values := by
  induction h generalizing index with
  | nil => rfl
  | cons hv _ ih =>
      rw [Checked.items, hv, ih]
      rfl

/-- Elements that are read back make up a list that is read back. -/
theorem list_map_eq_ok {α : Type} {check : Json → Checked α} {write : α → Json} {values : List α}
    (h : ∀ a ∈ values, check (write a) = .ok a) :
    Check.list check (.arr (values.map write)) = .ok values := by
  apply items_eq_ok
  rw [List.forall₂_map_left_iff, List.forall₂_same]
  exact h

theorem list_text (texts : List String) :
    Check.list Check.text (.arr (texts.map Json.str)) = .ok texts :=
  list_map_eq_ok fun _ _ => rfl

/-! ### Nodes and trees -/

/-- The nodes that have a wire form: those with a digest and without a balance below zero. -/
structure Node.Writable (n : Node) : Prop where
  hash : n.hash ≠ []
  balances : ∀ b ∈ n.balances, 0 ≤ b

/-- The trees that have a wire form. -/
structure MiniTree.Writable (t : MiniTree) : Prop where
  root : t.root.Writable
  levels : ∀ level ∈ t.levels, ∀ n ∈ level, n.Writable
  depth : 0 ≤ t.depth

instance (n : Node) : Decidable n.Writable :=
  decidable_of_iff (n.hash ≠ [] ∧ ∀ b ∈ n.balances, 0 ≤ b)
    ⟨fun h => ⟨h.1, h.2⟩, fun h => ⟨h.hash, h.balances⟩⟩

instance (t : MiniTree) : Decidable t.Writable :=
  decidable_of_iff (t.root.Writable ∧ (∀ level ∈ t.levels, ∀ n ∈ level, n.Writable) ∧ 0 ≤ t.depth)
    ⟨fun h => ⟨h.1, h.2.1, h.2.2⟩, fun h => ⟨h.root, h.levels, h.depth⟩⟩

theorem natural_int {n : Int} (h : 0 ≤ n) : Check.natural (.int n) = .ok n := by
  have hsign : ¬ n < 0 := by omega
  show (if n < 0 then Checked.fail .belowMinimum else .ok n) = _
  exact if_neg hsign

namespace Wire

theorem checkHash_hashText {n : Node} (h : n.hash ≠ []) :
    checkHash (.str n.hashText) = .ok n.hash := by
  show byRule (Hexadecimal.digest n.hashText) = _
  rw [Hexadecimal.digest_hashText h]
  rfl

theorem checkBalances_ofInt {balances : List Int} (h : ∀ b ∈ balances, 0 ≤ b) :
    checkBalances (.arr (balances.map fun b => .str (Hex.ofInt b))) = .ok balances := by
  have htexts := list_text (balances.map Hex.ofInt)
  rw [List.map_map] at htexts
  have hnumbers : (balances.map Hex.ofInt).mapM
      (fun s => (Hexadecimal.number s).map Int.ofNat) = .ok balances := by
    apply mapM_map_eq_ok
    intro b hb
    rw [Hexadecimal.number_ofInt (h b hb)]
    exact congrArg Except.ok (Int.toNat_of_nonneg (h b hb))
  unfold checkBalances
  rw [show Check.list Check.text (.arr (balances.map fun b => .str (Hex.ofInt b))) = _ from htexts]
  show byRule _ = _
  rw [hnumbers]
  rfl

/-- A node is read back from its wire form. -/
theorem checkNode_nodeJson {n : Node} (h : n.Writable) : checkNode (nodeJson n) = .ok n := by
  have hhash : Check.required (nodeJson n) "hash" checkHash = .ok n.hash := by
    show Checked.under _ (checkHash (.str n.hashText)) = _
    rw [checkHash_hashText h.hash]
    rfl
  have hbalances : Check.required (nodeJson n) "balances" checkBalances = .ok n.balances := by
    show Checked.under _ (checkBalances (.arr (n.balances.map fun b => .str (Hex.ofInt b)))) = _
    rw [checkBalances_ofInt h.balances]
    rfl
  show (Checked.both (Check.required (nodeJson n) "hash" checkHash)
    (Check.required (nodeJson n) "balances" checkBalances)).map _ = _
  rw [hhash, hbalances]
  rfl

/-- A tree is read back from its wire form, whose entries are those that were sent. -/
theorem checkTree_treeJson {t : MiniTree} (h : t.Writable) :
    checkTree t.entries (treeJson t) = .ok t := by
  have hroot : Check.required (treeJson t) "root" checkNode = .ok t.root := by
    show Checked.under _ (checkNode (nodeJson t.root)) = _
    rw [checkNode_nodeJson h.root]
    rfl
  have hlevels : Check.required (treeJson t) "nodes" (Check.list (Check.list checkNode)) =
      .ok t.levels := by
    have hlist : Check.list (Check.list checkNode)
        (.arr (t.levels.map fun level => .arr (level.map nodeJson))) = .ok t.levels :=
      list_map_eq_ok fun level hlevel =>
        list_map_eq_ok fun n hn => checkNode_nodeJson (h.levels level hlevel n hn)
    show Checked.under _ (Check.list (Check.list checkNode) (.arr _)) = _
    rw [hlist]
    rfl
  have hdepth : Check.required (treeJson t) "depth" Check.natural = .ok t.depth := by
    show Checked.under _ (Check.natural (.int t.depth)) = _
    rw [natural_int h.depth]
    rfl
  have hsorted : Check.optional (treeJson t) "is_sorted" false Check.truth = .ok t.isSorted := rfl
  show (Checked.both (Checked.both (Check.required (treeJson t) "root" checkNode) _)
    (Checked.both (Check.required (treeJson t) "depth" Check.natural) _)).map _ = _
  rw [hroot, hlevels, hdepth, hsorted]
  rfl

theorem writtenNode_eq {n : Node} (h : n.Writable) : writtenNode n = .ok (nodeJson n) := by
  unfold writtenNode
  rw [checkNode_nodeJson h]
  rfl

/-- A tree that has a wire form is written. -/
theorem encodeTree_eq {t : MiniTree} (h : t.Writable) : encodeTree t = .ok (treeJson t) := by
  have hlevels : (t.levels.mapM fun level => level.mapM writtenNode) =
      .ok (t.levels.map fun level => level.map nodeJson) :=
    mapM_eq_ok_map fun level hlevel =>
      mapM_eq_ok_map fun n hn => writtenNode_eq (h.levels level hlevel n hn)
  unfold encodeTree
  rw [writtenNode_eq h.root, hlevels, natural_int h.depth]
  rfl

theorem legible_nodeJson (n : Node) : Json.Legible 2 (nodeJson n) := by
  apply Json.Legible.obj
  intro m hm
  simp only [List.mem_cons, List.not_mem_nil, or_false] at hm
  rcases hm with rfl | rfl
  · exact .str _
  · apply Json.Legible.arr
    intro v hv
    obtain ⟨b, -, rfl⟩ := List.mem_map.mp hv
    exact .str _

theorem legible_treeJson {t : MiniTree} (h : Decimal.fits t.depth = true) :
    Json.Legible 5 (treeJson t) := by
  apply Json.Legible.obj
  intro m hm
  simp only [List.mem_cons, List.not_mem_nil, or_false] at hm
  rcases hm with rfl | rfl | rfl | rfl
  · exact (legible_nodeJson t.root).mono (by omega)
  · apply Json.Legible.arr
    intro level hlevel
    obtain ⟨nodes, -, rfl⟩ := List.mem_map.mp hlevel
    apply Json.Legible.arr
    intro node hnode
    obtain ⟨n, -, rfl⟩ := List.mem_map.mp hnode
    exact legible_nodeJson n
  · exact .int h
  · exact .bool _

/-- A tree is read back from the text of its wire form. -/
theorem readTreeChars_treeJson {t : MiniTree} (h : t.Writable) (hdepth : Decimal.fits t.depth = true) :
    readTreeChars t.entries (some (treeJson t).wireChars) = .ok t := by
  have hspells := Json.spells_wireChars (legible_treeJson hdepth)
  have hread : Json.readChars dialect (treeJson t).wireChars = .ok (treeJson t) :=
    Json.readChars_of_spells hspells (by decide)
  unfold readTreeChars
  rw [Option.map_some, hread]
  exact checkTree_treeJson h

end Wire

/-! ### Entries -/

namespace WireEntry

theorem plainBalances_eq {texts : List String} (h : ∀ b ∈ texts, Decimal.isPlain b = true) :
    plainBalances texts = .ok texts := by
  have hnone : texts.find? (fun b => !Decimal.isPlain b) = none := by
    rw [List.find?_eq_none]
    intro b hb
    simp [h b hb]
  unfold plainBalances
  rw [hnone]

theorem checkName_json (name : WireName) : checkName name.json = .ok name := by
  cases name <;> rfl

/-- An entry of plain balances passes its check. -/
theorem check_toJson {name : WireName} {texts : List String}
    (h : ∀ b ∈ texts, Decimal.isPlain b = true) :
    check (toJson ⟨name, texts⟩) = .ok ⟨name, texts⟩ := by
  have hname : Check.required (toJson ⟨name, texts⟩) "username" checkName = .ok name := by
    show Checked.under _ (checkName name.json) = _
    rw [checkName_json]
    rfl
  have hbalances : Check.required (toJson ⟨name, texts⟩) "balances" checkBalances = .ok texts := by
    show Checked.under _ (Check.list Check.text (.arr (texts.map Json.str)) >>= plainBalances) = _
    rw [list_text]
    show Checked.under _ (plainBalances texts) = _
    rw [plainBalances_eq h]
    rfl
  show (Checked.both (Check.required (toJson ⟨name, texts⟩) "username" checkName)
    (Check.required (toJson ⟨name, texts⟩) "balances" checkBalances)).map _ = _
  rw [hname, hbalances]
  rfl

end WireEntry

namespace ReceivedEntry

/-- The entry whose name is the shown one. -/
def shownEntry (e : ReceivedEntry) : Entry :=
  ⟨e.username.shown, e.balances⟩

/-- The wire form of an entry whose balances may be written. -/
def wire (e : ReceivedEntry) : WireEntry :=
  ⟨e.username, e.shownEntry.shown⟩

theorem toWire_of_fits {e : ReceivedEntry}
    (h : ∀ b ∈ e.shownEntry.amounts, Decimal.fits b = true) : e.toWire = .ok e.wire := by
  have htexts : e.shownEntry.amounts.mapM Decimal.text = .ok e.shownEntry.shown :=
    mapM_eq_ok_map fun b hb => Decimal.text_of_fits (h b hb)
  change (e.shownEntry.amounts.mapM Decimal.text >>= _) = _
  rw [htexts]
  rfl

/-- An entry passes the check of its wire form. -/
theorem check_wire (e : ReceivedEntry) : WireEntry.check e.wire.toJson = .ok e.wire :=
  WireEntry.check_toJson e.shownEntry.isPlain_shown

theorem toEntry_wire {e : ReceivedEntry}
    (h : ∀ b ∈ e.shownEntry.amounts, Decimal.fits b = true) : e.wire.toEntry = .ok e := by
  unfold WireEntry.toEntry
  rw [show Entry.ofNumerals e.wire.username.shown e.wire.balances = _ from
    Entry.ofNumerals_shown h]
  rfl

theorem map_width_received (entries : List Entry) :
    (entries.map Entry.received).map width = entries.map Entry.width := by
  rw [List.map_map]
  rfl

/-- Of entries that were sent, all names are texts. -/
theorem named_map_received (entries : List Entry) : named (entries.map Entry.received) = entries := by
  induction entries with
  | nil => rfl
  | cons e rest ih => exact congrArg (e :: ·) ih

/-- If all names are texts, all that is received are entries. -/
theorem map_received_named {received : List ReceivedEntry}
    (h : ∀ e ∈ received, ∀ points, e.username ≠ .unpaired points) :
    (named received).map Entry.received = received := by
  fun_induction named received with
  | case1 => rfl
  | case2 e rest s hname ih =>
      rw [List.map_cons, ih fun d hd => h d (List.mem_cons_of_mem e hd), Entry.received, ← hname]
  | case3 e rest points hname => exact absurd hname (h e List.mem_cons_self points)

/-- What is in front of the first name that is no text was received. -/
theorem received_mem_of_mem_named {received : List ReceivedEntry} {entry : Entry}
    (h : entry ∈ named received) : entry.received ∈ received := by
  fun_induction named received with
  | case1 => cases h
  | case2 e rest s hname ih =>
      rcases List.mem_cons.mp h with rfl | h
      · rw [Entry.received, ← hname]
        exact List.mem_cons_self
      · exact List.mem_cons_of_mem e (ih h)
  | case3 e rest points hname => cases h

/-- A name that is no text leaves entries out. -/
theorem length_named_lt {received : List ReceivedEntry} {e : ReceivedEntry} (he : e ∈ received)
    {points : List Nat} (hpoints : e.username = .unpaired points) :
    (named received).length < received.length := by
  fun_induction named received with
  | case1 => cases he
  | case2 first rest s hname ih =>
      rcases List.mem_cons.mp he with rfl | he
      · rw [hpoints] at hname
        cases hname
      · exact Nat.succ_lt_succ (ih he)
  | case3 first rest found hname => exact Nat.succ_pos _

end ReceivedEntry

/-- The wire form of an entry whose balances may be written. -/
def Entry.wire (e : Entry) : WireEntry :=
  ⟨.text e.username, e.shown⟩

namespace Wire

/-- The entries of a request are read back one by one. -/
theorem check_wire (e : Entry) : WireEntry.check e.wire.toJson = .ok e.wire :=
  e.received.check_wire

theorem toEntry_wire {e : Entry} (h : ∀ b ∈ e.amounts, Decimal.fits b = true) :
    e.wire.toEntry = .ok e.received :=
  ReceivedEntry.toEntry_wire (e := e.received) h

theorem encodeEntries_of_fits {entries : List Entry}
    (h : ∀ e ∈ entries, ∀ b ∈ e.amounts, Decimal.fits b = true) :
    encodeEntries entries = .ok (entries.map Entry.wire) :=
  mapM_eq_ok_map fun e he => ReceivedEntry.toWire_of_fits (e := e.received) (h e he)

theorem legible_requestJson {body : List WireEntry}
    (h : ∀ wire ∈ body, ∃ name, wire.username = .text name) : Json.Legible 3 (requestJson body) := by
  apply Json.Legible.arr
  intro v hv
  obtain ⟨wire, hwire, rfl⟩ := List.mem_map.mp hv
  obtain ⟨name, hname⟩ := h wire hwire
  apply Json.Legible.obj
  intro m hm
  simp only [hname, WireName.json, List.mem_cons, List.not_mem_nil, or_false] at hm
  rcases hm with rfl | rfl
  · exact .str name
  · apply Json.Legible.arr
    intro text htext
    obtain ⟨b, -, rfl⟩ := List.mem_map.mp htext
    exact .str b

theorem legible_requestJson_wire (entries : List Entry) :
    Json.Legible 3 (requestJson (entries.map Entry.wire)) :=
  legible_requestJson (List.forall_mem_map.mpr fun e _ => ⟨e.username, rfl⟩)

end Wire

end SumTree
