import SumTree.Proofs.Json.Writing
import SumTree.Proofs.Text.Utf8
import SumTree.Tree.Hasher

/-!
# Payloads

What the built-in hashers take the digest of. The bytes of a payload determine what they were made
from: a leaf's name and balances, or the two nodes beneath a parent, and no leaf has the bytes of a
parent (`Preimage.eq_of_bytes`).

## Main Definitions

* `Preimage` — an entry, or two nodes in their order.
* `Preimage.bytes` — the bytes that a digest is taken of.
-/

namespace SumTree

/-- What a digest is taken of. -/
inductive Preimage
  | leaf (e : Entry)
  | parent (left right : Node)

namespace Preimage

/-- The payload of a leaf or of a parent. -/
def payload : Preimage → Except ValueFault Json
  | leaf e => Hasher.leafPayload e.username e.amounts
  | parent left right => Hasher.parentPayload left right

/-- The bytes that a digest is taken of. -/
def bytes (p : Preimage) : Except ValueFault (List UInt8) := do
  Hasher.payloadBytes (← p.payload)

end Preimage

namespace Hasher

open Json

/-- The texts of balances that may be written. -/
def shown (balances : List Int) : List Json :=
  balances.map fun b => .str (Decimal.render b)

theorem balanceTexts_eq {balances : List Int} {texts : List Json}
    (h : balanceTexts balances = .ok texts) :
    texts = shown balances ∧ ∀ b ∈ balances, Decimal.fits b = true := by
  unfold balanceTexts at h
  have hall := mapM_eq_ok_iff.mp h
  clear h
  induction hall with
  | nil => exact ⟨rfl, fun b hb => absurd hb List.not_mem_nil⟩
  | @cons b text balances texts htext _ ih =>
      obtain ⟨s, hs, rfl⟩ := exists_of_map_eq_ok htext
      obtain ⟨hfits, rfl⟩ := Decimal.of_text_eq_ok hs
      obtain ⟨rfl, hrest⟩ := ih
      refine ⟨rfl, ?_⟩
      intro d hd
      rcases List.mem_cons.mp hd with rfl | hd
      · exact hfits
      · exact hrest d hd

theorem balanceTexts_of_fits {balances : List Int} (h : ∀ b ∈ balances, Decimal.fits b = true) :
    balanceTexts balances = .ok (shown balances) := by
  apply mapM_eq_ok_map
  intro b hb
  rw [Decimal.text_of_fits (h b hb)]
  rfl

/-- Balances that may be written are determined by their texts. -/
theorem shown_injOn {balances balances' : List Int} (h : ∀ b ∈ balances, Decimal.fits b = true)
    (h' : ∀ b ∈ balances', Decimal.fits b = true) (heq : shown balances = shown balances') :
    balances = balances' := by
  induction balances generalizing balances' with
  | nil => exact (List.map_eq_nil_iff.mp heq.symm).symm
  | cons b rest ih =>
      cases balances' with
      | nil => cases heq
      | cons b' rest' =>
          obtain ⟨hb, hrest⟩ := List.cons.inj heq
          have hread := Decimal.read_render (h b List.mem_cons_self)
          rw [Json.str.inj hb, Decimal.read_render (h' b' List.mem_cons_self)] at hread
          rw [← Except.ok.inj hread, ih (fun d hd => h d (List.mem_cons_of_mem b hd))
            (fun d hd => h' d (List.mem_cons_of_mem b' hd)) hrest]

theorem sortedItems_shown (balances : List Int) : sortedItems (shown balances) = shown balances := by
  rw [sortedItems_eq_map, shown, List.map_map]
  rfl

theorem legible_shown (balances : List Int) : Legible 1 (.arr (shown balances)) := by
  apply Legible.arr
  intro v hv
  obtain ⟨b, -, rfl⟩ := List.mem_map.mp hv
  exact .str _

/-- The payload of a leaf. -/
def leafJson (username : String) (balances : List Int) : Json :=
  .obj [("username", .str username), ("balances", .arr (shown balances))]

/-- The payload of a parent. -/
def parentJson (left right : Node) : Json :=
  .arr [.str (String.ofList (Hex.ofBytes left.hash)), .str (String.ofList (Hex.ofBytes right.hash)),
    .arr (shown left.balances), .arr (shown right.balances)]

theorem sorted_leafJson (username : String) (balances : List Int) :
    sorted (leafJson username balances) =
      .obj [("balances", .arr (shown balances)), ("username", .str username)] := by
  have hmembers : sortedMembers [("username", .str username), ("balances", .arr (shown balances))] =
      [("username", .str username), ("balances", .arr (shown balances))] := by
    show [("username", Json.str username), ("balances", Json.arr (sortedItems (shown balances)))] = _
    rw [sortedItems_shown]
  show Json.obj (List.mergeSort _ nameLe) = _
  rw [hmembers]
  simp [List.mergeSort, nameLe]

theorem sorted_parentJson (left right : Node) :
    sorted (parentJson left right) = parentJson left right := by
  show Json.arr [.str _, .str _, .arr (sortedItems (shown left.balances)),
    .arr (sortedItems (shown right.balances))] = _
  rw [sortedItems_shown, sortedItems_shown]
  rfl

theorem legible_leafJson (username : String) (balances : List Int) :
    Legible 2 (leafJson username balances) := by
  apply Legible.obj
  intro m hm
  simp only [List.mem_cons, List.not_mem_nil, or_false] at hm
  rcases hm with rfl | rfl
  · exact .str _
  · exact legible_shown balances

theorem legible_parentJson (left right : Node) : Legible 2 (parentJson left right) := by
  apply Legible.arr
  intro v hv
  simp only [List.mem_cons, List.not_mem_nil, or_false] at hv
  rcases hv with rfl | rfl | rfl | rfl
  · exact .str _
  · exact .str _
  · exact legible_shown left.balances
  · exact legible_shown right.balances

theorem leafPayload_eq {username : String} {balances : List Int} {v : Json}
    (h : leafPayload username balances = .ok v) :
    v = leafJson username balances ∧ ∀ b ∈ balances, Decimal.fits b = true := by
  unfold leafPayload at h
  obtain ⟨texts, htexts, h⟩ := exists_of_bind_eq_ok h
  cases h
  obtain ⟨rfl, hfits⟩ := balanceTexts_eq htexts
  exact ⟨rfl, hfits⟩

theorem parentPayload_eq {left right : Node} {v : Json} (h : parentPayload left right = .ok v) :
    v = parentJson left right ∧ (∀ b ∈ left.balances, Decimal.fits b = true) ∧
      ∀ b ∈ right.balances, Decimal.fits b = true := by
  unfold parentPayload at h
  obtain ⟨lefts, hlefts, h⟩ := exists_of_bind_eq_ok h
  obtain ⟨rights, hrights, h⟩ := exists_of_bind_eq_ok h
  cases h
  obtain ⟨rfl, hleft⟩ := balanceTexts_eq hlefts
  obtain ⟨rfl, hright⟩ := balanceTexts_eq hrights
  exact ⟨rfl, hleft, hright⟩

end Hasher

namespace Preimage

open Hasher Json

/-- The payload, if it can be written. -/
def json : Preimage → Json
  | leaf e => leafJson e.username e.amounts
  | parent left right => parentJson left right

/-- The balances that are written into the payload. -/
def balances : Preimage → List Int
  | leaf e => e.amounts
  | parent left right => left.balances ++ right.balances

theorem payload_eq {p : Preimage} {v : Json} (h : p.payload = .ok v) :
    v = p.json ∧ ∀ b ∈ p.balances, Decimal.fits b = true := by
  cases p with
  | leaf e => exact leafPayload_eq h
  | parent left right =>
      obtain ⟨hv, hleft, hright⟩ := parentPayload_eq h
      refine ⟨hv, ?_⟩
      intro b hb
      rcases List.mem_append.mp hb with hb | hb
      · exact hleft b hb
      · exact hright b hb

theorem legible_json (p : Preimage) : Legible 2 p.json := by
  cases p with
  | leaf e => exact legible_leafJson e.username e.amounts
  | parent left right => exact legible_parentJson left right

/-- What is hashed is the canonical form of the payload, whose balances may all be written. -/
theorem exists_text_of_bytes {p : Preimage} {data : List UInt8} (h : p.bytes = .ok data) :
    ∃ text : String, p.json.canonical = .ok text ∧ data = text.toUTF8.toList ∧
      ∀ b ∈ p.balances, Decimal.fits b = true := by
  unfold bytes at h
  obtain ⟨v, hv, h⟩ := exists_of_bind_eq_ok h
  obtain ⟨rfl, hfits⟩ := payload_eq hv
  unfold payloadBytes at h
  split at h
  · rename_i text htext
    cases h
    exact ⟨text, htext, rfl, hfits⟩
  · cases h

theorem payload_of_fits {p : Preimage} (h : ∀ b ∈ p.balances, Decimal.fits b = true) :
    p.payload = .ok p.json := by
  cases p with
  | leaf e =>
      have htexts : balanceTexts e.amounts = .ok (shown e.amounts) := balanceTexts_of_fits h
      show Hasher.leafPayload e.username e.amounts = _
      unfold leafPayload
      rw [htexts]
      rfl
  | parent left right =>
      obtain ⟨hleft, hright⟩ := List.forall_mem_append.mp h
      show Hasher.parentPayload left right = _
      unfold parentPayload
      rw [balanceTexts_of_fits hleft, balanceTexts_of_fits hright]
      rfl

/-- Whatever has balances that may be written can be hashed. -/
theorem exists_bytes {p : Preimage} (h : ∀ b ∈ p.balances, Decimal.fits b = true) :
    ∃ data, p.bytes = .ok data := by
  obtain ⟨text, htext⟩ := exists_canonical p.legible_json
  refine ⟨text.toUTF8.toList, ?_⟩
  unfold bytes
  rw [payload_of_fits h]
  show payloadBytes p.json = _
  unfold payloadBytes
  rw [htext]

/-- A node is determined by the texts of its digest and of its balances. -/
theorem node_eq {n m : Node} (hn : ∀ b ∈ n.balances, Decimal.fits b = true)
    (hm : ∀ b ∈ m.balances, Decimal.fits b = true)
    (hhash : String.ofList (Hex.ofBytes n.hash) = String.ofList (Hex.ofBytes m.hash))
    (hshown : shown n.balances = shown m.balances) : n = m := by
  obtain ⟨hash, balances⟩ := n
  obtain ⟨hash', balances'⟩ := m
  have hdigest : hash = hash' := Hex.ofBytes_injective (String.ofList_inj.mp hhash)
  have hbalances : balances = balances' := shown_injOn hn hm hshown
  rw [hdigest, hbalances]

/-- A payload whose balances may be written determines what it was made from. -/
theorem eq_of_sorted_json {p q : Preimage} (hp : ∀ b ∈ p.balances, Decimal.fits b = true)
    (hq : ∀ b ∈ q.balances, Decimal.fits b = true) (h : sorted p.json = sorted q.json) : p = q := by
  cases p with
  | leaf e =>
      cases q with
      | leaf e' =>
          unfold json at h
          rw [sorted_leafJson, sorted_leafJson] at h
          simp only [Json.obj.injEq, List.cons.injEq, Prod.mk.injEq, Json.arr.injEq, Json.str.injEq,
            true_and, and_true] at h
          obtain ⟨username, balances⟩ := e
          obtain ⟨username', balances'⟩ := e'
          obtain ⟨hshown, rfl⟩ := h
          have hbalances : balances = balances' :=
            List.map_injective_iff.mpr (fun _ _ => Int.ofNat.inj) (shown_injOn hp hq hshown)
          rw [hbalances]
      | parent left right =>
          unfold json at h
          rw [sorted_leafJson, sorted_parentJson] at h
          cases h
  | parent left right =>
      cases q with
      | leaf e' =>
          unfold json at h
          rw [sorted_leafJson, sorted_parentJson] at h
          cases h
      | parent left' right' =>
          unfold json at h
          rw [sorted_parentJson, sorted_parentJson] at h
          simp only [parentJson, Json.arr.injEq, List.cons.injEq, Json.str.injEq, and_true] at h
          obtain ⟨hleft, hright, hlefts, hrights⟩ := h
          rw [node_eq (List.forall_mem_append.mp hp).1 (List.forall_mem_append.mp hq).1 hleft hlefts,
            node_eq (List.forall_mem_append.mp hp).2 (List.forall_mem_append.mp hq).2 hright hrights]

/-- The bytes that a digest is taken of determine what they were made from. -/
theorem eq_of_bytes {p q : Preimage} {data : List UInt8} (hp : p.bytes = .ok data)
    (hq : q.bytes = .ok data) : p = q := by
  obtain ⟨text, htext, hdata, hfits⟩ := exists_text_of_bytes hp
  obtain ⟨text', htext', hdata', hfits'⟩ := exists_text_of_bytes hq
  have hread := Utf8.decode?_toUTF8 text
  rw [← hdata, hdata', Utf8.decode?_toUTF8, Option.some.injEq] at hread
  subst hread
  exact eq_of_sorted_json hfits hfits'
    (sorted_eq_of_canonical p.legible_json q.legible_json htext htext')

end Preimage

namespace Hasher

/-- The digest of a leaf is that of its bytes. -/
theorem payloads_leaf (hash : List UInt8 → Digest) (e : Entry) :
    (payloads hash).leaf e.username e.amounts =
      ((Preimage.leaf e).bytes.map hash).mapError .value := by
  refine congrArg (Except.mapError TreeFault.value) ?_
  show (leafPayload e.username e.amounts >>= fun v => payloadBytes v >>= fun data => .ok (hash data)) =
    (leafPayload e.username e.amounts >>= payloadBytes).map hash
  cases leafPayload e.username e.amounts with
  | error fault => rfl
  | ok v => cases h : payloadBytes v <;> simp [bind, Except.bind, Except.map, h]

/-- The digest of a parent is that of its bytes. -/
theorem payloads_combine (hash : List UInt8 → Digest) (left right : Node) :
    (payloads hash).combine left right =
      ((Preimage.parent left right).bytes.map hash).mapError .value := by
  refine congrArg (Except.mapError TreeFault.value) ?_
  show (parentPayload left right >>= fun v => payloadBytes v >>= fun data => .ok (hash data)) =
    (parentPayload left right >>= payloadBytes).map hash
  cases parentPayload left right with
  | error fault => rfl
  | ok v => cases h : payloadBytes v <;> simp [bind, Except.bind, Except.map, h]

end Hasher

end SumTree
