import SumTree.Proofs.Schema.Checked
import SumTree.Proofs.Wire.Record

/-!
# Entries on the wire and back

A value passes the check of an entry exactly when it holds one (`check_eq_ok_iff`), and its balances are
then plain numerals, so that nothing else that reads as a number is taken for a balance: each of them is
the number that its digits write, unless there are too many digits (`toEntry_eq_ok_iff`).

Entries whose balances may be written come back from what is sent, in their order, and an entry that was
received can be sent again, its name unchanged, text or not, and its balances without zeros in front
(`entries_round_trip`).

## Main Definitions

* `Json.Holds` — a JSON value holds an entry.
* `WireEntry.Short`, `WireEntry.counted` — what matters of the balances of an entry.
* `Json.Delivers` — the entry that is received from a JSON value.
-/

namespace SumTree

/-! ### What passes the check of an entry -/

/-- A JSON object with a string as the username and plain decimal numerals as the balances. -/
structure Json.Holds (v : Json) (wire : WireEntry) : Prop where
  object : ∃ members, v = .obj members
  username : v.get? "username" = some wire.username.json
  balances : ∃ items, v.get? "balances" = some (.arr items) ∧
    List.Forall₂ (fun item b => Check.textOf? item = some b) items wire.balances
  plain : ∀ b ∈ wire.balances, Decimal.isPlain b = true

namespace WireEntry

/-- No balance has more digits than may be read. -/
def Short (wire : WireEntry) : Prop :=
  ∀ b ∈ wire.balances, b.toList.length ≤ Decimal.maxDigits

/-- The entry of the numbers that plain balances write. -/
def counted (wire : WireEntry) : ReceivedEntry :=
  ⟨wire.username, wire.balances.map fun b => Decimal.ofDigits b.toList⟩

theorem checkName_eq_ok_iff {v : Json} {name : WireName} :
    checkName v = .ok name ↔ v = name.json := by
  constructor
  · intro h
    cases v with
    | str s =>
        cases h
        rfl
    | unpaired points =>
        cases h
        rfl
    | _ => cases h
  · rintro rfl
    exact checkName_json name

theorem plainBalances_eq_ok_iff {texts texts' : List String} :
    plainBalances texts = .ok texts' ↔
      texts = texts' ∧ ∀ b ∈ texts, Decimal.isPlain b = true := by
  constructor
  · intro h
    unfold plainBalances at h
    split at h
    · cases h
    · rename_i hnone
      cases h
      refine ⟨rfl, fun b hb => ?_⟩
      simpa using List.find?_eq_none.mp hnone b hb
  · rintro ⟨rfl, hplain⟩
    exact plainBalances_eq hplain

theorem text_eq_ok_iff {v : Json} {s : String} :
    Check.text v = .ok s ↔ Check.textOf? v = some s := by
  unfold Check.text
  cases Check.textOf? v with
  | none =>
      constructor
      · intro h
        cases h
      · intro h
        cases h
  | some s' => simp

theorem checkBalances_eq_ok_iff {v : Json} {texts : List String} :
    checkBalances v = .ok texts ↔
      (∃ items, v = .arr items ∧
        List.Forall₂ (fun item b => Check.textOf? item = some b) items texts) ∧
      ∀ b ∈ texts, Decimal.isPlain b = true := by
  unfold checkBalances
  constructor
  · intro h
    obtain ⟨read, hread, h⟩ := exists_of_bind_eq_ok h
    obtain ⟨rfl, hplain⟩ := plainBalances_eq_ok_iff.mp h
    cases v with
    | arr items =>
        have hitems := Checked.forall₂_of_items hread
        exact ⟨⟨items, rfl, hitems.imp fun _ _ => text_eq_ok_iff.mp⟩, hplain⟩
    | _ => cases hread
  · rintro ⟨⟨items, rfl, hitems⟩, hplain⟩
    have hread : Check.list Check.text (.arr items) = .ok texts :=
      items_eq_ok (hitems.imp fun _ _ => text_eq_ok_iff.mpr) 0
    rw [hread]
    exact plainBalances_eq hplain

theorem required_eq_ok_iff {α : Type} {check : Json → Checked α} {record : Json} {name : String}
    {a : α} : Check.required record name check = .ok a ↔
      ∃ member, record.get? name = some member ∧ check member = .ok a := by
  refine ⟨Check.exists_of_required, ?_⟩
  rintro ⟨member, hmember, hcheck⟩
  rw [Check.required, Checked.under_eq_ok_iff, hmember]
  exact hcheck

/-- An entry passes its check exactly when it is held by the value. -/
theorem check_eq_ok_iff {v : Json} {wire : WireEntry} : check v = .ok wire ↔ v.Holds wire := by
  have hfields : ∀ members, check (.obj members) = .ok wire ↔
      Check.required (.obj members) "username" checkName = .ok wire.username ∧
        Check.required (.obj members) "balances" checkBalances = .ok wire.balances := by
    intro members
    change (Checked.both _ _).map _ = _ ↔ _
    rw [map_eq_ok_iff]
    constructor
    · rintro ⟨p, hp, rfl⟩
      exact Checked.both_eq_ok_iff.mp hp
    · intro h
      exact ⟨(wire.username, wire.balances), Checked.both_eq_ok_iff.mpr h, rfl⟩
  constructor
  · intro h
    cases v with
    | obj members =>
        obtain ⟨hname, hbalances⟩ := (hfields members).mp h
        obtain ⟨name, hfound, hname⟩ := required_eq_ok_iff.mp hname
        obtain rfl := checkName_eq_ok_iff.mp hname
        obtain ⟨found, hfound', hbalances⟩ := required_eq_ok_iff.mp hbalances
        obtain ⟨⟨items, rfl, hitems⟩, hplain⟩ := checkBalances_eq_ok_iff.mp hbalances
        exact ⟨⟨members, rfl⟩, hfound, ⟨items, hfound', hitems⟩, hplain⟩
    | _ => cases h
  · rintro ⟨⟨members, rfl⟩, hfound, ⟨items, hfound', hitems⟩, hplain⟩
    refine (hfields members).mpr ⟨required_eq_ok_iff.mpr ⟨_, hfound, ?_⟩,
      required_eq_ok_iff.mpr ⟨.arr items, hfound', ?_⟩⟩
    · exact checkName_json wire.username
    · exact checkBalances_eq_ok_iff.mpr ⟨⟨items, rfl, hitems⟩, hplain⟩

/-- Plain balances are read unless one of them has too many digits. -/
theorem toEntry_eq_ok_iff {wire : WireEntry} (hplain : ∀ b ∈ wire.balances, Decimal.isPlain b = true)
    {e : ReceivedEntry} : wire.toEntry = .ok e ↔ wire.Short ∧ e = wire.counted := by
  unfold toEntry
  rw [map_eq_ok_iff]
  constructor
  · rintro ⟨read, hread, rfl⟩
    obtain ⟨hshort, rfl⟩ := (Entry.ofNumerals_eq_ok_iff hplain).mp hread
    exact ⟨hshort, rfl⟩
  · rintro ⟨hshort, rfl⟩
    exact ⟨_, (Entry.ofNumerals_eq_ok_iff hplain).mpr ⟨hshort, rfl⟩, rfl⟩

/-- The number of digits is all that can be wrong with plain balances. -/
theorem fault_of_toEntry {wire : WireEntry} (hplain : ∀ b ∈ wire.balances, Decimal.isPlain b = true)
    {fault : ValueFault} (h : wire.toEntry = .error fault) : ∃ n, fault = .tooLongToRead n := by
  unfold toEntry at h
  cases hread : Entry.ofNumerals wire.username.shown wire.balances with
  | ok read =>
      rw [hread] at h
      cases h
  | error found =>
      rw [hread] at h
      cases h
      obtain ⟨text, -, -, rfl⟩ := Entry.fault_of_ofNumerals hplain hread
      exact ⟨text.toList.length, rfl⟩

theorem fits_counted {wire : WireEntry} (hplain : ∀ b ∈ wire.balances, Decimal.isPlain b = true)
    (hshort : wire.Short) : ∀ b ∈ wire.counted.shownEntry.amounts, Decimal.fits b = true := by
  intro b hb
  obtain ⟨n, hn, rfl⟩ := List.mem_map.mp hb
  obtain ⟨text, htext, rfl⟩ := List.mem_map.mp hn
  exact Decimal.fits_of_digits (Decimal.isPlain_iff.mp (hplain text htext)).2
    (hshort text htext) false

/-- An entry that was received is sent with its balances without zeros in front. -/
theorem wire_counted {wire : WireEntry} (hplain : ∀ b ∈ wire.balances, Decimal.isPlain b = true) :
    wire.counted.wire = ⟨wire.username, wire.balances.map Decimal.trimmed⟩ := by
  have hshown : wire.counted.shownEntry.shown = wire.balances.map Decimal.trimmed := by
    rw [Entry.shown, Entry.amounts, ReceivedEntry.shownEntry, counted, List.map_map, List.map_map]
    exact List.map_congr_left fun b hb => Decimal.render_ofDigits (hplain b hb)
  rw [ReceivedEntry.wire, hshown]
  rfl

end WireEntry

/-! ### Both ways around -/

/-- From a JSON value that passes the check of an entry this entry is received. -/
def Json.Delivers (v : Json) (e : ReceivedEntry) : Prop :=
  ∃ wire, WireEntry.check v = .ok wire ∧ wire.toEntry = .ok e

namespace Wire

theorem delivers_wire {e : ReceivedEntry} (h : ∀ b ∈ e.shownEntry.amounts, Decimal.fits b = true) :
    e.wire.toJson.Delivers e :=
  ⟨e.wire, e.check_wire, e.toEntry_wire h⟩

/-- Entries have a wire form exactly when all their balances may be written. -/
theorem encodeEntries_eq_ok_iff {entries : List Entry} {body : List WireEntry} :
    encodeEntries entries = .ok body ↔
      (∀ e ∈ entries, ∀ b ∈ e.amounts, Decimal.fits b = true) ∧ body = entries.map Entry.wire := by
  constructor
  · intro h
    have hfits : ∀ e ∈ entries, ∀ b ∈ e.amounts, Decimal.fits b = true := by
      intro e he b hb
      obtain ⟨wire, hwire⟩ := exists_of_mem_mapM h he
      obtain ⟨texts, htexts, -⟩ := exists_of_bind_eq_ok hwire
      obtain ⟨text, htext⟩ := exists_of_mem_mapM htexts hb
      exact (Decimal.of_text_eq_ok htext).1
    rw [encodeEntries_of_fits hfits] at h
    cases h
    exact ⟨hfits, rfl⟩
  · rintro ⟨hfits, rfl⟩
    exact encodeEntries_of_fits hfits

/-- The balances of an entry may be written exactly when none of them has too many digits. -/
theorem fits_amounts_iff {e : Entry} :
    (∀ b ∈ e.amounts, Decimal.fits b = true) ↔
      ∀ b ∈ e.balances, (Nat.digits 10 b).length ≤ Decimal.maxDigits := by
  rw [Entry.amounts, List.forall_mem_map]
  exact forall₂_congr fun b _ => Decimal.fits_natCast_iff

/-- Nothing is lost between entries and their wire form. Entries are encoded exactly when none of their
balances has more digits than may be written, and from the encoded values the very entries are received,
in their order. Whatever is received from a value can be encoded again: the name stays as it was, text or
not, the balances are the numerals that were read without zeros in front, and the same is received from
that. No value that passes the check of an entry has a negative balance. -/
theorem entries_round_trip :
    (∀ entries : List Entry,
      ((∃ body, encodeEntries entries = .ok body) ↔
        ∀ e ∈ entries, ∀ b ∈ e.balances, (Nat.digits 10 b).length ≤ Decimal.maxDigits) ∧
      ∀ body, encodeEntries entries = .ok body →
        List.Forall₂ Json.Delivers (body.map WireEntry.toJson) (entries.map Entry.received)) ∧
    (∀ (v : Json) (wire : WireEntry) (e : ReceivedEntry),
      WireEntry.check v = .ok wire → wire.toEntry = .ok e →
      ∃ again, e.toWire = .ok again ∧
        again.username = wire.username ∧
        again.balances = wire.balances.map Decimal.trimmed ∧
        again.toJson.Delivers e) ∧
    ∀ (v : Json) (wire : WireEntry), WireEntry.check v = .ok wire →
      ∀ name balance, wire.toEntry ≠ .error (.negativeBalance name balance) := by
  refine ⟨fun entries => ⟨?_, fun body hbody => ?_⟩, fun v wire e hcheck hentry => ?_, ?_⟩
  · rw [← forall₂_congr fun e _ => fits_amounts_iff]
    constructor
    · rintro ⟨body, hbody⟩
      exact (encodeEntries_eq_ok_iff.mp hbody).1
    · exact fun hfits => ⟨_, encodeEntries_of_fits hfits⟩
  · obtain ⟨hfits, rfl⟩ := encodeEntries_eq_ok_iff.mp hbody
    rw [List.map_map, List.forall₂_map_left_iff, List.forall₂_map_right_iff, List.forall₂_same]
    exact fun e he => delivers_wire (e := e.received) (hfits e he)
  · have hplain := (WireEntry.check_eq_ok_iff.mp hcheck).plain
    obtain ⟨hshort, rfl⟩ := (WireEntry.toEntry_eq_ok_iff hplain).mp hentry
    have hfits := WireEntry.fits_counted hplain hshort
    refine ⟨wire.counted.wire, wire.counted.toWire_of_fits hfits, rfl, ?_, delivers_wire hfits⟩
    rw [WireEntry.wire_counted hplain]
  · intro v wire hcheck name balance hnegative
    obtain ⟨n, hfault⟩ :=
      WireEntry.fault_of_toEntry (WireEntry.check_eq_ok_iff.mp hcheck).plain hnegative
    cases hfault

end Wire

namespace Sample

/-- A value with zeros in front of its balances and a member that no entry has. -/
def padded : Json :=
  .obj [("balances", .arr [.str "007", .str "00"]), ("username", .str "a"), ("note", .null)]

end Sample

/-- One zero is kept of zeros alone. -/
theorem Wire.entries_round_trip_padded :
    WireEntry.check Sample.padded = .ok ⟨.text "a", ["007", "00"]⟩ ∧
    WireEntry.toEntry ⟨.text "a", ["007", "00"]⟩ = .ok ⟨.text "a", [7, 0]⟩ ∧
    ∃ again, ReceivedEntry.toWire ⟨.text "a", [7, 0]⟩ = .ok again ∧
      again = ⟨.text "a", ["7", "0"]⟩ ∧ again.toJson.Delivers ⟨.text "a", [7, 0]⟩ := by
  have hcheck : WireEntry.check Sample.padded = .ok ⟨.text "a", ["007", "00"]⟩ := by
    decide +kernel
  have hentry : WireEntry.toEntry ⟨.text "a", ["007", "00"]⟩ = .ok ⟨.text "a", [7, 0]⟩ := by
    decide +kernel
  obtain ⟨again, hsent, hname, hbalances, hback⟩ :=
    entries_round_trip.2.1 Sample.padded _ _ hcheck hentry
  refine ⟨hcheck, hentry, again, hsent, ?_, hback⟩
  have htrimmed : ["007", "00"].map Decimal.trimmed = ["7", "0"] := by
    decide +kernel
  rw [WireEntry.mk.injEq]
  exact ⟨hname, hbalances.trans htrimmed⟩

end SumTree
