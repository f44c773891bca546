import SumTree.Proofs.Json.Limits
import SumTree.Proofs.Tree.Halves
import SumTree.Proofs.Wire.Entry
import SumTree.Proofs.Worker.Agreement

/-!
# How a worker answers

A worker that is sent a body in UTF-8 answers by a tree when the body lists entries of one number of
columns, says so when their numbers of columns differ, and refuses everything else
(`Response.AsDocumented`).

Seven things stand in the way (`Request.Obstructed`): a body is too large, its bytes are no text, its
values nest too deeply, a number in it has too many digits, a balance has too many digits, a username is
no Unicode text, and sums have too many digits to be hashed. A request is answered as documented, or one
of these things stands in the way, and never both (`Worker.answers_as_documented`).

## Main Definitions

* `Request.IsPosted`, `Request.Holds`, `Request.Lists` — a request, the value and the entries in it.
* `WireEntry.OneWidth` — entries of one number of columns.
* `WireEntry.Hashable` — entries that can be hashed.
* `Response.AsDocumented` — the answer that is due to a request.
* `Request.Obstructed` — what else becomes of a request.
-/

namespace SumTree

/-! ### Entries of a body -/

/-- Entries of one number of columns. -/
def WireEntry.OneWidth (wires : List WireEntry) : Prop :=
  ∀ wire ∈ wires, ∀ wire' ∈ wires, wire.balances.length = wire'.balances.length

/-- Entries that can be hashed: all names are texts, and the sums of both halves can be written. -/
def WireEntry.Hashable (wires : List WireEntry) : Prop :=
  ∃ entries, wires.map counted = entries.map Entry.received ∧ Entry.HalvesFit entries

theorem Entry.received_injective : Function.Injective Entry.received := by
  rintro ⟨name, balances⟩ ⟨name', balances'⟩ h
  cases h
  rfl

theorem WireEntry.Hashable.halvesFit {wires : List WireEntry} (h : Hashable wires)
    {entries : List Entry} (hentries : wires.map counted = entries.map Entry.received) :
    Entry.HalvesFit entries := by
  obtain ⟨entries', hentries', hfits⟩ := h
  obtain rfl := List.map_injective_iff.mpr Entry.received_injective (hentries'.symm.trans hentries)
  exact hfits

theorem WireEntry.Hashable.ne_unpaired {wires : List WireEntry} (h : Hashable wires)
    {wire : WireEntry} (hwire : wire ∈ wires) (points : List Nat) :
    wire.username ≠ .unpaired points := by
  obtain ⟨entries, hentries, -⟩ := h
  have hmem : wire.counted ∈ entries.map Entry.received := hentries ▸ List.mem_map_of_mem hwire
  obtain ⟨e, -, he⟩ := List.mem_map.mp hmem
  rw [show wire.username = .text e.username from congrArg ReceivedEntry.username he.symm]
  exact WireName.noConfusion

namespace Worker

/-- An entry of a request is read exactly when one of short balances is held by the value. -/
theorem readEntry_eq_ok_iff {item : Json} {e : ReceivedEntry} :
    readEntry item = .ok e ↔ ∃ wire, item.Holds wire ∧ wire.Short ∧ e = wire.counted := by
  unfold readEntry
  constructor
  · intro h
    cases hcheck : WireEntry.check item with
    | error issues =>
        rw [hcheck] at h
        cases h
    | ok wire =>
        rw [hcheck] at h
        have hholds := WireEntry.check_eq_ok_iff.mp hcheck
        exact ⟨wire, hholds,
          (WireEntry.toEntry_eq_ok_iff hholds.plain).mp (mapError_eq_ok_iff.mp h)⟩
  · rintro ⟨wire, hholds, hshort⟩
    rw [WireEntry.check_eq_ok_iff.mpr hholds]
    exact mapError_eq_ok_iff.mpr ((WireEntry.toEntry_eq_ok_iff hholds.plain).mpr hshort)

/-- The entries of a request are read exactly when each of them is held and short. -/
theorem readEntries_eq_ok_iff {items : List Json} {received : List ReceivedEntry} :
    items.mapM readEntry = .ok received ↔ ∃ wires, List.Forall₂ Json.Holds items wires ∧
      (∀ wire ∈ wires, wire.Short) ∧ received = wires.map WireEntry.counted := by
  rw [mapM_eq_ok_iff]
  constructor
  · intro h
    induction h with
    | nil => exact ⟨[], .nil, by simp, rfl⟩
    | cons hhere _ ih =>
        obtain ⟨wires, hholds, hshort, rfl⟩ := ih
        obtain ⟨wire, hholds₁, hshort₁, rfl⟩ := readEntry_eq_ok_iff.mp hhere
        exact ⟨wire :: wires, .cons hholds₁ hholds, List.forall_mem_cons.mpr ⟨hshort₁, hshort⟩, rfl⟩
  · rintro ⟨wires, hholds, hshort, rfl⟩
    induction hholds with
    | nil => exact .nil
    | cons hhere _ ih =>
        obtain ⟨hshort₁, hshort⟩ := List.forall_mem_cons.mp hshort
        exact .cons (readEntry_eq_ok_iff.mpr ⟨_, hhere, hshort₁, rfl⟩) (ih hshort)

end Worker

/-! ### Requests and what is due to them -/

namespace Request

/-- A request that is posted to the root, its body in UTF-8. -/
structure IsPosted (r : Request) : Prop where
  method : r.method = "POST"
  target : r.target = "/"
  charset : charsetLabel r.contentType = "" ∨
    Charset.ofLabel? (charsetLabel r.contentType) = some .utf8

/-- The body of a request is a JSON text of a value. -/
def Holds (r : Request) (v : Json) : Prop :=
  ∃ text, Utf8.decode? r.body = some text ∧ Json.read Worker.dialect text = .ok v

/-- The body of a request is a JSON text of an array that holds some entries and nothing else. -/
def Lists (r : Request) (wires : List WireEntry) : Prop :=
  ∃ items, r.Holds (.arr items) ∧ items ≠ [] ∧ List.Forall₂ Json.Holds items wires

variable {r : Request}

theorem Holds.eq {v v' : Json} (h : r.Holds v) (h' : r.Holds v') : v = v' := by
  obtain ⟨text, htext, hread⟩ := h
  obtain ⟨text', htext', hread'⟩ := h'
  rw [htext] at htext'
  cases htext'
  rw [hread] at hread'
  cases hread'
  rfl

theorem eq_of_forall₂_holds {items : List Json} {wires wires' : List WireEntry}
    (h : List.Forall₂ Json.Holds items wires) (h' : List.Forall₂ Json.Holds items wires') :
    wires = wires' := by
  have hread := mapM_eq_ok_iff.mpr (h.imp fun _ _ => WireEntry.check_eq_ok_iff.mpr)
  have hread' := mapM_eq_ok_iff.mpr (h'.imp fun _ _ => WireEntry.check_eq_ok_iff.mpr)
  rw [hread] at hread'
  cases hread'
  rfl

/-- The entries of a body are determined by it. -/
theorem Lists.eq {wires wires' : List WireEntry} (h : r.Lists wires) (h' : r.Lists wires') :
    wires = wires' := by
  obtain ⟨items, hbody, -, hitems⟩ := h
  obtain ⟨items', hbody', -, hitems'⟩ := h'
  cases hbody.eq hbody'
  exact eq_of_forall₂_holds hitems hitems'

theorem Lists.plain {wires : List WireEntry} (h : r.Lists wires) :
    ∀ wire ∈ wires, ∀ b ∈ wire.balances, Decimal.isPlain b = true := by
  obtain ⟨items, -, -, hitems⟩ := h
  have hboth : List.Forall₂ (fun item wire => item.Holds wire ∧
      ∀ b ∈ wire.balances, Decimal.isPlain b = true) items wires :=
    hitems.imp fun _ _ hholds => ⟨hholds, hholds.plain⟩
  exact (forall₂_and_right.mp hboth).2

theorem Lists.ne_nil {wires : List WireEntry} (h : r.Lists wires) : wires ≠ [] := by
  obtain ⟨items, -, hne, hitems⟩ := h
  rintro rfl
  cases hitems
  exact hne rfl

end Request

/-- The answer that is due to a request: a tree over entries of one number of columns, a refusal of
entries whose numbers of columns differ, and a refusal of everything else. -/
structure Response.AsDocumented (response : Response) (r : Request) : Prop where
  tree : response.status = 200 ↔ ∃ wires, r.Lists wires ∧ WireEntry.OneWidth wires
  columns : response.status = 422 ↔ ∃ wires, r.Lists wires ∧ ¬ WireEntry.OneWidth wires
  refused : response.status = 400 ↔ ¬ ∃ wires, r.Lists wires

/-- What else becomes of a request, and for what reason. -/
inductive Request.Obstructed (r : Request) : Except Failure Response → Prop
  | size (large : sizeLimit ≤ r.body.length) : Obstructed r (.ok ⟨413, none⟩)
  | bytes (foreign : Utf8.decode? r.body = none) :
      Obstructed r (.error (.elsewhere "UnicodeDecodeError" ""))
  | nesting {text : String} (decoded : Utf8.decode? r.body = some text)
      (deep : Json.read Worker.dialect text = .error .tooDeep) :
      Obstructed r (.error (.elsewhere "RecursionError" ""))
  | integer {text : String} {digits : Nat} (decoded : Utf8.decode? r.body = some text)
      (long : Json.read Worker.dialect text = .error (.tooLong digits)) :
      Obstructed r (.error (.value (.tooLongToRead digits)))
  | balance {wires : List WireEntry} (reason : String) (lists : r.Lists wires)
      (long : ¬ ∀ wire ∈ wires, wire.Short) : Obstructed r (.ok (.refusal 400 reason))
  | name {wires : List WireEntry} (lists : r.Lists wires) (oneWidth : WireEntry.OneWidth wires)
      (unpaired : ∃ wire ∈ wires, ∃ points, wire.username = .unpaired points) :
      Obstructed r (.error (.elsewhere "UnicodeEncodeError" ""))
  | sums {wires : List WireEntry} {entries : List Entry} (lists : r.Lists wires)
      (oneWidth : WireEntry.OneWidth wires)
      (named : wires.map WireEntry.counted = entries.map Entry.received)
      (long : ¬ Entry.HalvesFit entries) :
      Obstructed r (.error (.value .tooLongToWrite))

namespace Response

variable {r : Request} {response : Response} {wires : List WireEntry}

/-- Whatever has the status that is due is as documented. -/
theorem asDocumented_of_tree (hstatus : response.status = 200) (hlists : r.Lists wires)
    (hwidth : WireEntry.OneWidth wires) : response.AsDocumented r where
  tree := iff_of_true hstatus ⟨wires, hlists, hwidth⟩
  columns := by
    refine iff_of_false (by omega) ?_
    rintro ⟨wires', hlists', hwidth'⟩
    rw [hlists'.eq hlists] at hwidth'
    exact hwidth' hwidth
  refused := iff_of_false (by omega) fun h => h ⟨wires, hlists⟩

theorem asDocumented_of_columns (hstatus : response.status = 422) (hlists : r.Lists wires)
    (hwidth : ¬ WireEntry.OneWidth wires) : response.AsDocumented r where
  tree := by
    refine iff_of_false (by omega) ?_
    rintro ⟨wires', hlists', hwidth'⟩
    rw [hlists'.eq hlists] at hwidth'
    exact hwidth hwidth'
  columns := iff_of_true hstatus ⟨wires, hlists, hwidth⟩
  refused := iff_of_false (by omega) fun h => h ⟨wires, hlists⟩

theorem asDocumented_of_refusal (hstatus : response.status = 400) (hlists : ¬ ∃ wires, r.Lists wires) :
    response.AsDocumented r where
  tree := iff_of_false (by omega) fun ⟨wires, h, _⟩ => hlists ⟨wires, h⟩
  columns := iff_of_false (by omega) fun ⟨wires, h, _⟩ => hlists ⟨wires, h⟩
  refused := iff_of_true hstatus hlists

/-- An answer that is as documented has one of three statuses. -/
theorem AsDocumented.status (h : response.AsDocumented r) :
    response.status = 200 ∨ response.status = 422 ∨ response.status = 400 := by
  by_cases hlists : ∃ wires, r.Lists wires
  · obtain ⟨wires, hlists⟩ := hlists
    by_cases hwidth : WireEntry.OneWidth wires
    · exact .inl (h.tree.mpr ⟨wires, hlists, hwidth⟩)
    · exact .inr (.inl (h.columns.mpr ⟨wires, hlists, hwidth⟩))
  · exact .inr (.inr (h.refused.mpr hlists))

/-- What stands in the way of an answer leaves none that is as documented. -/
theorem AsDocumented.not_obstructed (h : response.AsDocumented r) :
    ¬ r.Obstructed (.ok response) := by
  intro hobstructed
  cases hobstructed with
  | size large => exact absurd h.status (by decide)
  | balance reason lists long => exact h.refused.mp rfl ⟨_, lists⟩

end Response

/-- Whether something stands in the way decides how a request is answered. -/
structure Request.AnsweredBy (r : Request) (reply : Except Failure Response) : Prop where
  documented : ¬ (∃ reply', r.Obstructed reply') →
    ∃ response, reply = .ok response ∧ response.AsDocumented r
  obstructed : (∃ reply', r.Obstructed reply') →
    r.Obstructed reply ∧ ¬ ∃ response, reply = .ok response ∧ response.AsDocumented r

namespace Request

variable {r : Request} {reply : Except Failure Response} {response : Response}

theorem answeredBy_of_obstructed (h : r.Obstructed reply) : r.AnsweredBy reply where
  documented hfree := absurd ⟨reply, h⟩ hfree
  obstructed _ := by
    refine ⟨h, ?_⟩
    rintro ⟨response, rfl, hdocumented⟩
    exact hdocumented.not_obstructed h

theorem answeredBy_of_documented (hfree : ¬ ∃ reply', r.Obstructed reply')
    (h : response.AsDocumented r) : r.AnsweredBy (.ok response) where
  documented _ := ⟨response, rfl, h⟩
  obstructed hobstructed := absurd hobstructed hfree

/-- Nothing stands in the way of a text of moderate size without numbers of too many digits, if the
entries in it are short and can be hashed. -/
theorem not_obstructed {text : String} (hsmall : ¬ sizeLimit ≤ r.body.length)
    (hdecoded : Utf8.decode? r.body = some text)
    (hread : (∃ complaint, Json.read Worker.dialect text = .error (.malformed complaint)) ∨
      ∃ v, Json.read Worker.dialect text = .ok v)
    (hlists : ∀ wires, r.Lists wires → (∀ wire ∈ wires, wire.Short) ∧
      (WireEntry.OneWidth wires → WireEntry.Hashable wires)) :
    ¬ ∃ reply, r.Obstructed reply := by
  rintro ⟨reply, hobstructed⟩
  cases hobstructed with
  | size large => exact hsmall large
  | bytes foreign =>
      rw [hdecoded] at foreign
      cases foreign
  | nesting decoded deep =>
      rw [hdecoded] at decoded
      cases decoded
      rcases hread with ⟨complaint, hread⟩ | ⟨v, hread⟩
      · rw [hread] at deep
        cases deep
      · rw [hread] at deep
        cases deep
  | integer decoded long =>
      rw [hdecoded] at decoded
      cases decoded
      rcases hread with ⟨complaint, hread⟩ | ⟨v, hread⟩
      · rw [hread] at long
        cases long
      · rw [hread] at long
        cases long
  | balance reason lists long => exact long (hlists _ lists).1
  | name lists oneWidth unpaired =>
      obtain ⟨wire, hwire, points, hpoints⟩ := unpaired
      exact ((hlists _ lists).2 oneWidth).ne_unpaired hwire points hpoints
  | sums lists oneWidth named long => exact long (((hlists _ lists).2 oneWidth).halvesFit named)

end Request

/-! ### Answers -/

/-- A digest that is made of a payload is a value of the hash function. -/
theorem Hasher.ne_nil_of_payload {hash : List UInt8 → Digest} (h : ∀ data, hash data ≠ [])
    {payload : Except ValueFault Json} {digest : Digest}
    (hdigest : Except.mapError TreeFault.value (do
      let bytes ← payloadBytes (← payload)
      return hash bytes) = .ok digest) : digest ≠ [] := by
  obtain ⟨value, -, hdigest⟩ := exists_of_bind_eq_ok (mapError_eq_ok_iff.mp hdigest)
  obtain ⟨data, -, hdigest⟩ := exists_of_bind_eq_ok hdigest
  cases hdigest
  exact h data

/-- A hash function without empty digests makes a hasher without them. -/
theorem Hasher.neverEmpty_payloads {hash : List UInt8 → Digest} (h : ∀ data, hash data ≠ []) :
    (payloads hash).NeverEmpty where
  leaf hdigest := ne_nil_of_payload h hdigest
  combine hdigest := ne_nil_of_payload h hdigest

theorem Sha256.digest_ne_nil (message : List UInt8) : digest message ≠ [] := by
  rw [digest]
  exact List.cons_ne_nil _ _

namespace Worker

open Request

variable {r : Request} {wires : List WireEntry} {policy : OddPolicy}

/-- The entries of short balances have as many columns as there are balances. -/
theorem oneWidth_iff {first : WireEntry} {rest : List WireEntry} :
    WireEntry.OneWidth (first :: rest) ↔
      ∀ e ∈ (first :: rest).map WireEntry.counted, e.width = first.counted.width := by
  have hwidth : ∀ wire : WireEntry, wire.counted.width = wire.balances.length :=
    fun wire => List.length_map _
  simp only [List.forall_mem_map, hwidth]
  constructor
  · intro h wire hwire
    exact h wire hwire first List.mem_cons_self
  · intro h wire hwire wire' hwire'
    rw [h wire hwire, h wire' hwire']

theorem fits_counted (hshort : ∀ wire ∈ wires, wire.Short)
    (hplain : ∀ wire ∈ wires, ∀ b ∈ wire.balances, Decimal.isPlain b = true) :
    ∀ e ∈ wires.map WireEntry.counted, ∀ b ∈ e.shownEntry.amounts, Decimal.fits b = true := by
  rw [List.forall_mem_map]
  exact fun wire hwire => WireEntry.fits_counted (hplain wire hwire) (hshort wire hwire)

/-- A name that is no text keeps a worker from building a tree. -/
theorem build_of_unpaired {received : List ReceivedEntry}
    (hfits : ∀ e ∈ received, ∀ b ∈ e.shownEntry.amounts, Decimal.fits b = true)
    {e : ReceivedEntry} (he : e ∈ received) {points : List Nat}
    (hpoints : e.username = .unpaired points) :
    (Worker.mk .sha256 policy).build received = .error (.elsewhere "UnicodeEncodeError" "") := by
  obtain ⟨leaves, hleaves⟩ := exists_leavesOf Sha256.digest
    (fun entry hentry => hfits _ (ReceivedEntry.received_mem_of_mem_named hentry))
  unfold build
  rw [if_pos (ReceivedEntry.length_named_lt he hpoints), Hasher.sha256, hleaves]

/-- Entries of one number of columns are answered by their tree unless they cannot be hashed. -/
theorem answeredBy_build (hlists : r.Lists wires) (hshort : ∀ wire ∈ wires, wire.Short)
    (hwidth : WireEntry.OneWidth wires)
    (hfree : WireEntry.Hashable wires → ¬ ∃ reply, r.Obstructed reply) :
    (∃ t body, (Worker.mk .sha256 policy).build (wires.map WireEntry.counted) = .ok t ∧
      Wire.encodeTree t = .ok body ∧ r.AnsweredBy (.ok ⟨200, some body⟩)) ∨
    ∃ failure, (Worker.mk .sha256 policy).build (wires.map WireEntry.counted) = .error failure ∧
      r.AnsweredBy (.error failure) := by
  have hfits := fits_counted hshort hlists.plain
  by_cases hunpaired : ∃ wire ∈ wires, ∃ points, wire.username = .unpaired points
  · obtain ⟨wire, hwire, points, hpoints⟩ := hunpaired
    exact .inr ⟨_, build_of_unpaired hfits (List.mem_map_of_mem hwire) hpoints,
      answeredBy_of_obstructed (.name hlists hwidth ⟨wire, hwire, points, hpoints⟩)⟩
  · push Not at hunpaired
    have hnamed : (ReceivedEntry.named (wires.map WireEntry.counted)).map Entry.received =
        wires.map WireEntry.counted :=
      ReceivedEntry.map_received_named (List.forall_mem_map.mpr hunpaired)
    generalize ReceivedEntry.named (wires.map WireEntry.counted) = entries at hnamed
    obtain ⟨first, rest, rfl⟩ := List.exists_cons_of_ne_nil hlists.ne_nil
    have hne : entries ≠ [] := by
      rintro rfl
      cases hnamed
    have hwidths : ∀ e ∈ entries, e.width = first.counted.width := by
      intro e he
      exact oneWidth_iff.mp hwidth e.received (hnamed ▸ List.mem_map_of_mem he)
    have hentries : ∀ e ∈ entries, ∀ b ∈ e.amounts, Decimal.fits b = true := by
      intro e he
      exact hfits e.received (hnamed ▸ List.mem_map_of_mem he)
    rw [← hnamed, Worker.build_received]
    rcases MiniTree.build_cases Sha256.digest policy hne hwidths hentries with
      ⟨hhalves, t, hbuild⟩ | ⟨hlong, hbuild⟩
    · have hwritable := MiniTree.writable_of_build
        (Hasher.neverEmpty_payloads Sha256.digest_ne_nil) hbuild
      refine .inl ⟨t, _, mapError_eq_ok_iff.mpr hbuild, Wire.encodeTree_eq hwritable, ?_⟩
      exact answeredBy_of_documented (hfree ⟨entries, hnamed.symm, hhalves⟩)
        (Response.asDocumented_of_tree rfl hlists hwidth)
    · refine .inr ⟨.value .tooLongToWrite, ?_, ?_⟩
      · rw [Hasher.sha256, hbuild]
        rfl
      · exact answeredBy_of_obstructed (.sums hlists hwidth hnamed.symm hlong)

/-- Entries that are read are answered as documented unless something stands in the way. -/
theorem answeredBy_answerEntries (hlists : r.Lists wires) (hshort : ∀ wire ∈ wires, wire.Short)
    (hfree : (WireEntry.OneWidth wires → WireEntry.Hashable wires) → ¬ ∃ reply, r.Obstructed reply) :
    r.AnsweredBy ((Worker.mk .sha256 policy).answerEntries (wires.map WireEntry.counted)) := by
  obtain ⟨first, rest, rfl⟩ := List.exists_cons_of_ne_nil hlists.ne_nil
  have hhead : ((((first :: rest).map WireEntry.counted).head?.map ReceivedEntry.width).getD 0) =
      first.counted.width := rfl
  unfold answerEntries
  simp only [hhead]
  cases hmisfit : firstMisfit first.counted.width 0
      (((first :: rest).map WireEntry.counted).map ReceivedEntry.width) with
  | some found =>
      have hwidth : ¬ WireEntry.OneWidth (first :: rest) := by
        intro hwidth
        rw [firstMisfit_eq_none_iff.mpr (List.forall_mem_map.mpr (oneWidth_iff.mp hwidth))]
          at hmisfit
        cases hmisfit
      exact answeredBy_of_documented (hfree fun h => absurd h hwidth)
        (Response.asDocumented_of_columns rfl hlists hwidth)
  | none =>
      have hwidth : WireEntry.OneWidth (first :: rest) :=
        oneWidth_iff.mpr (List.forall_mem_map.mp (firstMisfit_eq_none_iff.mp hmisfit))
      dsimp only
      rcases answeredBy_build hlists hshort hwidth fun h => hfree fun _ => h with
        ⟨t, body, hbuild, hbody, hanswered⟩ | ⟨failure, hbuild, hanswered⟩
      · rw [hbuild]
        simp only [hbody]
        exact hanswered
      · rw [hbuild]
        exact hanswered

/-- A JSON body is answered as documented unless something stands in the way. -/
theorem answeredBy_answerBody {v : Json} (hbody : r.Holds v)
    (hfree : (∀ wires, r.Lists wires → (∀ wire ∈ wires, wire.Short) ∧
      (WireEntry.OneWidth wires → WireEntry.Hashable wires)) → ¬ ∃ reply, r.Obstructed reply) :
    r.AnsweredBy ((Worker.mk .sha256 policy).answerBody v) := by
  have hrefusal : ∀ text, (¬ ∃ wires, r.Lists wires) → r.AnsweredBy (.ok (.refusal 400 text)) := by
    intro text hlists
    exact answeredBy_of_documented (hfree fun wires h => absurd ⟨wires, h⟩ hlists)
      (Response.asDocumented_of_refusal rfl hlists)
  have hother : (∀ items, v = .arr items → items = []) → ¬ ∃ wires, r.Lists wires := by
    rintro hempty ⟨wires, items, hbody', hne, -⟩
    exact hne (hempty items (hbody.eq hbody'))
  cases v with
  | arr items =>
      cases items with
      | nil =>
          refine hrefusal _ (hother fun items h => ?_)
          cases h
          rfl
      | cons item items =>
          rw [answerBody.eq_2 _ _ (by simp)]
          cases hreceived : (item :: items).mapM readEntry with
          | error text =>
              dsimp only
              by_cases hlists : ∃ wires, r.Lists wires
              · obtain ⟨wires, hlists⟩ := hlists
                refine answeredBy_of_obstructed (.balance _ hlists fun hshort => ?_)
                obtain ⟨items', hbody', -, hitems⟩ := hlists
                cases hbody.eq hbody'
                rw [readEntries_eq_ok_iff.mpr ⟨wires, hitems, hshort, rfl⟩] at hreceived
                cases hreceived
              · exact hrefusal _ hlists
          | ok received =>
              obtain ⟨wires, hitems, hshort, rfl⟩ := readEntries_eq_ok_iff.mp hreceived
              have hlists : r.Lists wires := ⟨_, hbody, List.cons_ne_nil item items, hitems⟩
              refine answeredBy_answerEntries hlists hshort fun hwires => hfree ?_
              intro wires' hlists'
              rw [hlists'.eq hlists]
              exact ⟨hshort, hwires⟩
  | _ => exact hrefusal _ (hother fun items h => by cases h)

/-- The text of a body of moderate size is answered as documented unless something stands in the
way. -/
theorem answeredBy_answerText {text : String} (hsmall : ¬ sizeLimit ≤ r.body.length)
    (hdecoded : Utf8.decode? r.body = some text) :
    r.AnsweredBy ((Worker.mk .sha256 policy).answerText text) := by
  have hfree := not_obstructed hsmall hdecoded
  unfold answerText
  cases hread : Json.read dialect text with
  | ok v => exact answeredBy_answerBody ⟨text, hdecoded, hread⟩ (hfree (.inr ⟨v, hread⟩))
  | error fault =>
      have hnone : ¬ ∃ wires, r.Lists wires := by
        rintro ⟨wires, items, ⟨text', hdecoded', hread'⟩, -, -⟩
        rw [hdecoded] at hdecoded'
        cases hdecoded'
        rw [hread] at hread'
        cases hread'
      cases fault with
      | malformed complaint =>
          exact answeredBy_of_documented
            (hfree (.inl ⟨complaint, hread⟩) fun wires h => absurd ⟨wires, h⟩ hnone)
            (Response.asDocumented_of_refusal rfl hnone)
      | tooDeep => exact answeredBy_of_obstructed (.nesting hdecoded hread)
      | tooLong digits => exact answeredBy_of_obstructed (.integer hdecoded hread)

/-- A request is answered as documented exactly when nothing stands in the way: its body is not too
large and is a text, its values nest not too deeply, no number and no balance in it has too many digits,
and where its entries have one number of columns, their usernames are Unicode text and their sums can be
hashed. Otherwise it is one of these things that decides what becomes of it. -/
theorem answers_as_documented (policy : OddPolicy) {r : Request} (h : r.IsPosted) :
    (¬ (∃ reply, r.Obstructed reply) →
      ∃ response, (Worker.mk .sha256 policy).answer r = .ok response ∧ response.AsDocumented r) ∧
    ((∃ reply, r.Obstructed reply) →
      r.Obstructed ((Worker.mk .sha256 policy).answer r) ∧
        ¬ ∃ response, (Worker.mk .sha256 policy).answer r = .ok response ∧
          response.AsDocumented r) := by
  have hanswered : r.AnsweredBy ((Worker.mk .sha256 policy).answer r) := by
    have hcharset : (if (charsetLabel r.contentType).isEmpty then some Charset.utf8
        else Charset.ofLabel? (charsetLabel r.contentType)) = some .utf8 := by
      rcases h.charset with hlabel | hlabel
      · rw [hlabel]
        rfl
      · rw [hlabel, ite_self]
    unfold answer
    rw [h.target, h.method]
    simp only [bne_self_eq_false, Bool.false_eq_true, if_false, hcharset]
    by_cases hlarge : r.body.length ≥ sizeLimit
    · rw [if_pos hlarge]
      exact answeredBy_of_obstructed (.size hlarge)
    · rw [if_neg hlarge, Charset.decode?]
      cases hdecoded : Utf8.decode? r.body with
      | none => exact answeredBy_of_obstructed (.bytes hdecoded)
      | some text => exact answeredBy_answerText hlarge hdecoded
  exact ⟨hanswered.documented, hanswered.obstructed⟩

end Worker

namespace Sample

/-- Two entries whose numbers of columns differ, one of them with a zero in front of its balance. -/
def uneven : List WireEntry :=
  [⟨.text "a", ["1", "2"]⟩, ⟨.text "b", ["03"]⟩]

/-- A request that lists them. -/
def unevenRequest : Request :=
  .posted (Wire.requestJson uneven).wire

/-- A request of a single byte, which is no text. -/
def foreignByte : Request :=
  ⟨"POST", "/", "application/json", [0xff]⟩

theorem isPosted_unevenRequest : unevenRequest.IsPosted where
  method := rfl
  target := Request.target_posted _
  charset := .inl (Request.charsetLabel_eq_empty (show ';' ∉ "application/json".toList by decide))

theorem decode_unevenRequest :
    Utf8.decode? unevenRequest.body = some (Wire.requestJson uneven).wire :=
  Utf8.decode?_toUTF8 _

theorem read_unevenRequest :
    Json.read Worker.dialect (Wire.requestJson uneven).wire = .ok (Wire.requestJson uneven) := by
  rw [Json.read, Json.wire, String.toList_ofList]
  have hnames : ∀ wire ∈ uneven, ∃ name, wire.username = .text name :=
    List.forall_mem_cons.mpr ⟨⟨"a", rfl⟩, List.forall_mem_singleton.mpr ⟨"b", rfl⟩⟩
  exact Json.readChars_of_spells (Json.spells_wireChars (Wire.legible_requestJson hnames)) (by decide)

theorem lists_unevenRequest : unevenRequest.Lists uneven := by
  refine ⟨uneven.map WireEntry.toJson, ⟨_, decode_unevenRequest, read_unevenRequest⟩, by decide, ?_⟩
  have hplain : ∀ wire ∈ uneven, ∀ b ∈ wire.balances, Decimal.isPlain b = true := by decide
  refine .cons (WireEntry.check_eq_ok_iff.mp ?_) (.cons (WireEntry.check_eq_ok_iff.mp ?_) .nil)
  · exact WireEntry.check_toJson (hplain _ List.mem_cons_self)
  · exact WireEntry.check_toJson (hplain _ (List.mem_cons_of_mem _ List.mem_cons_self))

theorem not_oneWidth_uneven : ¬ WireEntry.OneWidth uneven := by
  unfold WireEntry.OneWidth
  decide

end Sample

namespace Worker

theorem answers_as_documented_uneven :
    Sample.unevenRequest.IsPosted ∧ ∃ response,
      (Worker.mk .sha256 .zeroPad).answer Sample.unevenRequest = .ok response ∧
        response.AsDocumented Sample.unevenRequest ∧ response.status = 422 := by
  have hsmall : ¬ Request.sizeLimit ≤ Sample.unevenRequest.body.length := by
    rw [Sample.unevenRequest, Request.posted, Utf8.toUTF8_toList, Json.wire, String.toList_ofList]
    decide +kernel
  have hfree : ¬ ∃ reply, Sample.unevenRequest.Obstructed reply := by
    refine Request.not_obstructed hsmall Sample.decode_unevenRequest
      (.inr ⟨_, Sample.read_unevenRequest⟩) fun wires hlists => ?_
    rw [hlists.eq Sample.lists_unevenRequest]
    refine ⟨?_, fun h => absurd h Sample.not_oneWidth_uneven⟩
    unfold WireEntry.Short
    decide +kernel
  obtain ⟨response, hanswer, hdocumented⟩ :=
    (answers_as_documented .zeroPad Sample.isPosted_unevenRequest).1 hfree
  exact ⟨Sample.isPosted_unevenRequest, response, hanswer, hdocumented,
    hdocumented.columns.mpr ⟨_, Sample.lists_unevenRequest, Sample.not_oneWidth_uneven⟩⟩

/-- A body that is no text is not answered at all. -/
theorem unanswered_byte :
    Sample.foreignByte.IsPosted ∧ ¬ ∃ response,
      (Worker.mk .sha256 .carryUp).answer Sample.foreignByte = .ok response := by
  have hlabel : Request.charsetLabel "application/json" = "" :=
    Request.charsetLabel_eq_empty (by decide)
  have htarget : Sample.foreignByte.target = "/" := Request.target_posted ""
  refine ⟨⟨rfl, htarget, .inl hlabel⟩, ?_⟩
  rintro ⟨response, h⟩
  unfold answer at h
  rw [htarget] at h
  simp only [Sample.foreignByte, hlabel] at h
  cases h

end Worker

end SumTree
