import SumTree.Proofs.Compose.Outline
import SumTree.Proofs.Number.Decimal

/-!
# Port entries

A port entry can be written in many ways: as a number, as a text with one port or two, with a host in
front and a protocol behind, or as a mapping. All of them give the same mapping of ports
(`portOf_of_spells`), since the digits of a port hold neither a colon nor a slash, so that the splits at
the first slash and at the last colons isolate them whatever the host is. The definition of a service
keeps one mapping for each entry, in order, and nothing else of it depends on the ports
(`ofDocument_eq_ok_iff_ports`).

## Main Definitions

* `Decimal.Writes` — a text of digits that writes a number.
* `ServiceSpec.SpellsNumber`, `ServiceSpec.SpellsPorts` — the ways to write a port and a port entry.
-/

namespace SumTree

namespace Decimal

/-- A text of digits that writes the number `n`, of no more digits than may be read. -/
structure Writes (s : String) (n : Nat) : Prop where
  plain : isPlain s = true
  short : s.toList.length ≤ maxDigits
  value : ofDigits s.toList = n

/-- The text that is written for a number writes it. -/
theorem writes_render {n : Nat} (h : fits n = true) : Writes (render n) n := by
  have hlist : (render n).toList = digits n := by
    rw [render, String.toList_ofList, if_neg (by omega), List.nil_append, Int.natAbs_natCast]
  refine ⟨isPlain_render n, ?_, ?_⟩
  · rw [hlist]
    exact length_digits_of_fits h
  · rw [hlist, ofDigits_digits]

namespace Writes

variable {s : String} {n : Nat}

theorem read_eq (h : Writes s n) : read s = .ok (n : Int) := by
  have hparse : parse s = .ok (n : Int) := by
    rw [parse_of_isPlain h.plain, if_neg (Nat.not_lt.mpr h.short), h.value]
  unfold parse at hparse
  split at hparse
  · cases hparse
    assumption
  · cases hparse
  · cases hparse

theorem notMem (h : Writes s n) (mark : Char) (hmark : Digit.isAscii mark = false) :
    mark ∉ s.toList :=
  fun hmem => ne_of_isAscii ((isPlain_iff.mp h.plain).2 mark hmem) hmark rfl

end Writes

end Decimal

theorem Document.shown_int (n : Int) : (int n).shown = (Decimal.text n).mapError .value := by
  rw [shown, quoted, quotedIn]
  · rintro s ⟨⟩
  · rintro type shown quoted ⟨⟩

namespace ServiceSpec

open Decimal (Writes)

/-! ### Spellings -/

/-- The ways to write a port in a mapping: as a number or as its digits. -/
inductive SpellsNumber (n : Nat) : Document → Prop
  | int : SpellsNumber n (.int n)
  | text {s : String} (h : Writes s n) : SpellsNumber n (.text s)

/-- A host in front of the ports, and its colon. -/
def hostPart : Option String → String
  | none => ""
  | some host => host ++ ":"

/-- A slash behind the ports, and the protocol. -/
def protocolPart : Option String → String
  | none => ""
  | some protocol => "/" ++ protocol

/-- The ways to write a port entry. A host may hold anything but a slash, colons and brackets
included. -/
inductive SpellsPorts (published target : Nat) : Document → Prop
  | mapping {members : List (Document × Document)} {p t : Document}
    (hp : (Document.map members).get? "published" = some p) (hpublished : SpellsNumber published p)
    (ht : (Document.map members).get? "target" = some t) (htarget : SpellsNumber target t) :
    SpellsPorts published target (.map members)
  | pair {p t : String} (hpublished : Writes p published) (htarget : Writes t target)
    (host? protocol? : Option String) (hhost : ∀ host ∈ host?, '/' ∉ host.toList) :
    SpellsPorts published target (.text (hostPart host? ++ p ++ ":" ++ t ++ protocolPart protocol?))
  | number (hsame : target = published) (hfits : Decimal.fits published = true) :
    SpellsPorts published target (.int published)
  | single (hsame : target = published) {p : String} (hpublished : Writes p published)
    (protocol? : Option String) :
    SpellsPorts published target (.text (p ++ protocolPart protocol?))

theorem numberOf_of_spells {n : Nat} {d : Document} (h : SpellsNumber n d) :
    numberOf d = .ok (n : Int) := by
  cases h with
  | int => rfl
  | text h => rw [numberOf, h.read_eq]

/-! ### Splits -/

theorem splitLastColon_append (front : List Char) {back : List Char} (h : ':' ∉ back) :
    splitLastColon (front ++ ':' :: back) = (some front, back) := by
  have htake : (front ++ ':' :: back).reverse.takeWhile (· != ':') = back.reverse := by
    rw [List.reverse_append, List.reverse_cons, List.append_assoc,
      List.takeWhile_append_of_pos (by simpa using fun c hc => ne_of_mem_of_not_mem hc h)]
    simp
  have hlength : (front ++ ':' :: back).length = front.length + 1 + back.length := by
    rw [List.length_append, List.length_cons]
    omega
  have hcut : front.length + 1 + back.length - back.length - 1 = front.length := by omega
  unfold splitLastColon
  rw [htake]
  dsimp only
  rw [List.length_reverse, hlength, if_neg (by simp), hcut, List.take_left, List.reverse_reverse]

theorem splitLastColon_of_notMem {cs : List Char} (h : ':' ∉ cs) :
    splitLastColon cs = (none, cs) := by
  have htake : cs.reverse.takeWhile (· != ':') = cs.reverse :=
    List.takeWhile_eq_self_iff.mpr (by simpa using fun c hc => ne_of_mem_of_not_mem hc h)
  unfold splitLastColon
  rw [htake, if_pos (by simp)]

/-- What stands behind the first slash does not count. -/
theorem takeWhile_protocolPart {cs : List Char} (h : '/' ∉ cs) (protocol? : Option String) :
    (cs ++ (protocolPart protocol?).toList).takeWhile (· != '/') = cs := by
  rw [List.takeWhile_append_of_pos (by simpa using fun c hc => ne_of_mem_of_not_mem hc h)]
  cases protocol? with
  | none => simp [protocolPart]
  | some protocol => simp [protocolPart]

/-! ### Entries -/

/-- Two ports with a colon between them, with whatever stands in front of an earlier colon. -/
theorem portOfText_pair {p t : String} {published target : Nat} (hpublished : Writes p published)
    (htarget : Writes t target) (host? protocol? : Option String)
    (hhost : ∀ host ∈ host?, '/' ∉ host.toList) :
    portOfText (hostPart host? ++ p ++ ":" ++ t ++ protocolPart protocol?) =
      some ⟨published, target⟩ := by
  have hslash : '/' ∉ (hostPart host? ++ p ++ ":" ++ t).toList := by
    have hp := hpublished.notMem '/' rfl
    have ht := htarget.notMem '/' rfl
    cases host? with
    | none => simp [hostPart, hp, ht]
    | some host => simp [hostPart, hp, ht, hhost host rfl]
  -- The last colon stands between the ports, and the last one in front of it behind the host.
  have hports : splitLastColon (hostPart host? ++ p ++ ":" ++ t).toList =
      (some (hostPart host? ++ p).toList, t.toList) := by
    have hsplit := splitLastColon_append (hostPart host? ++ p).toList
      (htarget.notMem ':' rfl)
    rw [← hsplit]
    simp
  have hfront : (splitLastColon (hostPart host? ++ p).toList).2 = p.toList := by
    have hcolon := hpublished.notMem ':' rfl
    cases host? with
    | none =>
        rw [hostPart, String.empty_append, splitLastColon_of_notMem hcolon]
    | some host =>
        have hsplit := splitLastColon_append host.toList hcolon
        simpa [hostPart] using congrArg Prod.snd hsplit
  unfold portOfText
  rw [String.toList_append, takeWhile_protocolPart hslash]
  simp only [hports, hfront, String.ofList_toList, hpublished.read_eq, htarget.read_eq]
  rfl

/-- A single port is published as itself. -/
theorem portOfText_single {p : String} {port : Nat} (h : Writes p port)
    (protocol? : Option String) : portOfText (p ++ protocolPart protocol?) = some ⟨port, port⟩ := by
  unfold portOfText
  rw [String.toList_append, takeWhile_protocolPart (h.notMem '/' rfl)]
  simp only [splitLastColon_of_notMem (h.notMem ':' rfl), String.ofList_toList, h.read_eq]
  rfl

/-- A scalar is read by its text. -/
theorem portOf_of_shown {entry : Document} {text : String} {m : PortMapping}
    (hentry : portOf entry = textOf entry.shown >>= fun text =>
      match portOfText text with
      | some port => pure port
      | none => badPort entry)
    (hshown : entry.shown = .ok text) (h : portOfText text = some m) : portOf entry = .ok m := by
  have htext : textOf entry.shown = .ok text := mapError_eq_ok_iff.mpr hshown
  rw [hentry, htext]
  show (match portOfText text with
    | some port => pure port
    | none => badPort entry) = _
  rw [h]
  rfl

/-- Every spelling of a port entry is read as the ports that it spells. -/
theorem portOf_of_spells {published target : Nat} {entry : Document}
    (h : SpellsPorts published target entry) : portOf entry = .ok ⟨published, target⟩ := by
  cases h with
  | mapping hp hpublished ht htarget =>
      unfold portOf portOfMap
      simp only [hp, ht, numberOf_of_spells hpublished, numberOf_of_spells htarget]
  | pair hpublished htarget host? protocol? hhost =>
      exact portOf_of_shown rfl rfl (portOfText_pair hpublished htarget host? protocol? hhost)
  | number hsame hfits =>
      subst hsame
      have hport := portOfText_single (Decimal.writes_render hfits) none
      rw [protocolPart, String.append_empty] at hport
      have hshown : (Document.int target).shown = .ok (Decimal.render target) := by
        rw [Document.shown_int, Decimal.text_of_fits hfits]
        rfl
      exact portOf_of_shown rfl hshown hport
  | single hsame hpublished protocol? =>
      subst hsame
      exact portOf_of_shown rfl rfl (portOfText_single hpublished protocol?)

/-! ### Entries of a service -/

/-- The outlines of two services that differ in their lists of ports differ in nothing else. -/
theorem outlineOf_of_agree (name : String) {service service' : Document}
    {entries entries' : List Document} (definitions? : Option Document)
    (hagree : ∀ key, key ≠ "ports" → service.get? key = service'.get? key)
    (hports : service.get? "ports" = some (.list entries))
    (hports' : service'.get? "ports" = some (.list entries')) :
    outlineOf name service definitions? =
      outlineOf name service' definitions? >>= fun o => pure { o with ports := entries } := by
  have hitems : ∀ list, itemsOf (.portsForm name) (some (.list list)) = .ok list := fun _ => rfl
  unfold outlineOf
  rw [hagree "image" (by decide), hagree "deploy" (by decide), hagree "networks" (by decide), hports,
    hports', hitems, hitems]
  dsimp only
  split
  · rfl
  · simp only [bind_assoc, pure_bind]
    rfl

/-- The ports of an outline give one mapping each, and nothing else depends on them. -/
theorem Outline.spec_eq_ok_iff_ports {name : String} {o : Outline} {s : ServiceSpec} :
    o.spec name = .ok s ↔ List.Forall₂ (fun e m => portOf e = .ok m) o.ports s.ports ∧
      Outline.spec name { o with ports := [] } = .ok { s with ports := [] } := by
  rw [Outline.spec_eq_ok_iff, Outline.spec_eq_ok_iff, ← mapM_eq_ok_iff]
  constructor
  · rintro ⟨hname, definition, hattachment, himage, hconstraints, hports, hdriver⟩
    exact ⟨hports, hname, definition, hattachment, himage, hconstraints, rfl, hdriver⟩
  · rintro ⟨hports, hname, definition, hattachment, himage, hconstraints, -, hdriver⟩
    exact ⟨hname, definition, hattachment, himage, hconstraints, hports, hdriver⟩

/-- One mapping is kept for each entry of a list of ports, in order, and apart from them the
definition is that of the service with no ports. -/
theorem ofDocument_eq_ok_iff_ports {name : String} {document : Document} {entries : List Document}
    (hports : document.at? ["services", name, "ports"] = some (.list entries)) (s : ServiceSpec) :
    ofDocument name document = .ok s ↔
      List.Forall₂ (fun entry m => portOf entry = .ok m) entries s.ports ∧
        ofDocument name (document.replace ["services", name, "ports"] (.list [])) =
          .ok { s with ports := [] } := by
  obtain ⟨services, hservices, hports⟩ := Option.bind_eq_some_iff.mp hports
  obtain ⟨service, hservice, hports⟩ := Option.bind_eq_some_iff.mp hports
  obtain ⟨part, hpart, hports⟩ := Option.bind_eq_some_iff.mp hports
  cases hports
  obtain ⟨members, rfl⟩ := Document.exists_map_of_get? hpart
  -- Without its ports the service stands where it stood, and the rest of the document with it.
  have hservices' : (document.replace ["services", name, "ports"] (.list [])).get? "services" =
      some (services.replace [name, "ports"] (.list [])) := by
    rw [Document.get?_replace_self, hservices]
    rfl
  have hservice' : (services.replace [name, "ports"] (.list [])).get? name =
      some ((Document.map members).replace ["ports"] (.list [])) := by
    rw [Document.get?_replace_self, hservice]
    rfl
  have hpart' : ((Document.map members).replace ["ports"] (.list [])).get? "ports" =
      some (.list []) := by
    rw [Document.get?_replace_self, hpart]
    rfl
  have hagree : ∀ key, key ≠ "ports" → (Document.map members).get? key =
      ((Document.map members).replace ["ports"] (.list [])).get? key :=
    fun key hkey => (Document.get?_replace_of_ne _ hkey _ _).symm
  have hnetworks : (document.replace ["services", name, "ports"] (.list [])).get? "networks" =
      document.get? "networks" := Document.get?_replace_of_ne _ (by decide) _ _
  have hfull := outlineOf_of_agree name (document.get? "networks") hagree hpart hpart'
  have hbare := outlineOf_of_agree name (document.get? "networks") (fun _ _ => rfl) hpart'
    hpart'
  rw [ofDocument_eq, ofDocument_eq, outline, outline, serviceIn_of_get? hservices hservice,
    serviceIn_of_get? hservices' hservice', hnetworks]
  show outlineOf name (.map members) (document.get? "networks") >>= Outline.spec name = .ok s ↔
    _ ∧ outlineOf name ((Document.map members).replace ["ports"] (.list []))
      (document.get? "networks") >>= Outline.spec name = .ok _
  rw [hfull]
  cases houtline : outlineOf name ((Document.map members).replace ["ports"] (.list []))
      (document.get? "networks") with
  | error failure =>
      constructor
      · rintro ⟨⟩
      · rintro ⟨-, ⟨⟩⟩
  | ok o =>
      rw [houtline] at hbare
      have ho : o = { o with ports := [] } := Except.ok.inj hbare
      show Outline.spec name { o with ports := entries } = .ok s ↔ _ ∧ Outline.spec name o = .ok _
      rw [Outline.spec_eq_ok_iff_ports, ho]

/-- All spellings of a port entry are read as the ports that they spell, and a service keeps the
mappings of its entries one by one, in order. -/
theorem reads_every_spelling :
    (∀ (published target : Nat) (entry : Document), SpellsPorts published target entry →
      portOf entry = .ok ⟨published, target⟩) ∧
    ∀ (name : String) (document : Document) (entries : List Document),
      document.at? ["services", name, "ports"] = some (.list entries) → ∀ s : ServiceSpec,
        (ofDocument name document = .ok s ↔
          List.Forall₂ (fun entry m => portOf entry = .ok m) entries s.ports ∧
            ofDocument name (document.replace ["services", name, "ports"] (.list [])) =
              .ok { s with ports := [] }) :=
  ⟨fun _ _ _ => portOf_of_spells, fun _ _ _ => ofDocument_eq_ok_iff_ports⟩

end ServiceSpec

namespace Sample

/-- Two port entries, the first with a host full of colons. -/
def portEntries : List Document :=
  [.text "[::1]:8080:80/tcp", .map [(.text "target", .text "022"), (.text "published", .int 2222)]]

/-- A document with a service that has those ports. -/
def publishing : Document :=
  .map [(.text "services", .map [(.text "svc",
    .map [(.text "image", .text "worker"), (.text "ports", .list portEntries)])])]

end Sample

/-- A host full of colons, and a numeral with a zero in front. -/
theorem ServiceSpec.reads_every_spelling_bracketed :
    SpellsPorts 8080 80 (.text "[::1]:8080:80/tcp") ∧
    Sample.publishing.at? ["services", "svc", "ports"] = some (.list Sample.portEntries) ∧
    ofDocument "svc" Sample.publishing =
      .ok ⟨"svc", "worker", [], [⟨8080, 80⟩, ⟨2222, 22⟩], "svc", "overlay"⟩ := by
  have hfirst : SpellsPorts 8080 80 (.text "[::1]:8080:80/tcp") :=
    .pair (p := "8080") (t := "80") ⟨by decide, by decide, by decide⟩
      ⟨by decide, by decide, by decide⟩ (some "[::1]") (some "tcp") (by decide)
  have hsecond : SpellsPorts 2222 22
      (.map [(.text "target", .text "022"), (.text "published", .int 2222)]) :=
    .mapping rfl .int rfl (.text ⟨by decide, by decide, by decide⟩)
  have hports : Sample.publishing.at? ["services", "svc", "ports"] =
      some (.list Sample.portEntries) := rfl
  refine ⟨hfirst, hports, ?_⟩
  refine (reads_every_spelling.2 "svc" Sample.publishing Sample.portEntries hports _).mpr ⟨?_, rfl⟩
  exact .cons (reads_every_spelling.1 _ _ _ hfirst)
    (.cons (reads_every_spelling.1 _ _ _ hsecond) .nil)

end SumTree
