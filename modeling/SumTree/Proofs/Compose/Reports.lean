import SumTree.Proofs.Compose.Escapes

/-!
# Reports on a service

A document of any shape either gives the definition of a service or is refused with a `ComposeFault`,
but for the documents that are `Unreported`: their failure is passed on as it is. The form of a
document is only ever refused (`not_escapes_outline`), so that a part of the outline is to blame, and
with it an integer that is too long to be written, too much nesting or an infinite double
(`Unreported.explains`).

## Main Definitions

* `ServiceSpec.Outline.Unreported`, `ServiceSpec.Unreported` — the outlines and the documents with
  which neither a definition nor a refusal is reported.
* `ServiceSpec.Outline.parts` — what an outline takes from the service.
-/

namespace SumTree

namespace ServiceSpec

variable {failure : Failure}

/-! ### Steps of a definition -/

theorem not_escapes_mappingOf {part : String} {d? : Option Document} :
    ¬ Escapes (mappingOf part d?) failure := by
  unfold mappingOf
  split
  · exact Escapes.not_ok
  · exact Escapes.not_ok
  · exact Escapes.not_ok
  · exact Escapes.not_refuse

theorem not_escapes_itemsOf {fault : ComposeFault} {part : Option Document} :
    ¬ Escapes (itemsOf fault part) failure := by
  unfold itemsOf
  split
  · exact Escapes.not_ok
  · split
    · exact Escapes.not_refuse
    · exact Escapes.not_ok
  · exact Escapes.not_ok

theorem not_escapes_networksOf {name : String} {part : Option Document} :
    ¬ Escapes (networksOf name part) failure := by
  unfold networksOf
  split
  · exact Escapes.not_ok
  · exact not_escapes_itemsOf

theorem not_escapes_serviceIn {name : String} {document : Document} :
    ¬ Escapes (serviceIn name document) failure := by
  refine Escapes.not_bind not_escapes_mappingOf fun compose => ?_
  refine Escapes.not_bind not_escapes_mappingOf fun services => ?_
  split
  · exact Escapes.not_ok
  · exact Escapes.not_refuse

theorem not_escapes_outlineOf {name : String} {service : Document}
    {definitions? : Option Document} : ¬ Escapes (outlineOf name service definitions?) failure := by
  unfold outlineOf
  dsimp only
  split
  · exact Escapes.not_refuse
  · refine Escapes.not_bind not_escapes_mappingOf fun deploy => ?_
    refine Escapes.not_bind not_escapes_mappingOf fun placement => ?_
    refine Escapes.not_bind not_escapes_itemsOf fun constraints => ?_
    refine Escapes.not_bind not_escapes_itemsOf fun ports => ?_
    exact Escapes.not_bind not_escapes_networksOf fun networks => Escapes.not_ok

/-- The form of a document is all that its outline is refused for. -/
theorem not_escapes_outline {name : String} {document : Document} :
    ¬ Escapes (outline name document) failure :=
  Escapes.not_bind not_escapes_serviceIn fun _ => not_escapes_outlineOf

namespace Outline

/-- The name of the network is the text of the first one. -/
theorem escapes_attachment_iff {name : String} {o : Outline} :
    Escapes (o.attachment name) failure ↔
      ∃ first ∈ o.networks.head?, first.Unwritten failure := by
  have hdefinition : ∀ network, ¬ Escapes (do
      let definitions ← mappingOf "networks" o.definitions?
      let definition ← mappingOf ("networks." ++ network) (definitions.get? network)
      return (network, definition)) failure := fun network =>
    Escapes.not_bind not_escapes_mappingOf fun _ =>
      Escapes.not_bind not_escapes_mappingOf fun _ => Escapes.not_ok
  have hnetwork : Escapes (o.network name) failure ↔
      ∃ first ∈ o.networks.head?, first.Unwritten failure := by
    unfold network
    cases o.networks with
    | nil => exact iff_of_false Escapes.not_ok (by simp)
    | cons first rest => simpa using escapes_shown_iff
  unfold attachment
  rw [Escapes.bind_iff, hnetwork]
  refine or_iff_left ?_
  rintro ⟨network, -, h⟩
  exact hdefinition network h

theorem escapes_driver_iff {definition : Document} : Escapes (driver definition) failure ↔
    ∃ d, definition.get? "driver" = some d ∧ d.Unwritten failure := by
  unfold driver
  cases definition.get? "driver" with
  | none => exact iff_of_false Escapes.not_ok (by simp)
  | some d => simpa using escapes_shown_iff

/-- The outlines with which neither a definition nor a refusal is reported, and the failures with
which they end. -/
inductive Unreported (name : String) (o : Outline) : Failure → Prop
  /-- The network that the service names cannot be shown. -/
  | network {first : Document} (hfirst : first ∈ o.networks.head?) {failure : Failure}
    (h : first.Unwritten failure) : Unreported name o failure
  /-- Of the image and the constraints one cannot be shown. -/
  | unshown {attachment : String × Document} (hattachment : o.attachment name = .ok attachment)
    {front back : List Document} {d : Document} (hsplit : o.image :: o.constraints = front ++ d :: back)
    (hfront : ∀ y ∈ front, y.Written) {failure : Failure} (h : d.Unwritten failure) :
    Unreported name o failure
  /-- The first port that is not read is not refused either. -/
  | port {attachment : String × Document} (hattachment : o.attachment name = .ok attachment)
    (hwritten : ∀ d ∈ o.image :: o.constraints, d.Written) {front back : List Document}
    {entry : Document} (hports : o.ports = front ++ entry :: back)
    (hfront : ∀ p ∈ front, ∃ m, portOf p = .ok m) {failure : Failure}
    (hentry : PortEscapes entry failure) : Unreported name o failure
  /-- The driver of the network cannot be shown. -/
  | driver {network : String} {definition : Document}
    (hattachment : o.attachment name = .ok (network, definition))
    (hwritten : ∀ d ∈ o.image :: o.constraints, d.Written)
    (hports : ∀ p ∈ o.ports, ∃ m, portOf p = .ok m) {d : Document}
    (hd : definition.get? "driver" = some d) {failure : Failure} (h : d.Unwritten failure) :
    Unreported name o failure

/-- An outline without a definition and without a refusal has a part that is not written or a port
that is not read. -/
theorem escapes_spec_iff {name : String} {o : Outline} :
    Escapes (o.spec name) failure ↔ o.Unreported name failure := by
  unfold Outline.spec
  simp only [Escapes.bind_iff, escapes_attachment_iff, escapes_driver_iff, escapes_shown_iff,
    escapes_texts_iff]
  constructor
  · rintro (⟨first, hfirst, h⟩ | ⟨⟨network, definition⟩, hattachment, hrest⟩)
    · exact .network hfirst h
    rcases hrest with h | ⟨image, himage, hrest⟩
    · exact .unshown hattachment (List.nil_append _).symm (by simp) h
    have himage' := exists_shown_iff.mp ⟨image, himage⟩
    rcases hrest with ⟨front, c, back, hconstraints, hfront, h⟩ | ⟨constraints, hconstraints, hrest⟩
    · have hsplit : o.image :: o.constraints = (o.image :: front) ++ c :: back := by
        rw [hconstraints, List.cons_append]
      exact .unshown hattachment hsplit (List.forall_mem_cons.mpr ⟨himage', hfront⟩) h
    have hwritten : ∀ d ∈ o.image :: o.constraints, d.Written :=
      List.forall_mem_cons.mpr ⟨himage',
        fun c hc => exists_shown_iff.mp (exists_of_mem_mapM hconstraints hc)⟩
    rcases hrest with hports | ⟨ports, hports, hrest⟩
    · obtain ⟨front, entry, back, hsplit, hfront, hentry⟩ := Escapes.mapM_iff.mp hports
      exact .port hattachment hwritten hsplit hfront (escapes_portOf_iff.mp hentry)
    rcases hrest with ⟨d, hd, h⟩ | ⟨driver, -, hpure⟩
    · exact .driver hattachment hwritten (fun p hp => exists_of_mem_mapM hports hp) hd h
    · exact absurd hpure Escapes.not_ok
  · -- What is written goes by, so that the next step is the one that escapes.
    have htexts : (∀ d ∈ o.image :: o.constraints, d.Written) →
        (∃ image, textOf o.image.shown = .ok image) ∧
          ∃ constraints, (o.constraints.mapM fun c => textOf c.shown) = .ok constraints := by
      intro hwritten
      obtain ⟨himage, hconstraints⟩ := List.forall_mem_cons.mp hwritten
      exact ⟨exists_shown_iff.mpr himage,
        exists_mapM_eq_ok fun c hc => exists_shown_iff.mpr (hconstraints c hc)⟩
    intro h
    cases h with
    | network hfirst h => exact .inl ⟨_, hfirst, h⟩
    | @unshown _ hattachment front back d hsplit hfront _ h =>
        refine .inr ⟨_, hattachment, ?_⟩
        cases front with
        | nil =>
            cases hsplit
            exact .inl h
        | cons first front =>
            rw [List.cons_append, List.cons.injEq] at hsplit
            obtain ⟨rfl, hconstraints⟩ := hsplit
            obtain ⟨himage, hfront⟩ := List.forall_mem_cons.mp hfront
            obtain ⟨image, himage⟩ := exists_shown_iff.mpr himage
            exact .inr ⟨image, himage, .inl ⟨front, d, back, hconstraints, hfront, h⟩⟩
    | port hattachment hwritten hports hfront hentry =>
        obtain ⟨⟨image, himage⟩, constraints, hconstraints⟩ := htexts hwritten
        exact .inr ⟨_, hattachment, .inr ⟨image, himage, .inr ⟨constraints, hconstraints,
          .inl (Escapes.mapM_iff.mpr ⟨_, _, _, hports, hfront, escapes_portOf_iff.mpr hentry⟩)⟩⟩⟩
    | driver hattachment hwritten hports hd h =>
        obtain ⟨⟨image, himage⟩, constraints, hconstraints⟩ := htexts hwritten
        obtain ⟨ports, hports⟩ := exists_mapM_eq_ok hports
        exact .inr ⟨_, hattachment, .inr ⟨image, himage, .inr ⟨constraints, hconstraints,
          .inr ⟨ports, hports, .inl ⟨_, hd, h⟩⟩⟩⟩⟩

end Outline

/-! ### Parts of a document -/

theorem within_of_mappingOf {part : String} {d? : Option Document} {d value : Document}
    {name : String} (h : mappingOf part d? = .ok d) (hvalue : d.get? name = some value) :
    ∃ d', d? = some d' ∧ value.Within d' := by
  unfold mappingOf at h
  split at h
  · cases h
    cases hvalue
  · cases h
    cases hvalue
  · cases h
    exact ⟨_, rfl, Document.within_of_get? hvalue⟩
  · cases h

theorem within_of_itemsOf {fault : ComposeFault} {part : Option Document} {items : List Document}
    {item : Document} (h : itemsOf fault part = .ok items) (hitem : item ∈ items) :
    ∃ d, part = some d ∧ item.Within d := by
  unfold itemsOf at h
  split at h
  · cases h
    exact ⟨_, rfl, .item hitem .self⟩
  · split at h
    · cases h
    · cases h
      cases hitem
  · cases h
    cases hitem

theorem within_of_networksOf {name : String} {part : Option Document} {networks : List Document}
    {network : Document} (h : networksOf name part = .ok networks) (hnetwork : network ∈ networks) :
    ∃ d, part = some d ∧ network.Within d := by
  unfold networksOf at h
  split at h
  · cases h
    obtain ⟨m, hm, rfl⟩ := List.mem_map.mp hnetwork
    exact ⟨_, rfl, .key hm .self⟩
  · exact within_of_itemsOf h hnetwork

namespace Outline

/-- The parts of an outline that its definition is made of. -/
def parts (o : Outline) : List Document :=
  o.image :: (o.constraints ++ o.ports ++ o.networks)

end Outline

theorem within_of_serviceIn {name : String} {document service : Document}
    {definitions? : Option Document} (h : serviceIn name document = .ok (service, definitions?)) :
    service.Within document ∧ ∀ d ∈ definitions?, d.Within document := by
  obtain ⟨compose, hcompose, h⟩ := exists_of_bind_eq_ok h
  obtain ⟨services, hservices, h⟩ := exists_of_bind_eq_ok h
  have hin : ∀ {name value}, compose.get? name = some value → value.Within document := by
    intro name value hvalue
    obtain ⟨d, hd, hwithin⟩ := within_of_mappingOf hcompose hvalue
    cases hd
    exact hwithin
  split at h
  · rename_i members hservice
    cases h
    obtain ⟨d, hd, hwithin⟩ := within_of_mappingOf hservices hservice
    exact ⟨hwithin.trans (hin hd), fun d hd => hin hd⟩
  · cases h

theorem within_of_outlineOf {name : String} {service : Document} {definitions? : Option Document}
    {o : Outline} (h : outlineOf name service definitions? = .ok o) :
    o.definitions? = definitions? ∧ ∀ d ∈ o.parts, d.Within service := by
  unfold outlineOf at h
  dsimp only at h
  split at h
  · cases h
  rename_i himage
  obtain ⟨deploy, hdeploy, h⟩ := exists_of_bind_eq_ok h
  obtain ⟨placement, hplacement, h⟩ := exists_of_bind_eq_ok h
  obtain ⟨constraints, hconstraints, h⟩ := exists_of_bind_eq_ok h
  obtain ⟨ports, hports, h⟩ := exists_of_bind_eq_ok h
  obtain ⟨networks, hnetworks, h⟩ := exists_of_bind_eq_ok h
  cases h
  refine ⟨rfl, fun d hd => ?_⟩
  simp only [Outline.parts, List.mem_cons, List.mem_append] at hd
  rcases hd with rfl | (hd | hd) | hd
  · cases hget : service.get? "image" with
    | none => simp [hget, Document.isTruthy] at himage
    | some d => exact Document.within_of_get? hget
  · obtain ⟨items, hitems, hwithin⟩ := within_of_itemsOf hconstraints hd
    obtain ⟨d', hd', hwithin'⟩ := within_of_mappingOf hplacement hitems
    obtain ⟨d'', hd'', hwithin''⟩ := within_of_mappingOf hdeploy hd'
    exact hwithin.trans (hwithin'.trans (hwithin''.trans (Document.within_of_get? hd'')))
  · obtain ⟨items, hitems, hwithin⟩ := within_of_itemsOf hports hd
    exact hwithin.trans (Document.within_of_get? hitems)
  · obtain ⟨items, hitems, hwithin⟩ := within_of_networksOf hnetworks hd
    exact hwithin.trans (Document.within_of_get? hitems)

theorem within_of_outline {name : String} {document : Document} {o : Outline}
    (h : outline name document = .ok o) :
    (∀ d ∈ o.parts, d.Within document) ∧ ∀ d ∈ o.definitions?, d.Within document := by
  obtain ⟨⟨service, definitions?⟩, hservice, h⟩ := exists_of_bind_eq_ok h
  obtain ⟨hin, hdefinitions⟩ := within_of_serviceIn hservice
  obtain ⟨rfl, hparts⟩ := within_of_outlineOf h
  exact ⟨fun d hd => (hparts d hd).trans hin, hdefinitions⟩

theorem Outline.within_of_attachment {name network : String} {o : Outline} {definition d : Document}
    (h : o.attachment name = .ok (network, definition)) (hd : definition.get? "driver" = some d) :
    ∃ d' ∈ o.definitions?, d.Within d' := by
  obtain ⟨network, -, h⟩ := exists_of_bind_eq_ok h
  obtain ⟨definitions, hdefinitions, h⟩ := exists_of_bind_eq_ok h
  obtain ⟨definition, hdefinition, h⟩ := exists_of_bind_eq_ok h
  cases h
  obtain ⟨d', hd', hwithin⟩ := within_of_mappingOf hdefinition hd
  obtain ⟨d'', hd'', hwithin'⟩ := within_of_mappingOf hdefinitions hd'
  exact ⟨d'', hd'', hwithin.trans hwithin'⟩

/-! ### Documents without a report -/

/-- The documents with which neither a definition nor a refusal is reported, and the failures with
which they end. -/
def Unreported (name : String) (document : Document) (failure : Failure) : Prop :=
  ∃ o, outline name document = .ok o ∧ o.Unreported name failure

theorem escapes_ofDocument_iff {name : String} {document : Document} :
    Escapes (ofDocument name document) failure ↔ Unreported name document failure := by
  rw [ofDocument_eq, Escapes.bind_iff, or_iff_right not_escapes_outline]
  exact exists_congr fun o => and_congr_right fun _ => Outline.escapes_spec_iff

/-- A document without a report holds the reason for its failure. -/
theorem Unreported.explains {name : String} {document : Document}
    (h : Unreported name document failure) : document.Explains failure := by
  obtain ⟨o, houtline, h⟩ := h
  obtain ⟨hparts, hdefinitions⟩ := within_of_outline houtline
  cases h with
  | network hfirst h =>
      refine h.explains.within (hparts _ ?_)
      simp [Outline.parts, List.mem_of_mem_head? hfirst]
  | @unshown _ _ front back d hsplit _ _ h =>
      refine h.explains.within (hparts _ ?_)
      have hmem : d ∈ o.image :: o.constraints := by
        rw [hsplit]
        exact List.mem_append_right front List.mem_cons_self
      rcases List.mem_cons.mp hmem with rfl | hmem
      · simp [Outline.parts]
      · simp [Outline.parts, hmem]
  | @port _ _ _ _ _ entry hports _ _ hentry =>
      exact hentry.explains.within (hparts entry (by simp [Outline.parts, hports]))
  | driver hattachment _ _ hd h =>
      obtain ⟨d', hd', hwithin⟩ := Outline.within_of_attachment hattachment hd
      exact h.explains.within (hwithin.trans (hdefinitions d' hd'))

/-- A definition is returned or refused with a `ComposeFault`, but with the documents that are
`Unreported`. These end with another failure, for which there is a reason in the document: an integer
is too long to be written, lists and mappings nest too deeply, or the port of a mapping is infinite. -/
theorem reported_iff (name : String) (document : Document) :
    ((∃ s, ofDocument name document = .ok s) ∨
        (∃ fault, ofDocument name document = .error (.compose fault)) ↔
      ∀ failure, ¬ Unreported name document failure) ∧
    (∀ failure, Unreported name document failure →
      ofDocument name document = .error failure ∧ document.Explains failure) := by
  constructor
  · constructor
    · rintro h failure hfailure
      obtain ⟨hread, hcompose⟩ := escapes_ofDocument_iff.mpr hfailure
      rcases h with ⟨s, hs⟩ | ⟨fault, hfault⟩
      · rw [hs] at hread
        cases hread
      · rw [hfault] at hread
        cases hread
        cases hcompose
    · intro h
      cases hread : ofDocument name document with
      | ok s => exact .inl ⟨s, rfl⟩
      | error failure =>
          cases failure with
          | compose fault => exact .inr ⟨fault, rfl⟩
          | _ => exact absurd (escapes_ofDocument_iff.mp ⟨hread, rfl⟩) (h _)
  · intro failure h
    exact ⟨(escapes_ofDocument_iff.mpr h).1, h.explains⟩

namespace Sample

/-- A document with a service of an image and ports. -/
def deploying (image : Document) (ports : List Document) : Document :=
  .map [(.text "services", .map [(.text "svc",
    .map [(.text "image", image), (.text "ports", .list ports)])])]

/-- A port entry that publishes the port at infinity. -/
def endlessPort : Document :=
  .map [(.text "published", .real (1.0 / 0.0)), (.text "target", .int 1)]

end Sample

theorem outline_deploying {image : Document} (himage : image.isTruthy = true)
    (ports : List Document) :
    outline "svc" (Sample.deploying image ports) = .ok ⟨image, [], ports, [], none⟩ := by
  have hservice : serviceIn "svc" (Sample.deploying image ports) =
      .ok (.map [(.text "image", image), (.text "ports", .list ports)], none) := rfl
  have houtline : outlineOf "svc" (.map [(.text "image", image), (.text "ports", .list ports)]) none =
      if !image.isTruthy then refuse (.noImage "svc") else .ok ⟨image, [], ports, [], none⟩ := rfl
  unfold outline
  rw [hservice]
  show outlineOf "svc" _ none = _
  rw [houtline, himage]
  rfl

theorem unreported_long_image :
    Unreported "svc" (Sample.deploying (.int (10 ^ 4300)) []) (.value .tooLongToWrite) ∧
      ofDocument "svc" (Sample.deploying (.int (10 ^ 4300)) []) =
        .error (.value .tooLongToWrite) := by
  have hlong : (Document.int (10 ^ 4300)).Unwritten (.value .tooLongToWrite) :=
    Document.unwritten_int (by decide +kernel)
  have himage : (Document.int (10 ^ 4300)).isTruthy = true := by decide +kernel
  have h : Unreported "svc" (Sample.deploying (.int (10 ^ 4300)) []) (.value .tooLongToWrite) :=
    ⟨_, outline_deploying himage [], .unshown rfl (List.nil_append _).symm (by simp) hlong⟩
  exact ⟨h, ((reported_iff "svc" _).2 _ h).1⟩

/-- The port at infinity is neither read nor refused. -/
theorem unreported_endless_port :
    ¬ ((∃ s, ofDocument "svc" (Sample.deploying (.text "w") [Sample.endlessPort]) = .ok s) ∨
      ∃ fault, ofDocument "svc" (Sample.deploying (.text "w") [Sample.endlessPort]) =
        .error (.compose fault)) := by
  have hread : ofDocument "svc" (Sample.deploying (.text "w") [Sample.endlessPort]) =
      .error (.elsewhere "OverflowError" "") := rfl
  rw [hread]
  rintro (⟨s, ⟨⟩⟩ | ⟨fault, ⟨⟩⟩)

end ServiceSpec

end SumTree
