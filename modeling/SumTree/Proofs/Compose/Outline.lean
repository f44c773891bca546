import SumTree.Compose.Spec
import SumTree.Proofs.Except

/-!
# Outlines of a service

A service definition is read in two steps (`ofDocument_eq`). First the form of the document is checked,
and what it says of the service is found: its *outline*. Then the parts of the outline are turned into
texts and port mappings. Only the second step looks into these parts, and it is the only one that can
fail for another reason than a `ComposeFault`.

## Main Definitions

* `Document.at?`, `Document.replace` — what stands in a document at a path, and another document in
  its place.
* `ServiceSpec.Outline` — what a document says of a service.
* `ServiceSpec.outline` — the outline of a service in a document.
* `ServiceSpec.Outline.attachment` — the network of a service and what the document says of it.
* `ServiceSpec.Outline.spec` — the definition of the service that has an outline.
-/

namespace SumTree

namespace Document

/-! ### Paths -/

/-- What stands in a document at a path of names. -/
def at? : Document → List String → Option Document
  | d, [] => some d
  | d, name :: path => (d.get? name).bind fun value => value.at? path

/-- A document with another one in the place of what stands at a path of names. -/
def replace : Document → List String → Document → Document
  | _, [], new => new
  | map members, name :: path, new => map <| members.map fun m =>
    match m.1 with
    | text s => if s == name then (m.1, m.2.replace path new) else m
    | _ => m
  | d, _ :: _, _ => d

/-- Only what stands at the first name of the path is changed. -/
theorem get?_replace (d : Document) (name other : String) (path : List String) (new : Document) :
    (d.replace (name :: path) new).get? other =
      (d.get? other).map fun value => if other = name then value.replace path new else value := by
  cases d with
  | map members =>
      rw [replace, get?, get?, List.findSome?_map]
      induction members with
      | nil => rfl
      | cons m rest ih =>
          obtain ⟨key, value⟩ := m
          rw [List.findSome?_cons, List.findSome?_cons]
          cases key with
          | text s =>
              by_cases hother : s = other
              · by_cases hname : other = name
                · simp [hother, hname]
                · simp [hother, hname]
              · by_cases hname : s = name
                · simpa [hname, hname ▸ hother] using ih
                · simpa [hother, hname] using ih
          | _ => exact ih
  | _ => rfl

theorem get?_replace_self (d : Document) (name : String) (path : List String) (new : Document) :
    (d.replace (name :: path) new).get? name =
      (d.get? name).map fun value => value.replace path new := by
  simp [get?_replace]

theorem get?_replace_of_ne (d : Document) {name other : String} (h : other ≠ name)
    (path : List String) (new : Document) :
    (d.replace (name :: path) new).get? other = d.get? other := by
  simp [get?_replace, h]

/-- Only mappings have members. -/
theorem exists_map_of_get? {d value : Document} {name : String} (h : d.get? name = some value) :
    ∃ members, d = map members := by
  cases d with
  | map members => exact ⟨members, rfl⟩
  | _ => cases h

end Document

namespace ServiceSpec

/-! ### Outlines -/

/-- What a document says of a service, once the form of the service is checked. -/
structure Outline where
  image : Document
  constraints : List Document
  ports : List Document
  networks : List Document
  /-- Where the document defines its networks. -/
  definitions? : Option Document

/-- The service `name` of a document, and where the document defines its networks. -/
def serviceIn (name : String) (document : Document) :
    Except Failure (Document × Option Document) := do
  let compose ← mappingOf "Compose document" (some document)
  let services ← mappingOf "services" (compose.get? "services")
  match services.get? name with
  | some (.map members) => return (.map members, compose.get? "networks")
  | _ => refuse (.noService name)

/-- The outline of a service. -/
def outlineOf (name : String) (service : Document) (definitions? : Option Document) :
    Except Failure Outline :=
  let image := (service.get? "image").getD .null
  if !image.isTruthy then refuse (.noImage name)
  else do
    let deploy ← mappingOf (name ++ ".deploy") (service.get? "deploy")
    let placement ← mappingOf (name ++ ".deploy.placement") (deploy.get? "placement")
    let constraints ← itemsOf (.constraintsForm name) (placement.get? "constraints")
    let ports ← itemsOf (.portsForm name) (service.get? "ports")
    let networks ← networksOf name (service.get? "networks")
    return ⟨image, constraints, ports, networks, definitions?⟩

/-- The outline of the service `name` in a document. -/
def outline (name : String) (document : Document) : Except Failure Outline := do
  let (service, definitions?) ← serviceIn name document
  outlineOf name service definitions?

namespace Outline

/-- The network of a service: the first one, or the one that bears its name. -/
def network (name : String) (o : Outline) : Except Failure String :=
  match o.networks with
  | first :: _ => textOf first.shown
  | [] => pure name

/-- The network of a service and what the document says of it. -/
def attachment (name : String) (o : Outline) : Except Failure (String × Document) := do
  let network ← o.network name
  let definitions ← mappingOf "networks" o.definitions?
  let definition ← mappingOf ("networks." ++ network) (definitions.get? network)
  return (network, definition)

/-- The driver of a network. -/
def driver (definition : Document) : Except Failure String :=
  match definition.get? "driver" with
  | some d => textOf d.shown
  | none => pure "overlay"

/-- The definition of the service. -/
def spec (name : String) (o : Outline) : Except Failure ServiceSpec := do
  let (network, definition) ← o.attachment name
  let image ← textOf o.image.shown
  let constraints ← o.constraints.mapM fun c => textOf c.shown
  let ports ← o.ports.mapM portOf
  let driver ← driver definition
  return ⟨name, image, constraints, ports, network, driver⟩

end Outline

theorem serviceIn_of_get? {name : String} {document services : Document}
    {members : List (Document × Document)} (hservices : document.get? "services" = some services)
    (hservice : services.get? name = some (.map members)) :
    serviceIn name document = .ok (.map members, document.get? "networks") := by
  obtain ⟨top, rfl⟩ := Document.exists_map_of_get? hservices
  obtain ⟨inner, rfl⟩ := Document.exists_map_of_get? hservice
  have hcompose : mappingOf "Compose document" (some (.map top)) = .ok (.map top) := rfl
  have hinner : mappingOf "services" (some (.map inner)) = .ok (.map inner) := rfl
  unfold serviceIn
  rw [hcompose]
  show (mappingOf "services" ((Document.map top).get? "services") >>= _) = _
  rw [hservices, hinner]
  show (match (Document.map inner).get? name with
    | some (.map members) => _
    | _ => _) = _
  rw [hservice]
  rfl

/-- The definition that an outline gives, part by part. -/
theorem Outline.spec_eq_ok_iff {name : String} {o : Outline} {s : ServiceSpec} :
    o.spec name = .ok s ↔ s.name = name ∧ ∃ definition,
      o.attachment name = .ok (s.network, definition) ∧ textOf o.image.shown = .ok s.image ∧
      (o.constraints.mapM fun c => textOf c.shown) = .ok s.constraints ∧
      o.ports.mapM portOf = .ok s.ports ∧ driver definition = .ok s.networkDriver := by
  unfold Outline.spec
  constructor
  · intro h
    obtain ⟨⟨network, definition⟩, hattachment, h⟩ := exists_of_bind_eq_ok h
    obtain ⟨image, himage, h⟩ := exists_of_bind_eq_ok h
    obtain ⟨constraints, hconstraints, h⟩ := exists_of_bind_eq_ok h
    obtain ⟨ports, hports, h⟩ := exists_of_bind_eq_ok h
    obtain ⟨driver, hdriver, h⟩ := exists_of_bind_eq_ok h
    cases h
    exact ⟨rfl, definition, hattachment, himage, hconstraints, hports, hdriver⟩
  · rintro ⟨rfl, definition, hattachment, himage, hconstraints, hports, hdriver⟩
    rw [hattachment]
    show (textOf o.image.shown >>= _) = _
    rw [himage]
    show ((o.constraints.mapM fun c => textOf c.shown) >>= _) = _
    rw [hconstraints]
    show (o.ports.mapM portOf >>= _) = _
    rw [hports]
    show (Outline.driver definition >>= _) = _
    rw [hdriver]
    rfl

/-- A service definition is read by its outline. -/
theorem ofDocument_eq (name : String) (document : Document) :
    ofDocument name document = outline name document >>= Outline.spec name := by
  -- Behind the outline both sides are the same steps, those of the network grouped in the one.
  have hspec : ∀ (o : Outline), Outline.spec name o = (do
      let network ← o.network name
      let definitions ← mappingOf "networks" o.definitions?
      let definition ← mappingOf ("networks." ++ network) (definitions.get? network)
      let image ← textOf o.image.shown
      let constraints ← o.constraints.mapM fun c => textOf c.shown
      let ports ← o.ports.mapM portOf
      let driver ← Outline.driver definition
      return ⟨name, image, constraints, ports, network, driver⟩) := by
    intro o
    simp only [Outline.spec, Outline.attachment, bind_assoc, pure_bind]
  have hdriver : ∀ (definition : Document) (define : String → Except Failure ServiceSpec),
      (match definition.get? "driver" with
        | some d => textOf d.shown >>= define
        | none => define "overlay") = Outline.driver definition >>= define := by
    intro definition define
    unfold Outline.driver
    cases definition.get? "driver" with
    | none => rfl
    | some d => rfl
  unfold ofDocument outline serviceIn
  rw [bind_assoc, bind_assoc]
  refine bind_congr fun compose => ?_
  rw [bind_assoc]
  refine bind_congr fun services => ?_
  extract_lets define
  have hservice : ∀ service, define service =
      outlineOf name service (compose.get? "networks") >>= Outline.spec name := by
    intro service
    unfold define outlineOf
    dsimp only
    split
    · rfl
    · simp only [bind_assoc, pure_bind, hspec]
      refine bind_congr fun deploy => bind_congr fun placement => bind_congr fun constraints =>
        bind_congr fun ports => bind_congr fun networks => ?_
      cases networks with
      | nil =>
          rw [Outline.network, pure_bind]
          exact bind_congr fun definitions => bind_congr fun definition => bind_congr fun image =>
            bind_congr fun constraints => bind_congr fun ports => hdriver definition _
      | cons first rest =>
          exact bind_congr fun network => bind_congr fun definitions => bind_congr fun definition =>
            bind_congr fun image => bind_congr fun constraints => bind_congr fun ports =>
              hdriver definition _
  cases services.get? name with
  | none => rfl
  | some found =>
      cases found with
      | map members => exact hservice _
      | _ => rfl

end ServiceSpec

end SumTree
