import SumTree.Compose.Document
import SumTree.Failure

/-!
# Service definitions

What a spawner needs to know of a service of a compose document: its image, where its replicas may
run, its ports and its network. A port entry is a number, a text or a mapping.

## Main Definitions

* `PortMapping` — a published port and the port behind it.
* `ServiceSpec` — the definition of a service.
* `ServiceSpec.portOf` — the mapping of a port entry.
* `ServiceSpec.ofDocument` — the definition of a service in a document.
-/

namespace SumTree

/-- A published port and the port behind it. -/
structure PortMapping where
  published : Int
  target : Int
  deriving Repr, DecidableEq, Inhabited

/-- The definition of a service. -/
structure ServiceSpec where
  name : String
  image : String
  constraints : List String
  ports : List PortMapping
  network : String
  networkDriver : String
  deriving Repr, DecidableEq, Inhabited

/-- The failure that a document without a text is. -/
def TextFault.failure : TextFault → Failure
  | .value fault => .value fault
  | .tooDeep => .elsewhere "RecursionError" ""

namespace ServiceSpec

/-- A definition that is refused. -/
def refuse {α : Type} (fault : ComposeFault) : Except Failure α :=
  .error (.compose fault)

/-- A text of a document, if it has one. -/
def textOf (t : Except TextFault String) : Except Failure String :=
  t.mapError TextFault.failure

/-- A port entry that is of no known form. -/
def badPort (entry : Document) : Except Failure PortMapping := do
  let shown ← textOf entry.quoted
  refuse (.port shown)

/-- Why a document is no port number. -/
inductive NumberFault
  | notANumber
  /-- A double beyond all integers. -/
  | infinite

/-- The number of a document in a port mapping: a double loses its fraction. -/
def numberOf : Document → Except NumberFault Int
  | .bool b => .ok (if b then 1 else 0)
  | .int n => .ok n
  | .real x =>
    if x.isInf then .error .infinite
    else if x.isNaN then .error .notANumber
    else match Real64.toInt? (if x < 0 then x.ceil else x.floor) with
      | some n => .ok n
      | none => .error .notANumber
  | .text s =>
    match Decimal.read s with
    | .ok n => .ok n
    | .error _ => .error .notANumber
  | _ => .error .notANumber

/-- The mapping of a port entry that is itself a mapping. -/
def portOfMap (entry : Document) : Except Failure PortMapping :=
  let number (name : String) : Except NumberFault Int :=
    match entry.get? name with
    | some value => numberOf value
    | none => .error .notANumber
  match number "published" with
  | .error .infinite => .error (.elsewhere "OverflowError" "")
  | .error .notANumber => badPort entry
  | .ok published =>
    match number "target" with
    | .error .infinite => .error (.elsewhere "OverflowError" "")
    | .error .notANumber => badPort entry
    | .ok target => .ok ⟨published, target⟩

/-- The part of a list of characters in front of the last colon, if it has one, and the part behind
it. -/
def splitLastColon (cs : List Char) : Option (List Char) × List Char :=
  let back := cs.reverse.takeWhile (· != ':')
  if back.length == cs.length then (none, cs)
  else (some (cs.take (cs.length - back.length - 1)), back.reverse)

/-- The mapping of a port entry's text: a port, or two with a colon between them, perhaps with a host
in front and a protocol behind a slash. -/
def portOfText (s : String) : Option PortMapping :=
  let cs := s.toList.takeWhile (· != '/')
  let number (cs : List Char) : Option Int := (Decimal.read (String.ofList cs)).toOption
  match splitLastColon cs with
  | (none, target) => do
    let port ← number target
    return ⟨port, port⟩
  | (some front, target) => do
    let published ← number (splitLastColon front).2
    let port ← number target
    return ⟨published, port⟩

/-- The mapping of a port entry. -/
def portOf (entry : Document) : Except Failure PortMapping :=
  match entry with
  | .map _ => portOfMap entry
  | .text _ | .int _ | .bool _ => do
    let text ← textOf entry.shown
    match portOfText text with
    | some port => return port
    | none => badPort entry
  | _ => badPort entry

/-- The members of a part that must be a mapping or be missing. -/
def mappingOf (part : String) : Option Document → Except Failure Document
  | none | some .null => .ok (.map [])
  | some (.map members) => .ok (.map members)
  | some d => refuse (.notAMapping part d.typeName)

/-- The items of a part that must be a list, where nothing, false, zero and empty count as none. -/
def itemsOf (fault : ComposeFault) (part : Option Document) : Except Failure (List Document) :=
  match part with
  | some (.list items) => .ok items
  | some d => if d.isTruthy then refuse fault else .ok []
  | none => .ok []

/-- The networks of a service, by a list or by the keys of a mapping. -/
def networksOf (name : String) (part : Option Document) : Except Failure (List Document) :=
  match part with
  | some (.map members) => .ok (members.map Prod.fst)
  | part => itemsOf (.networksForm name) part

/-- The definition of the service `name` in a document. -/
def ofDocument (name : String) (document : Document) : Except Failure ServiceSpec := do
  let compose ← mappingOf "Compose document" (some document)
  let services ← mappingOf "services" (compose.get? "services")
  let service ← match services.get? name with
    | some (.map members) => pure (Document.map members)
    | _ => refuse (.noService name)
  let image := (service.get? "image").getD .null
  if !image.isTruthy then refuse (.noImage name)
  let deploy ← mappingOf (name ++ ".deploy") (service.get? "deploy")
  let placement ← mappingOf (name ++ ".deploy.placement") (deploy.get? "placement")
  let constraints ← itemsOf (.constraintsForm name) (placement.get? "constraints")
  let ports ← itemsOf (.portsForm name) (service.get? "ports")
  let networks ← networksOf name (service.get? "networks")
  let network ← match networks with
    | first :: _ => textOf first.shown
    | [] => pure name
  let definitions ← mappingOf "networks" (compose.get? "networks")
  let definition ← mappingOf ("networks." ++ network) (definitions.get? network)
  let imageText ← textOf image.shown
  let constraintTexts ← constraints.mapM fun c => textOf c.shown
  let portMappings ← ports.mapM portOf
  let driver ← match definition.get? "driver" with
    | some d => textOf d.shown
    | none => pure "overlay"
  return ⟨name, imageText, constraintTexts, portMappings, network, driver⟩

end ServiceSpec

end SumTree
