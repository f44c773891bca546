import SumTree.Failure
import SumTree.Json.Value
import SumTree.Tree.Build

/-!
# Scripts

A rehearsal runs a part of the library against a script, which says in JSON how everything outside
behaves. Members that a script leaves out have defaults.

## Main Definitions

* `Script.text`, `Script.natural`, `Script.member` — the members of a script.
* `Script.failure` — the failure of a name and a text.
* `Script.hasher`, `Script.policy` — the hasher and the odd-node policy of a script.
-/

namespace SumTree

namespace Script

/-- The text of a member, or a default. -/
def text (v : Json) (name default : String) : String :=
  ((v.get? name).bind Json.str?).getD default

/-- The integer of a member, or a default. -/
def integer (v : Json) (name : String) (default : Int) : Int :=
  ((v.get? name).bind Json.int?).getD default

/-- The natural number of a member, or a default. -/
def natural (v : Json) (name : String) (default : Nat) : Nat :=
  (integer v name default).toNat

/-- A member that is not null. -/
def member? (v : Json) (name : String) : Option Json :=
  match v.get? name with
  | some .null | none => none
  | some m => some m

/-- The texts of a member that is a list. -/
def texts (v : Json) (name : String) : List String :=
  (((v.get? name).bind Json.arr?).getD []).filterMap Json.str?

/-- The members of a member that is an object. -/
def members (v : Json) (name : String) : List (String × Json) :=
  ((v.get? name).bind Json.obj?).getD []

/-- The failures that come from the operating system or the network. -/
def systemNames : List String :=
  ["OSError", "TimeoutError", "ConnectionError", "ConnectionRefusedError", "PermissionError",
    "FileNotFoundError"]

/-- The failures that come from the container engine. -/
def engineNames : List String :=
  ["DockerException", "APIError", "NotFound", "ImageNotFound", "ContainerError"]

/-- The error of a run that has a name, with a text. -/
def runError? (name message : String) : Option RunError :=
  match name with
  | "OrchestrationError" => some (.misuse message)
  | "EntryValidationError" => some (.entries (.other message))
  | "AggregationError" => some (.aggregation (.other message))
  | _ => none

/-- The failure of a name and a text. A missing key is shown in quotes. -/
def failure (name message : String) : Failure :=
  match runError? name message with
  | some e => .run e
  | none =>
    if name == "ValueError" then .value (.other message)
    else if systemNames.contains name then .system name message
    else if engineNames.contains name then .outside ⟨.engine, name, message⟩
    else if name == "KeyError" then .elsewhere name (Quoted.quote message)
    else .elsewhere name message

/-- The hasher of a script. -/
def hasher (v : Json) : Hasher :=
  if text v "hasher" "default" == "concat" then .transparent else .sha256

/-- The odd-node policy of a script, refused when it has no name of one. -/
def policy (v : Json) : Except ValueFault OddPolicy :=
  OddPolicy.ofName (text v "policy" OddPolicy.carryUp.name)

end Script

end SumTree
