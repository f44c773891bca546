import SumTree.Text.Quoted

/-!
# Unusable service definitions

## Main Definitions

* `ComposeFault` — why a document does not define a usable service.
* `ComposeFault.message` — its text.
-/

namespace SumTree

/-- Why a document does not define a usable service. -/
inductive ComposeFault
  /-- The file cannot be read or does not parse. -/
  | unreadable (path cause : String)
  /-- A part that must be a mapping is of another type. -/
  | notAMapping (part found : String)
  | noService (name : String)
  | noImage (name : String)
  | constraintsForm (name : String)
  | portsForm (name : String)
  | networksForm (name : String)
  /-- A port entry, as messages show it, is of no known form. -/
  | port (shown : String)
  deriving Repr, DecidableEq, Inhabited

/-- The text of a `ComposeFault`. -/
def ComposeFault.message : ComposeFault → String
  | unreadable path cause => "Cannot read compose file " ++ path ++ ": " ++ cause
  | notAMapping part found => part ++ " must be a mapping, got " ++ found
  | noService name => "Service " ++ Quoted.quote name ++ " not found in compose file"
  | noImage name => "Service " ++ Quoted.quote name ++ " has no image"
  | constraintsForm name => name ++ ": placement constraints must be a list"
  | portsForm name => name ++ ": ports must be a list"
  | networksForm name => name ++ ": networks must be a list or mapping"
  | port shown => "Invalid port entry " ++ shown

end SumTree
