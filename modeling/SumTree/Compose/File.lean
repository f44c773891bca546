import SumTree.Compose.Spec
import SumTree.Text.Utf8
import SumTree.Yaml.Reader

/-!
# Files of service definitions

A compose file is a YAML document in UTF-8.

## Main Definitions

* `ServiceSpec.load` — the definition of a service in a file.
-/

namespace SumTree

/-- The definition of the service `name` in the file `path` with the content `content?`, which is
missing when the file cannot be opened. What is said about a file that cannot be opened, or whose
content does not parse, are the words of others, `complaint`. -/
def ServiceSpec.load (path name : String) (complaint : Option (List UInt8) → String)
    (content? : Option (List UInt8)) : Except Failure ServiceSpec :=
  match content? with
  | none => .error (.compose (.unreadable path (complaint none)))
  | some bytes =>
    match Utf8.decode? bytes with
    | none => .error (.elsewhere "UnicodeDecodeError" "")
    | some text =>
      match Yaml.read text with
      | .error .malformed => .error (.compose (.unreadable path (complaint (some bytes))))
      | .error (.unusable failure) => .error failure
      | .ok document => ofDocument name document

end SumTree
