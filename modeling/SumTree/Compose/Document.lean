import SumTree.Fault
import SumTree.Json.Value

/-!
# Documents

A document that defines services is made of scalars, lists and mappings, where anything can be the
key of a mapping.

## Main Definitions

* `Document` — a document.
* `Document.typeName` — the name of a document's type, as messages give it.
* `TextFault` — why a document has no text.
* `Document.shown`, `Document.quoted` — a document as text: a string is itself, or in quotes.
* `Document.isTruthy` — whether a document counts as present.
* `Document.ofJson` — the document of a JSON value.

## Design Notes

Both texts show what is inside a list or a mapping in quotes. They are made from the outside inwards
and from the front to the back, and there is none when this meets an integer that is too long to be
written, or more lists and mappings within each other than can be followed.
-/

namespace SumTree

/-- A document. -/
inductive Document
  | null
  | bool (b : Bool)
  | int (n : Int)
  | real (x : Float)
  | text (s : String)
  | list (items : List Document)
  /-- A mapping, its members in the order in which they were written. -/
  | map (members : List (Document × Document))
  /-- A scalar of another type, known by the name of the type and its two texts. -/
  | other (type shown quoted : String)
  deriving Inhabited

/-- Why a document has no text. -/
inductive TextFault
  /-- A value in it has none. -/
  | value (fault : ValueFault)
  /-- It nests too deeply. -/
  | tooDeep
  deriving Repr, DecidableEq, Inhabited

namespace Document

/-- The name of a document's type. -/
def typeName : Document → String
  | null => "NoneType"
  | bool _ => "bool"
  | int _ => "int"
  | real _ => "float"
  | text _ => "str"
  | list _ => "list"
  | map _ => "dict"
  | other type _ _ => type

/-- Whether a document counts as present: it is neither null nor false, zero or empty. -/
def isTruthy : Document → Bool
  | null => false
  | bool b => b
  | int n => n != 0
  | real x => x != 0.0
  | text s => !s.isEmpty
  | list items => !items.isEmpty
  | map members => !members.isEmpty
  | other .. => true

/-- How many lists and mappings within each other a text can show. -/
def nestingLimit : Nat := 970

mutual

/-- A document as text, a string in quotes, with room for so many lists and mappings within each
other. -/
def quotedIn (room : Nat) : Document → Except TextFault String
  | null => .ok "None"
  | bool b => .ok (if b then "True" else "False")
  | int n => (Decimal.text n).mapError .value
  | real x => .ok (Real64.render x)
  | text s => .ok (Quoted.quote s)
  | list items =>
    match room with
    | 0 => .error .tooDeep
    | room + 1 => do
      let texts ← quotedItems room items
      return "[" ++ ", ".intercalate texts ++ "]"
  | map members =>
    match room with
    | 0 => .error .tooDeep
    | room + 1 => do
      let texts ← quotedMembers room members
      return "\x7b" ++ ", ".intercalate texts ++ "\x7d"
  | other _ _ q => .ok q

/-- The texts of a list's items. -/
def quotedItems (room : Nat) : List Document → Except TextFault (List String)
  | [] => .ok []
  | item :: rest => do
    let text ← quotedIn room item
    let texts ← quotedItems room rest
    return text :: texts

/-- The texts of a mapping's members. -/
def quotedMembers (room : Nat) : List (Document × Document) → Except TextFault (List String)
  | [] => .ok []
  | (key, value) :: rest => do
    let keyText ← quotedIn room key
    let valueText ← quotedIn room value
    let texts ← quotedMembers room rest
    return (keyText ++ ": " ++ valueText) :: texts

end

/-- A document as text, a string in quotes. -/
def quoted (d : Document) : Except TextFault String :=
  d.quotedIn nestingLimit

/-- A document as text, a string as it is. -/
def shown : Document → Except TextFault String
  | text s => .ok s
  | other _ s _ => .ok s
  | d => d.quoted

/-- The member of a mapping under a text. -/
def get? (name : String) : Document → Option Document
  | map members => members.findSome? fun m =>
    match m.1 with
    | text s => if s == name then some m.2 else none
    | _ => none
  | _ => none

/-- Whether two scalars are the same key. -/
def sameKey : Document → Document → Bool
  | null, null => true
  | bool a, bool b => a == b
  | int a, int b => a == b
  | bool a, int b => (if a then 1 else 0) == b
  | int a, bool b => a == (if b then 1 else 0)
  | real a, real b => a == b
  | text a, text b => a == b
  | other t s q, other t' s' q' => t == t' && s == s' && q == q'
  | _, _ => false

/-- Enters a member into those of a mapping, in the place of the one with its key. -/
def enter (members : List (Document × Document)) (key value : Document) :
    List (Document × Document) :=
  if members.any (sameKey key ·.1) then
    members.map fun m => if sameKey key m.1 then (m.1, value) else m
  else members ++ [(key, value)]

mutual

/-- The document of a JSON value. -/
def ofJson : Json → Document
  | .null => .null
  | .bool b => .bool b
  | .num (.int n) => .int n
  | .num (.real x) => .real x
  | .str s => .text s
  | .unpaired points => .text (String.ofList (points.map Char.ofNat))
  | .arr items => .list (ofItems items)
  | .obj members => .map ((ofMembers members).foldl (fun ms m => enter ms m.1 m.2) [])

/-- The documents of JSON values. -/
def ofItems : List Json → List Document
  | [] => []
  | item :: rest => ofJson item :: ofItems rest

/-- The members of a JSON object as those of a mapping. -/
def ofMembers : List (String × Json) → List (Document × Document)
  | [] => []
  | (name, value) :: rest => (.text name, ofJson value) :: ofMembers rest

end

end Document

end SumTree
