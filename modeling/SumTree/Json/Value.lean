import SumTree.Number.Basic

/-!
# JSON values

## Main Definitions

* `Json` — a JSON value; members of an object keep their order.
* `Json.get?` — the member of an object, the last one where a name is repeated.
* `Json.at?` — the element of an array.

## Design Notes

Escapes can put half of a surrogate pair into a string. Such a string is no Unicode text and has no
UTF-8 form, yet it is a string to a reader that admits it, so it has a constructor of its own that
holds the code points.
-/

namespace SumTree

/-- A JSON value. -/
inductive Json
  | null
  | bool (b : Bool)
  | num (n : Number)
  /-- A string of Unicode text. -/
  | str (s : String)
  /-- A string with an unpaired surrogate among its code points. -/
  | unpaired (points : List Nat)
  | arr (items : List Json)
  /-- An object, its members in the order in which they were written. -/
  | obj (members : List (String × Json))
  deriving Inhabited

namespace Json

/-- An integer as a JSON value. -/
def int (n : Int) : Json :=
  .num (.int n)

/-- A natural number as a JSON value. -/
def nat (n : Nat) : Json :=
  .num (.int n)

/-- An object's member of the given name, the last one where the name is repeated. -/
def get? (name : String) : Json → Option Json
  | obj members => (members.reverse.find? (·.1 == name)).map (·.2)
  | _ => none

/-- An array's element at the given position. -/
def at? (index : Nat) : Json → Option Json
  | arr items => items[index]?
  | _ => none

/-- The text of a JSON string. -/
def str? : Json → Option String
  | str s => some s
  | _ => none

/-- The elements of a JSON array. -/
def arr? : Json → Option (List Json)
  | arr items => some items
  | _ => none

/-- The members of a JSON object. -/
def obj? : Json → Option (List (String × Json))
  | obj members => some members
  | _ => none

/-- The integer that a JSON number is. -/
def int? : Json → Option Int
  | num (.int n) => some n
  | _ => none

/-- The truth value that a JSON value is. -/
def bool? : Json → Option Bool
  | bool b => some b
  | _ => none

end Json

end SumTree
