import SumTree.Schema.Check

/-!
# Checks of choices and maps

## Main Definitions

* `Check.choice` — one of some named values.
* `Check.constant` — one fixed text.
* `Check.map` — an object whose names are integers.
-/

namespace SumTree

namespace Check

/-- One of some named values. -/
def choice {α : Type} (ofName? : String → Option α) (v : Json) : Checked α :=
  match v with
  | .str s =>
    match ofName? s with
    | some a => .ok a
    | none => Checked.fail .notAChoice
  | _ => Checked.fail .notAChoice

/-- One fixed text. -/
def constant (expected : String) (v : Json) : Checked Unit :=
  match v with
  | .str s => if s == expected then .ok () else Checked.fail .notTheConstant
  | _ => Checked.fail .notTheConstant

/-- Enters a value under a number, in the place of the one that is there. -/
def put {α : Type} (n : Int) (a : α) (entries : List (Int × α)) : List (Int × α) :=
  if entries.any (·.1 == n) then entries.map fun e => if e.1 == n then (n, a) else e
  else entries ++ [(n, a)]

/-- The members of an object without those that a later one of the same name replaces. -/
def distinct (members : List (String × Json)) : List (String × Json) :=
  members.foldl
    (fun kept m =>
      if kept.any (·.1 == m.1) then kept.map fun k => if k.1 == m.1 then m else k
      else kept ++ [m])
    []

/-- The members of an object whose names are integers and whose values pass a check. An issue of a
name is found one step below the member. -/
def mapMembers {α : Type} (check : Json → Checked α) :
    List (String × Json) → Checked (List (Int × α))
  | [] => .ok []
  | (name, v) :: rest =>
    let number := Checked.under (.field name)
      (Checked.under (.field "[key]") (integer (.str name)))
    let value := Checked.under (.field name) (check v)
    (Checked.both (Checked.both number value) (mapMembers check rest)).map fun p => p.1 :: p.2

/-- An object whose names are integers; of two names of one integer the later counts. -/
def map {α : Type} (check : Json → Checked α) : Json → Checked (List (Int × α))
  | .obj members =>
    (mapMembers check (distinct members)).map fun pairs =>
      pairs.foldl (fun entries p => put p.1 p.2 entries) []
  | _ => Checked.fail .mapExpected

end Check

end SumTree
