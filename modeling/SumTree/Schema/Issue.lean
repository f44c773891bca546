import SumTree.Json.Value

/-!
# Issues of a record

A document is checked against the shape of a record as a whole: every field is looked at and every
issue reported, in the order of the fields. An issue says what is wrong and where.

## Main Definitions

* `Issue` — what is wrong, and the steps that lead to it.
* `Checked` — a value, or the issues that stand in its way.
* `Checked.both` — two checks of which the issues of both are reported.
* `Checked.items` — the checks of a list's elements.
-/

namespace SumTree

/-- What can be wrong with a part of a document. -/
inductive IssueKind
  | missing
  | recordExpected
  | stringExpected
  | listExpected
  | mapExpected
  | intExpected
  | intNumeral
  | intTooLong
  | fractionFound
  | notFinite
  | belowMinimum
  | boolExpected
  | boolWord
  | floatExpected
  | floatNumeral
  | notAChoice
  | notTheConstant
  | notJson
  /-- A rule of the record refuses the value. -/
  | rule
  deriving Repr, DecidableEq

namespace IssueKind

/-- The name under which an issue is reported. -/
def label : IssueKind → String
  | missing => "missing"
  | recordExpected => "model_type"
  | stringExpected => "string_type"
  | listExpected => "list_type"
  | mapExpected => "dict_type"
  | intExpected => "int_type"
  | intNumeral => "int_parsing"
  | intTooLong => "int_parsing_size"
  | fractionFound => "int_from_float"
  | notFinite => "finite_number"
  | belowMinimum => "greater_than_equal"
  | boolExpected => "bool_type"
  | boolWord => "bool_parsing"
  | floatExpected => "float_type"
  | floatNumeral => "float_parsing"
  | notAChoice => "enum"
  | notTheConstant => "literal_error"
  | notJson => "json_invalid"
  | rule => "value_error"

end IssueKind

/-- One step from a document to a part of it. -/
inductive Step
  | field (name : String)
  | item (index : Nat)
  deriving Repr, DecidableEq

/-- What is wrong with a document, and where. -/
structure Issue where
  kind : IssueKind
  /-- The steps from the document to the part that is wrong. -/
  path : List Step
  /-- What the rule that refuses the value says. -/
  detail : Option String
  deriving Repr, DecidableEq

namespace Issue

/-- An issue of the document itself. -/
def here (kind : IssueKind) : Issue :=
  ⟨kind, [], none⟩

/-- An issue of a part, seen from what holds the part. -/
def under (step : Step) (issue : Issue) : Issue :=
  { issue with path := step :: issue.path }

end Issue

/-- A value, or the issues that stand in its way. -/
abbrev Checked (α : Type) := Except (List Issue) α

namespace Checked

/-- A single issue of the document itself. -/
def fail {α : Type} (kind : IssueKind) : Checked α :=
  .error [Issue.here kind]

/-- A refusal by a rule of the record, with what the rule says. -/
def refuse {α : Type} (text : String) : Checked α :=
  .error [⟨.rule, [], some ("Value error, " ++ text)⟩]

/-- A check of a part, its issues seen from what holds the part. -/
def under {α : Type} (step : Step) : Checked α → Checked α
  | .ok a => .ok a
  | .error issues => .error (issues.map (Issue.under step))

/-- Two checks; the issues of both are reported, those of the first one first. -/
def both {α β : Type} : Checked α → Checked β → Checked (α × β)
  | .ok a, .ok b => .ok (a, b)
  | .ok _, .error ys => .error ys
  | .error xs, .ok _ => .error xs
  | .error xs, .error ys => .error (xs ++ ys)

/-- The checks of the elements of a list, their positions counted from `index`. -/
def items {α : Type} (check : Json → Checked α) (index : Nat) : List Json → Checked (List α)
  | [] => .ok []
  | v :: vs =>
    (both (under (.item index) (check v)) (items check (index + 1) vs)).map fun p => p.1 :: p.2

end Checked

end SumTree
