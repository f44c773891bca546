import SumTree.Schema.Issue
import SumTree.Text.Blank

/-!
# Checks of single values

What counts as a string, a list, an integer, a truth value or a double in a document. Integers,
truth values and doubles are also read from strings and from each other, as far as no information is
lost.

## Main Definitions

* `Check.text`, `Check.list`, `Check.integer`, `Check.truth`, `Check.double` — the checks.
* `Check.required`, `Check.optional` — the check of an object's member.
-/

namespace SumTree

namespace Check

/-- The text of a string. In a string that is no Unicode text the unpaired surrogates are shown as
replacement characters. -/
def textOf? : Json → Option String
  | .str s => some s
  | .unpaired points =>
    some (String.ofList (points.map fun p =>
      if 0xd800 ≤ p && p < 0xe000 then '\ufffd' else Char.ofNat p))
  | _ => none

/-- A string. -/
def text (v : Json) : Checked String :=
  match textOf? v with
  | some s => .ok s
  | none => Checked.fail .stringExpected

/-- A list whose elements pass a check. -/
def list {α : Type} (check : Json → Checked α) : Json → Checked (List α)
  | .arr items => Checked.items check 0 items
  | _ => Checked.fail .listExpected

/-- White space around a number: that of Unicode without the information separators. -/
def isSpace (c : Char) : Bool :=
  Blank.isBlank c && !(28 ≤ c.toNat && c.toNat ≤ 31)

/-- The integer of a numeral: digits with single underscores between them, a sign, white space
around it, and a fraction of nothing but zeros. -/
def intNumeral (s : String) : Checked Int :=
  let (negative, cs) := Decimal.splitSign (Blank.strip isSpace s.toList)
  let isPart (c : Char) : Bool := Digit.isAscii c || c == '_'
  let fractionIsZero : Bool :=
    match cs.dropWhile isPart with
    | [] => true
    | '.' :: zeros => !zeros.isEmpty && zeros.all (· == '0')
    | _ => false
  match Decimal.joinDigits false (cs.takeWhile isPart) with
  | some digits =>
    if !fractionIsZero then Checked.fail .intNumeral
    else
      let significant := digits.dropWhile (· == '0')
      if significant.length > Decimal.maxDigits then Checked.fail .intTooLong
      else
        let n : Int := Decimal.ofDigits significant
        .ok (if negative then -n else n)
  | none => Checked.fail .intNumeral

/-- An integer. A double counts when it has no fraction and fits into 64 bits. -/
def integer : Json → Checked Int
  | .num (.int n) => .ok n
  | .bool b => .ok (if b then 1 else 0)
  | .num (.real x) =>
    if x.isNaN || x.isInf then Checked.fail .notFinite
    else match Real64.toInt? x with
      | some n => if n.natAbs < 0x8000000000000000 then .ok n else Checked.fail .intTooLong
      | none => Checked.fail .fractionFound
  | .str s => intNumeral s
  | .unpaired _ => Checked.fail .intNumeral
  | _ => Checked.fail .intExpected

/-- An integer from zero on. -/
def natural (v : Json) : Checked Int :=
  match integer v with
  | .ok n => if n < 0 then Checked.fail .belowMinimum else .ok n
  | .error issues => .error issues

/-- The words for no and for yes. -/
def truthWords : List (String × Bool) :=
  [("0", false), ("off", false), ("f", false), ("false", false), ("n", false), ("no", false),
   ("1", true), ("on", true), ("t", true), ("true", true), ("y", true), ("yes", true)]

/-- A truth value. -/
def truth : Json → Checked Bool
  | .bool b => .ok b
  | .num (.int n) =>
    if n == 0 then .ok false else if n == 1 then .ok true else Checked.fail .boolWord
  | .num (.real x) =>
    if x == 0.0 then .ok false else if x == 1.0 then .ok true else Checked.fail .boolExpected
  | .str s =>
    match truthWords.lookup (String.ofList (s.toList.map Char.toLower)) with
    | some b => .ok b
    | none => Checked.fail .boolWord
  | .unpaired _ => Checked.fail .boolWord
  | _ => Checked.fail .boolExpected

/-- A double. -/
def double : Json → Checked Float
  | .num n => .ok n.toFloat
  | .bool b => .ok (if b then 1.0 else 0.0)
  | .str s =>
    match Real64.read? s with
    | some x => .ok x
    | none => Checked.fail .floatNumeral
  | .unpaired _ => Checked.fail .floatNumeral
  | _ => Checked.fail .floatExpected

/-- Null, or a value that passes a check. -/
def nullable {α : Type} (check : Json → Checked α) : Json → Checked (Option α)
  | .null => .ok none
  | v => (check v).map some

/-- A member that must be there. -/
def required {α : Type} (record : Json) (name : String) (check : Json → Checked α) : Checked α :=
  Checked.under (.field name) <|
    match record.get? name with
    | some v => check v
    | none => Checked.fail .missing

/-- A member that has a default. -/
def optional {α : Type} (record : Json) (name : String) (default : α) (check : Json → Checked α) :
    Checked α :=
  match record.get? name with
  | some v => Checked.under (.field name) (check v)
  | none => .ok default

/-- A document that must be an object, checked by `check`. -/
def record {α : Type} (check : Json → Checked α) (v : Json) : Checked α :=
  match v with
  | .obj _ => check v
  | _ => Checked.fail .recordExpected

end Check

end SumTree
