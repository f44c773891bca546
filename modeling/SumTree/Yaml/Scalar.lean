import SumTree.Compose.Document
import SumTree.Failure

/-!
# Plain scalars

What a plain scalar of YAML 1.1 means: a truth value, a double, an integer in base two, eight, ten,
sixteen or sixty, the merge key, null, a date, or else a text.

## Main Definitions

* `Scalar` — what a plain scalar means.
* `Scalar.ofPlain` — the meaning of a text.
* `Scalar.integer?`, `Scalar.double?` — the numerals.

## Design Notes

The forms are tried in the order in which they are listed above; underscores between the digits of a
numeral do not count.
-/

namespace SumTree

namespace Yaml

/-- Why a text is not read. -/
inductive Fault
  /-- The text is no document. -/
  | malformed
  /-- A value of the document cannot be made. -/
  | unusable (failure : Failure)
  deriving Repr, DecidableEq

/-- What a plain scalar means. -/
inductive Scalar
  | value (d : Document)
  /-- The key under which mappings are merged. -/
  | merge

namespace Scalar

/-- The words for no and for yes. -/
def truthWords : List (String × Bool) :=
  [("yes", true), ("Yes", true), ("YES", true), ("no", false), ("No", false), ("NO", false),
   ("true", true), ("True", true), ("TRUE", true), ("false", false), ("False", false),
   ("FALSE", false), ("on", true), ("On", true), ("ON", true), ("off", false), ("Off", false),
   ("OFF", false)]

/-- The words for null. -/
def nullWords : List String :=
  ["", "~", "null", "Null", "NULL"]

/-- A sign, if there is one, as a factor, and what follows it. -/
def splitSign : List Char → Int × List Char
  | '-' :: cs => (-1, cs)
  | '+' :: cs => (1, cs)
  | cs => (1, cs)

/-- A digit or an underscore. -/
def isDigitPart (c : Char) : Bool :=
  Digit.isAscii c || c == '_'

/-- The characters without underscores. -/
def dropUnderscores (cs : List Char) : List Char :=
  cs.filter (· != '_')

/-- The number of digits in a base of at most sixteen. -/
def ofBase (base : Nat) (cs : List Char) : Nat :=
  cs.foldl (fun n c => base * n + (Hex.digitValue? c).getD 0) 0

/-- The parts of a numeral in base sixty, or nothing when it is none: digits, then at least one part
of one or two digits below sixty. -/
def sixtyParts? (isFirst : List Char → Bool) (cs : List Char) : Option (List (List Char)) :=
  match ((String.ofList cs).splitOn ":").map String.toList with
  | first :: rest@(_ :: _) =>
    let isPart (p : List Char) : Bool :=
      match p with
      | [a] => Digit.isAscii a
      | [a, b] => '0' ≤ a && a ≤ '5' && Digit.isAscii b
      | _ => false
    if isFirst first && rest.all isPart then some (first :: rest) else none
  | _ => none

/-- The number of parts in base sixty. -/
def ofSixty (parts : List (List Char)) : Nat :=
  parts.foldl (fun n p => 60 * n + Decimal.ofDigits (dropUnderscores p)) 0

/-- Digits of which the first is not zero. -/
def isDecimal (cs : List Char) : Bool :=
  match cs with
  | c :: rest => Digit.isAscii c && c != '0' && rest.all isDigitPart
  | [] => false

/-- The integer of a decimal numeral, refused when it has too many digits. -/
def decimal (sign : Int) (cs : List Char) : Except Fault Int :=
  let digits := dropUnderscores cs
  if digits.length > Decimal.maxDigits then
    .error (.unusable (.value (.tooLongToRead digits.length)))
  else .ok (sign * Decimal.ofDigits digits)

/-- The integer of a numeral, if the text is one. -/
def integer? (s : String) : Option (Except Fault Int) :=
  let (sign, cs) := splitSign s.toList
  match cs with
  | ['0'] => some (.ok 0)
  | '0' :: 'b' :: ds =>
    if !ds.isEmpty && ds.all (fun c => c == '0' || c == '1' || c == '_') then
      some (.ok (sign * ofBase 2 (dropUnderscores ds)))
    else none
  | '0' :: 'x' :: ds =>
    if !ds.isEmpty && ds.all (fun c => Hex.isDigit c || c == '_') then
      some (.ok (sign * ofBase 16 (dropUnderscores ds)))
    else none
  | '0' :: ds =>
    if ds.all (fun c => ('0' ≤ c && c ≤ '7') || c == '_') then
      some (.ok (sign * ofBase 8 (dropUnderscores ds)))
    else none
  | cs =>
    if isDecimal cs then some (decimal sign cs)
    else (sixtyParts? isDecimal cs).map fun parts => .ok (sign * ofSixty parts)

/-- Whether a text is an exponent or empty: a mark, a sign and digits. -/
def isExponent : List Char → Bool
  | [] => true
  | e :: sign :: ds =>
    (e == 'e' || e == 'E') && (sign == '-' || sign == '+') && !ds.isEmpty && ds.all Digit.isAscii
  | _ => false

/-- Digits of which the first is no underscore. -/
def isNumber (cs : List Char) : Bool :=
  match cs with
  | c :: rest => Digit.isAscii c && rest.all isDigitPart
  | [] => false

/-- The double of a numeral without underscores. -/
def readDouble (sign : Int) (cs : List Char) : Option Float :=
  (Real64.read? (String.ofList (dropUnderscores cs))).map fun x => if sign < 0 then -x else x

/-- The double of a numeral with a point, if the text is one. -/
def double? (s : String) : Option Float :=
  let cs := s.toList
  let (sign, body) := splitSign cs
  let word := String.ofList body
  if [".inf", ".Inf", ".INF"].contains word then
    some (if sign < 0 then -1.0 / 0.0 else 1.0 / 0.0)
  else if [".nan", ".NaN", ".NAN"].contains s then some (0.0 / 0.0)
  else
    let front := body.takeWhile fun c => isDigitPart c || c == ':'
    match body.drop front.length with
    | '.' :: rest =>
      let fraction := rest.takeWhile isDigitPart
      let power := rest.drop fraction.length
      if isNumber front && isExponent power then readDouble sign body
      else if front.isEmpty && isNumber fraction && isExponent power && cs.head? == some '.' then
        readDouble 1 body
      else if power.isEmpty then
        (sixtyParts? isNumber front).bind fun parts =>
          (readDouble 1 (Decimal.digits (ofSixty parts) ++ '.' :: fraction ++ ['0'])).map fun x =>
            if sign < 0 then -x else x
      else none
    | _ => none

/-- The days of a month. -/
def daysOf (year month : Nat) : Nat :=
  if month == 2 then
    if year % 4 == 0 && (year % 100 != 0 || year % 400 == 0) then 29 else 28
  else if [4, 6, 9, 11].contains month then 30 else 31

/-- The date of a text of four, two and two digits with hyphens between them, if it is of that form.
A date that is in no calendar cannot be made. -/
def date? (s : String) : Option (Except Fault Document) :=
  match (s.splitOn "-").map String.toList with
  | [y, m, d] =>
    if y.length == 4 && m.length == 2 && d.length == 2 && (y ++ m ++ d).all Digit.isAscii then
      let (year, month, day) := (Decimal.ofDigits y, Decimal.ofDigits m, Decimal.ofDigits d)
      let refuse (text : String) : Except Fault Document := .error (.unusable (.value (.other text)))
      if year == 0 then
        some (refuse "year 0 is out of range")
      else if month == 0 || month > 12 then some (refuse "month must be in 1..12")
      else if day == 0 || day > daysOf year month then
        some (refuse "day is out of range for month")
      else
        some (.ok (.other "date" s ("datetime.date(" ++ toString year ++ ", " ++ toString month
          ++ ", " ++ toString day ++ ")")))
    else none
  | _ => none

/-- The meaning of a plain scalar. -/
def ofPlain (s : String) : Except Fault Scalar :=
  match truthWords.lookup s with
  | some b => .ok (.value (.bool b))
  | none =>
    match double? s with
    | some x => .ok (.value (.real x))
    | none =>
      match integer? s with
      | some result => result.map fun n => .value (.int n)
      | none =>
        if s == "<<" then .ok .merge
        else if nullWords.contains s then .ok (.value .null)
        else
          match date? s with
          | some result => result.map .value
          | none => if s == "=" then .error .malformed else .ok (.value (.text s))

/-- The meaning of a scalar with a tag, of which only the standard ones are known. -/
def ofTagged (tag : String) (s : String) : Except Fault Scalar :=
  match tag with
  | "str" | "!" => .ok (.value (.text s))
  | "null" => .ok (.value .null)
  | "bool" =>
    match truthWords.find? fun w => w.1.toLower == s.toLower with
    | some w => .ok (.value (.bool w.2))
    | none => .error (.unusable (.elsewhere "KeyError" (Quoted.quote s.toLower)))
  | "int" =>
    match integer? s with
    | some result => result.map fun n => .value (.int n)
    | none =>
      match Decimal.parse (String.ofList (dropUnderscores s.toList)) with
      | .ok n => .ok (.value (.int n))
      | .error fault => .error (.unusable (.value fault))
  | "float" =>
    match double? s with
    | some x => .ok (.value (.real x))
    | none =>
      match Real64.read? (String.ofList (dropUnderscores s.toList)) with
      | some x => .ok (.value (.real x))
      | none =>
        .error (.unusable (.value (.other ("could not convert string to float: "
          ++ Quoted.quote s.toLower))))
  | _ => .error .malformed

end Scalar

end Yaml

end SumTree
