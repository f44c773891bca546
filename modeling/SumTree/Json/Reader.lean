import SumTree.Json.Value
import SumTree.Text.Hex

/-!
# Reading JSON

A reader of JSON texts. It is strict about everything the grammar fixes — blanks, escapes, digits,
no trailing comma, nothing after the value — and admits beyond it only `NaN`, `Infinity` and
`-Infinity` as numbers. Where readers of JSON differ, a `Dialect` says which way it goes.

## Main Definitions

* `Json.Dialect` — how deep values may nest and whether unpaired surrogates are admitted.
* `Json.Complaint`, `Json.ReadFault` — why a text is not read.
* `Json.read` — the value of a text.

## Design Notes

The nesting limit is the recursion: a value with `depth` left reads its elements with one less. Every
loop inside a value is bounded by the number of characters of the text, which no loop can use up, so
that bound is never the reason for a refusal. Faults are found in reading order: the first one in the text
is reported.
-/

namespace SumTree

namespace Json

/-- What readers of JSON may differ in. -/
structure Dialect where
  /-- How many containers may surround a value. -/
  maxNesting : Nat
  /-- Whether a string may hold an unpaired surrogate. -/
  admitsUnpaired : Bool

/-- Where a text leaves the grammar: what is said about it, and how many characters are left there. -/
structure Complaint where
  what : String
  left : Nat
  deriving Repr, DecidableEq

/-- The text of a complaint about a document. -/
def Complaint.text (c : Complaint) (document : List Char) : String :=
  let before := document.take (document.length - c.left)
  let lead := if document.head? == some '\ufeff' then "Unexpected UTF-8 BOM (decode using utf-8-sig)"
    else c.what
  lead ++ ": line " ++ toString (before.count '\n' + 1)
    ++ " column " ++ toString ((before.reverse.takeWhile (· != '\n')).length + 1)
    ++ " (char " ++ toString before.length ++ ")"

/-- Why a text is not read as a JSON value. -/
inductive ReadFault
  /-- The text does not follow the grammar. -/
  | malformed (complaint : Complaint)
  /-- Values nest deeper than the dialect allows. -/
  | tooDeep
  /-- An integer has `digits` digits, more than the limit. -/
  | tooLong (digits : Nat)
  deriving Repr, DecidableEq

/-- A reader takes a value off the front of a text and leaves the rest. -/
abbrev Reader (α : Type) := List Char → Except ReadFault (α × List Char)

/-- A text leaves the grammar where `left` characters are left. -/
def refuse {α : Type} (what : String) (left : Nat) : Except ReadFault α :=
  .error (.malformed ⟨what, left⟩)

/-- One of the four blanks of JSON. -/
def isSpace (c : Char) : Bool :=
  c == ' ' || c == '\t' || c == '\n' || c == '\r'

/-- The text after the blanks at its front. -/
def skipSpace (cs : List Char) : List Char :=
  cs.dropWhile isSpace

/-- Whether a code point is the first half of a surrogate pair. -/
def isHigh (point : Nat) : Bool := 0xd800 ≤ point && point < 0xdc00

/-- Whether a code point is the second half of a surrogate pair. -/
def isLow (point : Nat) : Bool := 0xdc00 ≤ point && point < 0xe000

/-- Code points with every surrogate pair joined to the point that it stands for. -/
def joinPairs : List Nat → List Nat
  | high :: low :: rest =>
    if isHigh high && isLow low then
      (0x10000 + 0x400 * (high - 0xd800) + (low - 0xdc00)) :: joinPairs rest
    else high :: joinPairs (low :: rest)
  | points => points

/-- The letters of the short escapes, each with the code point that it stands for. -/
def shortEscapes : List (Char × Nat) :=
  [('"', 34), ('\\', 92), ('/', 47), ('b', 8), ('f', 12), ('n', 10), ('r', 13), ('t', 9)]

/-- The code points of a string's body up to its closing quote, and what follows that; `done` holds
those already read, the latest first, and `begun` characters are left at the opening quote. An escape by
code point that ends the text is faulty. -/
def readPoints (begun : Nat) (done : List Nat) : Reader (List Nat)
  | [] => refuse "Unterminated string starting at" begun
  | '"' :: rest => .ok (done.reverse, rest)
  | '\\' :: 'u' :: a :: b :: c :: d :: rest =>
    if [a, b, c, d].all Hex.isDigit && !rest.isEmpty then
      readPoints begun (Hex.toNat [a, b, c, d] :: done) rest
    else refuse "Invalid \\uXXXX escape" (rest.length + 5)
  | '\\' :: c :: rest =>
    match shortEscapes.lookup c with
    | some point => readPoints begun (point :: done) rest
    | none =>
      if c == 'u' then refuse "Invalid \\uXXXX escape" (rest.length + 1)
      else refuse "Invalid \\escape" (rest.length + 2)
  | c :: rest =>
    if c.toNat < 32 then refuse "Invalid control character at" (rest.length + 1)
    else readPoints begun (c.toNat :: done) rest

/-- A string after its opening quote, as a JSON value. -/
def readString (dialect : Dialect) : Reader Json := fun cs => do
  let (points, rest) ← readPoints (cs.length + 1) [] cs
  let joined := joinPairs points
  if joined.all fun p => !(isHigh p || isLow p) then
    return (.str (String.ofList (joined.map Char.ofNat)), rest)
  else if dialect.admitsUnpaired then return (.unpaired joined, rest)
  else refuse "Unpaired surrogate in string starting at" (cs.length + 1)

/-- The name of a member. An unpaired surrogate in it becomes the replacement character, so that
such a name is never one that a record asks for. -/
def nameOf : Json → String
  | str s => s
  | unpaired points =>
    String.ofList (points.map fun p => if isHigh p || isLow p then '\ufffd' else Char.ofNat p)
  | _ => ""

/-- Whether a minus stands in front of a number, and what follows it. -/
def splitMinus : List Char → Bool × List Char
  | '-' :: rest => (true, rest)
  | cs => (false, cs)

/-- The digits before the point of a number: a zero alone, or digits without a zero in front. Without
them there is no value where `begun` characters are left. -/
def wholeDigits (begun : Nat) : List Char → Except ReadFault (List Char)
  | '0' :: _ => .ok ['0']
  | c :: rest =>
    if Digit.isAscii c then .ok ((c :: rest).takeWhile Digit.isAscii)
    else refuse "Expecting value" begun
  | [] => refuse "Expecting value" begun

/-- The fraction of a number with its point, and what follows it. A point without digits behind it
belongs to no number. -/
def splitFraction : List Char → List Char × List Char
  | '.' :: rest =>
    let ds := rest.takeWhile Digit.isAscii
    if ds.isEmpty then ([], '.' :: rest) else ('.' :: ds, rest.drop ds.length)
  | cs => ([], cs)

/-- The exponent of a number with its mark, and what follows it. A mark without digits behind it
belongs to no number. -/
def splitPower : List Char → List Char × List Char
  | e :: rest =>
    if e == 'e' || e == 'E' then
      let (sign, after) := match rest with
        | '+' :: tail => (['+'], tail)
        | '-' :: tail => (['-'], tail)
        | tail => ([], tail)
      let ds := after.takeWhile Digit.isAscii
      if ds.isEmpty then ([], e :: rest) else ('e' :: (sign ++ ds), after.drop ds.length)
    else ([], e :: rest)
  | [] => ([], [])

/-- A number: an integer unless it has a fraction or an exponent. -/
def readNumber : Reader Json := fun cs => do
  let begun := cs.length
  let (negative, cs) := splitMinus cs
  let whole ← wholeDigits begun cs
  let (fraction, rest) := splitFraction (cs.drop whole.length)
  let (power, rest) := splitPower rest
  if fraction.isEmpty && power.isEmpty then
    if whole.length > Decimal.maxDigits then .error (.tooLong whole.length)
    else
      let magnitude : Int := Decimal.ofDigits whole
      return (.int (if negative then -magnitude else magnitude), rest)
  else
    match Real64.readDigits? (whole ++ fraction ++ power) with
    | some x => return (.num (.real (if negative then -x else x)), rest)
    | none => refuse "Expecting value" begun

/-- What follows `word` at the front of a text. -/
def afterWord? (word : String) (cs : List Char) : Option (List Char) :=
  if word.toList.isPrefixOf cs then some (cs.drop word.length) else none

/-- The words that stand for a value. -/
def words : List (String × Json) :=
  [("null", .null), ("true", .bool true), ("false", .bool false),
    ("NaN", .num (.real (0.0 / 0.0))), ("Infinity", .num (.real (1.0 / 0.0))),
    ("-Infinity", .num (.real (-1.0 / 0.0)))]

/-- A word or a number. -/
def readScalar : Reader Json := fun cs =>
  match words.findSome? fun w => (afterWord? w.1 cs).map fun rest => (w.2, rest) with
  | some found => .ok found
  | none => readNumber cs

/-- The elements of an array after the first blank behind its bracket or a comma, up to the closing
bracket. -/
def readItems (item : Reader Json) : Nat → List Json → Reader (List Json)
  | 0, _, cs => refuse "Expecting value" (skipSpace cs).length
  | fuel + 1, done, cs => do
    let (value, rest) ← item (skipSpace cs)
    match skipSpace rest with
    | ',' :: rest => readItems item fuel (value :: done) rest
    | ']' :: rest => return ((value :: done).reverse, rest)
    | rest => refuse "Expecting ',' delimiter" rest.length

/-- The members of an object after its brace or a comma, up to the closing brace. -/
def readMembers (dialect : Dialect) (item : Reader Json) :
    Nat → List (String × Json) → Reader (List (String × Json))
  | 0, _, cs => refuse "Expecting value" (skipSpace cs).length
  | fuel + 1, done, cs => do
    match skipSpace cs with
    | '"' :: rest =>
      let (name, rest) ← readString dialect rest
      match skipSpace rest with
      | ':' :: rest =>
        let (value, rest) ← item (skipSpace rest)
        let done := (nameOf name, value) :: done
        match skipSpace rest with
        | ',' :: rest => readMembers dialect item fuel done rest
        | '}' :: rest => return (done.reverse, rest)
        | rest => refuse "Expecting ',' delimiter" rest.length
      | rest => refuse "Expecting ':' delimiter" rest.length
    | rest => refuse "Expecting property name enclosed in double quotes" rest.length

/-- A value that may hold `depth` containers inside each other, at the front of a text of at most
`size` characters. -/
def readValue (dialect : Dialect) (size : Nat) : Nat → Reader Json
  | depth, '"' :: rest => match depth with | _ => readString dialect rest
  | 0, '[' :: rest =>
    match skipSpace rest with
    | ']' :: rest => .ok (.arr [], rest)
    | _ => .error .tooDeep
  | 0, '{' :: rest =>
    match skipSpace rest with
    | '}' :: rest => .ok (.obj [], rest)
    | _ => .error .tooDeep
  | depth + 1, '[' :: rest =>
    match skipSpace rest with
    | ']' :: rest => .ok (.arr [], rest)
    | rest => do
      let (items, rest) ← readItems (readValue dialect size depth) (size + 1) [] rest
      return (.arr items, rest)
  | depth + 1, '{' :: rest =>
    match skipSpace rest with
    | '}' :: rest => .ok (.obj [], rest)
    | rest => do
      let (members, rest) ←
        readMembers dialect (readValue dialect size depth) (size + 1) [] rest
      return (.obj members, rest)
  | _, cs => readScalar cs

/-- The value of a whole text, blanks around it allowed. -/
def readChars (dialect : Dialect) (cs : List Char) : Except ReadFault Json := do
  let (value, rest) ← readValue dialect cs.length dialect.maxNesting (skipSpace cs)
  if (skipSpace rest).isEmpty then return value
  else refuse "Extra data" (skipSpace rest).length

/-- The value of a whole text. -/
def read (dialect : Dialect) (s : String) : Except ReadFault Json :=
  readChars dialect s.toList

end Json

end SumTree
