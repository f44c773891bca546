import SumTree.Json.Value
import SumTree.Text.Hex

/-!
# Writing JSON

Two forms of a JSON text. The *wire form* is what workers send: a space after every comma and colon
and ASCII alone, other characters escaped by their UTF-16 units. The *canonical form* is what is
hashed: no spaces, members sorted by name, and only what must be escaped escaped.

## Main Definitions

* `Json.wire` — the wire form.
* `Json.canonical` — the canonical form, or why the value has none.
* `Json.escapeMinimal`, `Json.escapeAscii` — one character inside a string of either form.

## Design Notes

A value has no canonical form when it holds an integer of too many digits or a string that is no
Unicode text. Members are sorted by code point, the order of `String`.
-/

namespace SumTree

namespace Json

/-- Why a value has no canonical form. -/
inductive WriteFault
  /-- An integer has too many digits. -/
  | tooLong
  /-- A string has an unpaired surrogate. -/
  | unencodable
  deriving Repr, DecidableEq

/-- A character as four hexadecimal digits after the mark of an escape. -/
def unitEscape (unit : Nat) : List Char :=
  '\\' :: 'u' :: Hex.padded 4 unit

/-- The escapes of one letter. -/
def shortEscape? (c : Char) : Option (List Char) :=
  if c == '"' then some ['\\', '"']
  else if c == '\\' then some ['\\', '\\']
  else if c == '\n' then some ['\\', 'n']
  else if c == '\r' then some ['\\', 'r']
  else if c == '\t' then some ['\\', 't']
  else if c.toNat == 8 then some ['\\', 'b']
  else if c.toNat == 12 then some ['\\', 'f']
  else none

/-- A character inside a string, escaped only where it must be. -/
def escapeMinimal (c : Char) : List Char :=
  match shortEscape? c with
  | some e => e
  | none => if c.toNat < 32 then unitEscape c.toNat else [c]

/-- The escapes of a code point above ASCII, two for one beyond the basic plane. -/
def pointEscapes (point : Nat) : List Char :=
  if point < 0x10000 then unitEscape point
  else
    let offset := point - 0x10000
    unitEscape (0xd800 + offset / 0x400) ++ unitEscape (0xdc00 + offset % 0x400)

/-- A character inside a string of ASCII alone. -/
def escapeAscii (c : Char) : List Char :=
  match shortEscape? c with
  | some e => e
  | none => if 32 ≤ c.toNat && c.toNat < 127 then [c] else pointEscapes c.toNat

/-- A string in its quotes, each character as `escape` writes it. -/
def quoted (escape : Char → List Char) (s : String) : List Char :=
  '"' :: (s.toList.flatMap escape ++ ['"'])

/-- The text of a double. The two infinities and no number have names. -/
def realText (x : Float) : String :=
  if x.isNaN then "NaN"
  else if x.isInf then (if x < 0 then "-Infinity" else "Infinity")
  else Real64.render x

/-- The text of a number. -/
def numberText : Number → String
  | .int n => Decimal.render n
  | .real x => realText x

/-- Texts with a separator between each two. -/
def joinWith (separator : List Char) : List (List Char) → List Char
  | [] => []
  | [text] => text
  | text :: rest => text ++ separator ++ joinWith separator rest

mutual

/-- The characters of the wire form. -/
def wireChars : Json → List Char
  | null => ['n', 'u', 'l', 'l']
  | bool true => ['t', 'r', 'u', 'e']
  | bool false => ['f', 'a', 'l', 's', 'e']
  | num n => (numberText n).toList
  | str s => quoted escapeAscii s
  | unpaired points =>
    '"' :: (points.flatMap fun p =>
      if p < 128 then escapeAscii (Char.ofNat p) else pointEscapes p) ++ ['"']
  | arr items => '[' :: (joinWith [',', ' '] (wireItems items) ++ [']'])
  | obj members => '{' :: (joinWith [',', ' '] (wireMembers members) ++ ['}'])

/-- The wire forms of the elements of an array. -/
def wireItems : List Json → List (List Char)
  | [] => []
  | item :: rest => wireChars item :: wireItems rest

/-- The wire forms of the members of an object. -/
def wireMembers : List (String × Json) → List (List Char)
  | [] => []
  | (name, value) :: rest =>
    (quoted escapeAscii name ++ [':', ' '] ++ wireChars value) :: wireMembers rest

end

/-- The wire form of a value. -/
def wire (v : Json) : String :=
  String.ofList (wireChars v)

/-- Whether one member comes before another in the canonical form. -/
def memberLe (a b : String × List Char) : Bool :=
  decide (a.1 ≤ b.1)

mutual

/-- The characters of the canonical form. -/
def canonicalChars : Json → Except WriteFault (List Char)
  | null => .ok ['n', 'u', 'l', 'l']
  | bool true => .ok ['t', 'r', 'u', 'e']
  | bool false => .ok ['f', 'a', 'l', 's', 'e']
  | num (.int n) =>
    match Decimal.write? n with
    | some s => .ok s.toList
    | none => .error .tooLong
  | num (.real x) => .ok (realText x).toList
  | str s => .ok (quoted escapeMinimal s)
  | unpaired _ => .error .unencodable
  | arr items => do
    let texts ← canonicalItems items
    return '[' :: (joinWith [','] texts ++ [']'])
  | obj members => do
    let pairs ← canonicalMembers members
    let texts := (pairs.mergeSort memberLe).map fun p => quoted escapeMinimal p.1 ++ ':' :: p.2
    return '{' :: (joinWith [','] texts ++ ['}'])

/-- The canonical forms of the elements of an array. -/
def canonicalItems : List Json → Except WriteFault (List (List Char))
  | [] => .ok []
  | item :: rest => do
    let text ← canonicalChars item
    let texts ← canonicalItems rest
    return text :: texts

/-- The names of an object's members with the canonical forms of their values. -/
def canonicalMembers : List (String × Json) → Except WriteFault (List (String × List Char))
  | [] => .ok []
  | (name, value) :: rest => do
    let text ← canonicalChars value
    let texts ← canonicalMembers rest
    return (name, text) :: texts

end

/-- The canonical form of a value, or why it has none. -/
def canonical (v : Json) : Except WriteFault String :=
  (canonicalChars v).map String.ofList

end Json

end SumTree
