import SumTree.Fault

/-!
# Worker addresses

A worker is addressed by a URL. A host is read in lower case, and a port that the scheme implies
counts as absent.

## Main Definitions

* `Address` — the parts of a URL that matter to a worker.
* `Address.parse?` — the parts of a text, or nothing when it is no URL.
* `Address.endpoint` — the host and port that a worker is reached at.
* `Address.base` — the URL that requests are sent to.
-/

namespace SumTree

/-- The parts of a URL that matter to a worker. -/
structure Address where
  scheme : String
  /-- Whether the text has a part for the host, even an empty one. -/
  hasAuthority : Bool
  host : String
  port? : Option Int
  /-- The path and what follows it. -/
  path : String
  deriving Repr, DecidableEq

namespace Address

/-- The ports that schemes imply. -/
def impliedPorts : List (String × Int) :=
  [("ftp", 21), ("http", 80), ("https", 443), ("ws", 80), ("wss", 443)]

/-- A letter of ASCII. -/
def isLetter (c : Char) : Bool :=
  ('a' ≤ c && c ≤ 'z') || ('A' ≤ c && c ≤ 'Z')

/-- A character of a scheme after its first letter. -/
def isSchemePart (c : Char) : Bool :=
  isLetter c || Digit.isAscii c || c == '+' || c == '.' || c == '-'

/-- The scheme in front of a text, and what follows its colon. -/
def splitScheme (cs : List Char) : List Char × List Char :=
  match cs with
  | c :: _ =>
    if isLetter c then
      match cs.dropWhile isSchemePart with
      | ':' :: rest => (cs.takeWhile isSchemePart, rest)
      | _ => ([], cs)
    else ([], cs)
  | [] => ([], cs)

/-- The number of an octet: one to three digits without needless zeros, below 256. -/
def isOctet (cs : List Char) : Bool :=
  !cs.isEmpty && cs.length ≤ 3 && cs.all Digit.isAscii && (cs.length == 1 || cs.head? != some '0')
    && Decimal.ofDigits cs < 256

/-- The parts of a list of characters between the places of one character. -/
def splitAt (mark : Char) : List Char → List (List Char)
  | [] => [[]]
  | c :: cs =>
    if c == mark then [] :: splitAt mark cs
    else match splitAt mark cs with
      | part :: parts => (c :: part) :: parts
      | [] => [[c]]

/-- Four octets with points between them. -/
def isIPv4 (cs : List Char) : Bool :=
  let parts := splitAt '.' cs
  parts.length == 4 && parts.all isOctet

/-- Whether a host looks like four numbers, so that it must be four octets. -/
def looksNumeric (cs : List Char) : Bool :=
  let others := cs.filter fun c => !Digit.isAscii c
  let parts := cs.splitBy fun a b => Digit.isAscii a && Digit.isAscii b
  (others.isEmpty && cs.length ≥ 7)
    || (others.length == 3 && parts.length == 7 && (cs.head?.map Digit.isAscii).getD false)

/-- A group of one to four hexadecimal digits. -/
def isGroup (cs : List Char) : Bool :=
  !cs.isEmpty && cs.length ≤ 4 && cs.all Hex.isDigit

/-- Eight groups, of which one run of zeros may be left out. -/
def isIPv6 (cs : List Char) : Bool :=
  let text := String.ofList (cs.takeWhile (· != '%'))
  let sizeOf (part : String) : Option Nat :=
    if part.isEmpty then some 0
    else
      let groups := (part.splitOn ":").map String.toList
      let tail := groups.getLastD []
      if isIPv4 tail && groups.dropLast.all isGroup then some (groups.length + 1)
      else if groups.all isGroup then some groups.length
      else none
  match text.splitOn "::" with
  | [part] => sizeOf part == some 8
  | [front, back] =>
    match sizeOf front, sizeOf back with
    | some a, some b => a + b ≤ 7
    | _, _ => false
  | _ => false

/-- A character that stands in a host as it is. -/
def isHostPart (c : Char) : Bool :=
  isLetter c || Digit.isAscii c || "-._~!$&'()*+,;=%".contains c

/-- A host as it is used: in lower case, and characters that no host has escaped. -/
def normalizeHost (cs : List Char) : Option String :=
  match cs with
  | '[' :: rest =>
    if rest.getLast? == some ']' && isIPv6 rest.dropLast then some (String.ofList rest.dropLast)
    else none
  | _ =>
    if looksNumeric cs then if isIPv4 cs then some (String.ofList cs) else none
    else some (String.ofList (cs.flatMap fun c =>
      if isHostPart c || c.toNat ≥ 128 then [c.toLower]
      else '%' :: (Hex.padded 2 c.toNat).map Char.toUpper))

/-- The host and what follows it in the part for the host. -/
def splitHost (cs : List Char) : List Char × List Char :=
  let named := match (splitAt '@' cs).reverse with
    | last :: _ :: _ => last
    | _ => cs
  match named with
  | '[' :: _ =>
    let inner := named.takeWhile (· != ']')
    if inner.length < named.length then (inner ++ [']'], named.drop (inner.length + 1))
    else ([], named)
  | _ => (named.takeWhile (· != ':'), named.dropWhile (· != ':'))

/-- The port behind a host: nothing when none is written or the scheme implies it. The outer layer
says whether it can be read. -/
def readPort (scheme : String) (cs : List Char) : Option (Option Int) :=
  let digits := match cs with
    | ':' :: rest => rest
    | rest => rest
  if digits.isEmpty then some none
  else match Decimal.read (String.ofList digits) with
    | .ok port => some (if impliedPorts.lookup scheme == some port then none else some port)
    | .error _ => none

/-- The parts of a text, or nothing when it is no URL. -/
def parse? (s : String) : Option Address :=
  let cs := s.toList
  if cs.any fun c => c.toNat < 32 || c.toNat == 127 then none
  else
    let (schemeChars, rest) := splitScheme cs
    let scheme := (String.ofList schemeChars).toLower
    match rest with
    | '/' :: '/' :: rest =>
      let isEnd (c : Char) : Bool := c == '/' || c == '?' || c == '#'
      let (hostChars, portChars) := splitHost (rest.takeWhile fun c => !isEnd c)
      match normalizeHost hostChars, readPort scheme portChars with
      | some host, some port? =>
        some ⟨scheme, true, host, port?, String.ofList (rest.dropWhile fun c => !isEnd c)⟩
      | _, _ => none
    | ':' :: _ => if scheme.isEmpty then none else some ⟨scheme, false, "", none, String.ofList rest⟩
    | _ => some ⟨scheme, false, "", none, String.ofList rest⟩

/-- The text of an address. -/
def render (a : Address) : String :=
  let host := if a.host.contains ':' then "[" ++ a.host ++ "]" else a.host
  let port := match a.port? with
    | some p => ":" ++ Decimal.render p
    | none => ""
  (if a.scheme.isEmpty then "" else a.scheme ++ ":")
    ++ (if a.hasAuthority then "//" ++ host ++ port else "") ++ a.path

/-- A text without the slashes at its end. -/
def dropSlashes (s : String) : String :=
  String.ofList (s.toList.reverse.dropWhile (· == '/')).reverse

/-- The URL that requests to a base address are sent to, or nothing when it is none. -/
def base? (address : String) : Option Address :=
  parse? (dropSlashes address ++ "/")

/-- Why an address has no endpoint. -/
inductive EndpointFault
  /-- The text is no URL. -/
  | notAUrl
  | value (fault : ValueFault)
  deriving Repr, DecidableEq

/-- The host and port that a worker is reached at. -/
def endpoint (s : String) : Except EndpointFault (String × Int) :=
  match parse? s with
  | none => .error .notAUrl
  | some a =>
    match a.port? with
    | some port => if a.host.isEmpty then .error (.value (.address s)) else .ok (a.host, port)
    | none => .error (.value (.address s))

end Address

end SumTree
