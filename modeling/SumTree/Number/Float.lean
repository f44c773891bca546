import SumTree.Number.Decimal

/-!
# Floating-point numbers as text

A finite double is written with the fewest decimal digits that read back as the same double, of two
such decimals the nearer one. The digits are found by exact arithmetic: the double is m · 2^q, the
reals that round to it form an interval around it, and for one digit, two digits and so on the two
neighbours of the value on that decimal grid are tried.

## Main Definitions

* `Real64.decode` — sign, mantissa and exponent of a double.
* `Real64.shortest` — the shortest digits and their decimal exponent.
* `Real64.render` — the text of a double: positional from 0.0001 up to below 10^16, otherwise with
  an exponent of at least two digits.
* `Real64.fixed1` — the text with one place, a tie going to the even neighbour of the exact value.
* `Real64.read?` — the double of a numeral.
-/

namespace SumTree

namespace Real64

/-- Sign, mantissa and exponent: a finite double is ± mantissa · 2^exponent. -/
structure Parts where
  negative : Bool
  mantissa : Nat
  exponent : Int
  deriving Repr, DecidableEq

/-- Sign, mantissa and exponent of a finite double. -/
def decode (x : Float) : Parts :=
  let bits := x.toBits.toNat
  let fraction : Nat := bits % Nat.pow 2 52
  let raw : Nat := bits / Nat.pow 2 52 % Nat.pow 2 11
  let negative : Bool := bits / Nat.pow 2 63 == 1
  if raw == 0 then ⟨negative, fraction, -1074⟩
  else ⟨negative, fraction + Nat.pow 2 52, (raw : Int) - 1075⟩

/-- The least `k` with value below `10^k`, for the positive value `num / den`, searched upward from
`k` with `fuel` steps left. -/
def magnitude (num den : Nat) : Nat → Int → Int
  | 0, k => k
  | fuel + 1, k =>
    let below := if k ≥ 0 then num < den * Nat.pow 10 k.toNat else num * Nat.pow 10 (-k).toNat < den
    if below then k else magnitude num den fuel (k + 1)

/-- Whether `4 · d · 10^e` lies between `low` and `high`, both in units of 2^(q-2), the ends
included when `closed`. The decimal is scaled to those units as `a / b`. -/
def within (low high : Nat) (closed : Bool) (a b : Nat) : Bool :=
  if closed then low * b ≤ a && a ≤ high * b else low * b < a && a < high * b

/-- The shortest digits of the positive double m · 2^q, and the power of ten that their last place
counts, tried from `count` digits on with `fuel` counts left. `top` is the least power of ten above
the value. -/
def search (m : Nat) (q : Int) (low high : Nat) (top : Int) : Nat → Nat → Nat × Int
  | 0, _ => (m, 0)
  | fuel + 1, count =>
    let e := top - count
    -- In units of 2^(q-2), one step of the grid is `a / b`.
    let shift := e
    let a := (if shift ≥ 0 then Nat.pow 10 shift.toNat else 1)
      * (if q - 2 ≥ 0 then 1 else Nat.pow 2 (2 - q).toNat)
    let b := (if shift ≥ 0 then 1 else Nat.pow 10 (-shift).toNat)
      * (if q - 2 ≥ 0 then Nat.pow 2 (q - 2).toNat else 1)
    let value := 4 * m
    let lower := value * b / a
    let upper := lower + 1
    let closed := m % 2 == 0
    let hitLower := lower > 0 && within low high closed (lower * a) b
    let hitUpper := within low high closed (upper * a) b
    if hitLower && hitUpper then
      let below := value * b - lower * a
      let above := upper * a - value * b
      if below < above || (below == above && lower % 2 == 0) then (lower, e) else (upper, e)
    else if hitLower then (lower, e)
    else if hitUpper then (upper, e)
    else search m q low high top fuel (count + 1)

/-- The digits of a number without the zeros at its end, and how many zeros those are. -/
def dropZeros : Nat → Nat → Int → Nat × Int
  | 0, n, e => (n, e)
  | fuel + 1, n, e => if n % 10 == 0 && n != 0 then dropZeros fuel (n / 10) (e + 1) else (n, e)

/-- The shortest decimal `d · 10^e` that reads back as the positive double m · 2^q. -/
def shortest (m : Nat) (q : Int) : Nat × Int :=
  let num := if q ≥ 0 then m * Nat.pow 2 q.toNat else m
  let den := if q ≥ 0 then 1 else Nat.pow 2 (-q).toNat
  let top := magnitude num den 640 (-324)
  -- The neighbour below is nearer when the mantissa is a power of two.
  let low := if m == Nat.pow 2 52 && q > -1074 then 4 * m - 1 else 4 * m - 2
  let found := search m q low (4 * m + 2) top 17 1
  dropZeros 20 found.1 found.2

/-- Digits with their point: `digits` is the number whose last place counts `10^e`. -/
def positional (digits : List Char) (e : Int) : List Char :=
  if e ≥ 0 then digits ++ List.replicate e.toNat '0' ++ ['.', '0']
  else
    let places := (-e).toNat
    if digits.length > places then
      digits.take (digits.length - places) ++ '.' :: digits.drop (digits.length - places)
    else '0' :: '.' :: (List.replicate (places - digits.length) '0' ++ digits)

/-- Digits with an exponent of at least two digits. -/
def scientific (digits : List Char) (e : Int) : List Char :=
  let power := e + digits.length - 1
  let head := match digits with
    | [] => []
    | [d] => [d]
    | d :: ds => d :: '.' :: ds
  let ds := Decimal.digits power.natAbs
  head ++ 'e' :: (if power < 0 then '-' else '+') :: (if ds.length < 2 then '0' :: ds else ds)

/-- The text of a double. -/
def render (x : Float) : String :=
  if x.isNaN then "nan"
  else if x.isInf then (if x < 0 then "-inf" else "inf")
  else
    let parts := decode x
    let sign := if parts.negative then ['-'] else []
    if parts.mantissa == 0 then String.ofList (sign ++ ['0', '.', '0'])
    else
      let (d, e) := shortest parts.mantissa parts.exponent
      let digits := Decimal.digits d
      let point := e + digits.length
      String.ofList
        (sign ++ (if -4 < point && point ≤ 16 then positional digits e else scientific digits e))

/-- The text of a double with one place; the exact value is rounded, a tie to the even neighbour. -/
def fixed1 (x : Float) : String :=
  if x.isNaN then "nan"
  else if x.isInf then (if x < 0 then "-inf" else "inf")
  else
    let parts := decode x
    let num := parts.mantissa * 10 * (if parts.exponent ≥ 0 then Nat.pow 2 parts.exponent.toNat else 1)
    let den := if parts.exponent ≥ 0 then 1 else Nat.pow 2 (-parts.exponent).toNat
    let floor := num / den
    let rest := 2 * (num % den)
    let tenths := if rest > den || (rest == den && floor % 2 == 1) then floor + 1 else floor
    String.ofList
      ((if parts.negative then ['-'] else []) ++ Decimal.digits (tenths / 10)
        ++ '.' :: Decimal.digits (tenths % 10))

/-- The double nearest to `digits · 10^exponent`. Exponents far outside the range of doubles are cut
off first, which changes no result. -/
def ofDecimal (digits : Nat) (exponent : Int) : Float :=
  if digits == 0 then 0.0
  else
    let length : Int := (Decimal.digits digits).length
    if exponent + length > 400 then 1.0 / 0.0
    else if exponent + length < -400 then 0.0
    else Float.ofScientific digits (exponent < 0) exponent.natAbs

/-- The unsigned double of ASCII digits with an optional point and exponent. -/
def readDigits? (cs : List Char) : Option Float :=
  let whole := cs.takeWhile Digit.isAscii
  let rest := cs.dropWhile Digit.isAscii
  let (fraction, rest) := match rest with
    | '.' :: r => (r.takeWhile Digit.isAscii, r.dropWhile Digit.isAscii)
    | r => ([], r)
  if whole.isEmpty && fraction.isEmpty then none
  else
    let mantissa := Decimal.ofDigits (whole ++ fraction)
    let places : Int := fraction.length
    match rest with
    | [] => some (ofDecimal mantissa (-places))
    | e :: r =>
      if e == 'e' || e == 'E' then
        let (negative, ds) := Decimal.splitSign r
        if ds.isEmpty || !ds.all Digit.isAscii then none
        else
          -- More than nine digits of exponent lead out of range in any case.
          let significant := ds.dropWhile (· == '0')
          let power : Int := if significant.length > 9 then 1000000000 else Decimal.ofDigits significant
          some (ofDecimal mantissa ((if negative then -power else power) - places))
      else none

/-- Single underscores between digits left out; nothing when one stands elsewhere. -/
def joinUnderscores (before : Option Char) : List Char → Option (List Char)
  | [] => some []
  | '_' :: c :: cs =>
    if before.any Digit.isAscii && Digit.isAscii c then
      (joinUnderscores (some c) cs).map (c :: ·)
    else none
  | ['_'] => none
  | c :: cs => (joinUnderscores (some c) cs).map (c :: ·)

/-- The double of a numeral: blanks around it, a sign, digits with an optional point and exponent,
or one of the names of infinity and of no number, in any case. -/
def read? (s : String) : Option Float := do
  let cs := Decimal.foldScripts s.toList
  let cs ← joinUnderscores none (Blank.strip Blank.isAsciiBlank cs)
  let (negative, rest) := Decimal.splitSign cs
  let name := String.ofList (rest.map Char.toLower)
  let magnitude ←
    if name == "inf" || name == "infinity" then some (1.0 / 0.0)
    else if name == "nan" then some (0.0 / 0.0)
    else readDigits? rest
  return if negative then -magnitude else magnitude

/-- The integer that a double is, or nothing when it has a fraction or is not finite. -/
def toInt? (x : Float) : Option Int :=
  if x.isNaN || x.isInf then none
  else
    let parts := decode x
    let magnitude? : Option Nat :=
      if parts.exponent ≥ 0 then some (parts.mantissa * Nat.pow 2 parts.exponent.toNat)
      else
        let unit := Nat.pow 2 (-parts.exponent).toNat
        if parts.mantissa % unit == 0 then some (parts.mantissa / unit) else none
    magnitude?.map fun n => if parts.negative then -(n : Int) else (n : Int)

end Real64

end SumTree
