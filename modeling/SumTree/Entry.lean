import SumTree.Fault

/-!
# Entries

One account holder's record: a name, which need not be unique, and one balance for each tracked
asset. Balances are natural numbers by their type, so what can be refused is refused where an entry
is made from integers or from numerals.

## Main Definitions

* `Entry` — a name with its balances.
* `Entry.ofInts` — the entry of integer balances, refused at the first one below zero.
* `Entry.ofNumerals` — the entry of balances in decimal text.
* `Entry.totals` — the sums of the columns of some entries.
-/

namespace SumTree

/-- One account holder's record. -/
structure Entry where
  /-- The account holder's name. -/
  username : String
  /-- One balance for each tracked asset. -/
  balances : List Nat
  deriving Repr, DecidableEq, Inhabited

namespace Entry

/-- The number of balance columns. -/
def width (e : Entry) : Nat :=
  e.balances.length

/-- The balances as naturals, refused at the first one below zero. -/
def naturals (username : String) : List Int → Except ValueFault (List Nat)
  | [] => .ok []
  | b :: rest =>
    if b < 0 then
      match Decimal.text b with
      | .ok text => .error (.negativeBalance username text)
      | .error fault => .error fault
    else (naturals username rest).map (b.toNat :: ·)

/-- The entry of integer balances. -/
def ofInts (username : String) (balances : List Int) : Except ValueFault Entry :=
  (naturals username balances).map fun bs => ⟨username, bs⟩

/-- The entry of balances written as decimal numerals. -/
def ofNumerals (username : String) (balances : List String) : Except ValueFault Entry := do
  let ints ← balances.mapM Decimal.parse
  ofInts username ints

end Entry

/-- The sums of the columns of rows of one width; with rows of several widths, of the columns that
all of them have. -/
def columnSums : List (List Int) → List Int
  | [] => []
  | [row] => row
  | row :: rest => List.zipWith (· + ·) row (columnSums rest)

/-- The balances of an entry as integers. -/
def Entry.amounts (e : Entry) : List Int :=
  e.balances.map Int.ofNat

/-- The sums of the columns of some entries. -/
def Entry.totals (entries : List Entry) : List Int :=
  columnSums (entries.map Entry.amounts)

end SumTree
