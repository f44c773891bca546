import SumTree.Number.Decimal
import SumTree.Text.Quoted

/-!
# Unusable values

The reasons for which a value is refused, each with the one text that reports it.

## Main Definitions

* `ValueFault` — why a value is refused.
* `ValueFault.message` — the text that reports it.
* `Decimal.text`, `Decimal.parse` — the limited writer and reader with these reasons.
-/

namespace SumTree

/-- Why a value is refused. -/
inductive ValueFault
  /-- A text is no decimal numeral. -/
  | numeral (text : String)
  /-- A numeral has more digits than may be read. -/
  | tooLongToRead (digits : Nat)
  /-- An integer has more digits than may be written. -/
  | tooLongToWrite
  /-- An entry holds a balance below zero. -/
  | negativeBalance (username balance : String)
  /-- A tree was asked for over no leaves. -/
  | noLeaves
  /-- A leaf has another number of columns than the first. -/
  | leafWidth (position found expected : Nat)
  /-- Two nodes with different numbers of columns were to be combined. -/
  | pairWidth (left right : Nat)
  /-- A text is no hexadecimal number with its mark. -/
  | notHex (text : String)
  /-- A wire balance is no plain decimal numeral. -/
  | notPlain (text : String)
  /-- No odd-node policy has this name. -/
  | policyName (text : String)
  /-- No state of a run has this name. -/
  | stateName (text : String)
  /-- A worker address lacks its host or its port. -/
  | address (text : String)
  /-- A limit on balances was given as a negative number of bytes. -/
  | negativeLimit
  /-- An environment variable that must hold a number holds something else. -/
  | environment (name text : String)
  /-- The text of a value refused elsewhere. -/
  | other (text : String)
  deriving Repr, DecidableEq, Inhabited

namespace ValueFault

/-- What the advice on the digit limit says. -/
private def limitAdvice : String :=
  "use sys.set_int_max_str_digits() to increase the limit"

/-- What the statement of the digit limit says. -/
private def limitClause : String :=
  "Exceeds the limit (" ++ toString Decimal.maxDigits ++ " digits) for integer string conversion"

/-- The most characters of a refused numeral, in its quotes, that a text shows. -/
def shownLength : Nat := 200

/-- The front of a refused numeral, in its quotes. -/
def shown (text : String) : String :=
  String.ofList ((Quoted.quote text).toList.take shownLength)

/-- The text that reports why a value is refused. -/
def message : ValueFault → String
  | numeral text => "invalid literal for int() with base 10: " ++ shown text
  | tooLongToRead digits =>
    limitClause ++ ": value has " ++ toString digits ++ " digits; " ++ limitAdvice
  | tooLongToWrite => limitClause ++ "; " ++ limitAdvice
  | negativeBalance username balance =>
    "Entry '" ++ username ++ "' has a negative balance: " ++ balance
  | noLeaves => "Cannot build a tree from zero leaves"
  | leafWidth position found expected =>
    "Leaf " ++ toString position ++ " has " ++ toString found ++ " balance columns, expected "
      ++ toString expected
  | pairWidth left right =>
    "Cannot combine nodes with " ++ toString left ++ " and " ++ toString right
      ++ " balance columns"
  | notHex text => "Expected 0x-prefixed hex digits, got " ++ Quoted.quote text
  | notPlain text => "Balance must be a non-negative decimal string, got " ++ Quoted.quote text
  | policyName text => Quoted.quote text ++ " is not a valid OddNodePolicy"
  | stateName text => Quoted.quote text ++ " is not a valid OrchestratorState"
  | address text => "Worker address must include host and port: " ++ Quoted.quote text
  | negativeLimit => "negative shift count"
  | environment name text => name ++ " must be a number, got " ++ Quoted.quote text
  | other text => text

end ValueFault

namespace Decimal

/-- The text of an integer, refused when it has too many digits. -/
def text (n : Int) : Except ValueFault String :=
  match write? n with
  | some s => .ok s
  | none => .error .tooLongToWrite

/-- The integer of a numeral in decimal digits of any script. -/
def parse (s : String) : Except ValueFault Int :=
  match read s with
  | .ok n => .ok n
  | .error .malformed => .error (.numeral s)
  | .error (.tooLong count) => .error (.tooLongToRead count)

end Decimal

end SumTree
