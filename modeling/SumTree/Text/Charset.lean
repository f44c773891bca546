import SumTree.Text.Utf8

/-!
# Character sets

Decoding a body by the character set that it is labelled with.

## Main Definitions

* `Charset` — the character sets that are known.
* `Charset.ofLabel?` — the character set of a label.
* `Charset.decode?` — the text of some bytes.
-/

namespace SumTree

/-- The character sets that are known. -/
inductive Charset
  | utf8
  /-- UTF-8 with a mark in front that does not count. -/
  | utf8Marked
  | latin1
  /-- Latin-1 with printable characters in the place of most of its upper controls. -/
  | windows1252
  | ascii
  /-- UTF-16 whose order of bytes is told by a mark in front, the low byte first without one. -/
  | utf16
  | utf16Low
  | utf16High
  deriving Repr, DecidableEq

namespace Charset

/-- The labels of the character sets, in lower case and with single underscores for what is neither a
letter nor a digit nor a point. -/
def labels : List (String × Charset) :=
  [("utf_8", .utf8), ("utf8", .utf8), ("u8", .utf8), ("utf", .utf8), ("cp65001", .utf8),
   ("utf8_ucs2", .utf8), ("utf8_ucs4", .utf8),
   ("utf_8_sig", .utf8Marked), ("utf8_sig", .utf8Marked),
   ("latin_1", .latin1), ("latin1", .latin1), ("latin", .latin1), ("l1", .latin1),
   ("iso_8859_1", .latin1), ("iso8859_1", .latin1), ("iso8859", .latin1), ("8859", .latin1),
   ("cp819", .latin1), ("iso_ir_100", .latin1), ("ibm819", .latin1), ("csisolatin1", .latin1),
   ("iso_8859_1_1987", .latin1),
   ("cp1252", .windows1252), ("1252", .windows1252), ("windows_1252", .windows1252),
   ("ascii", .ascii), ("us_ascii", .ascii), ("646", .ascii), ("us", .ascii), ("cp367", .ascii),
   ("ibm367", .ascii), ("csascii", .ascii), ("iso646_us", .ascii), ("iso_ir_6", .ascii),
   ("ansi_x3.4_1968", .ascii), ("ansi_x3_4_1968", .ascii), ("ansi_x3.4_1986", .ascii),
   ("utf_16", .utf16), ("utf16", .utf16), ("u16", .utf16),
   ("utf_16_le", .utf16Low), ("utf_16le", .utf16Low), ("unicodelittleunmarked", .utf16Low),
   ("utf_16_be", .utf16High), ("utf_16be", .utf16High), ("unicodebigunmarked", .utf16High)]

/-- Whether a character of a label stands in the table as it is, in lower case. -/
def isLabelPart (c : Char) : Bool :=
  c.isAlphanum || c == '.'

/-- A label as the table holds it. -/
def normalize (label : String) : String :=
  let parts := (label.toList.splitBy fun a b => isLabelPart a && isLabelPart b).filter fun part =>
    part.all isLabelPart
  "_".intercalate (parts.map fun part => String.ofList (part.map Char.toLower))

/-- The character set of a label. -/
def ofLabel? (label : String) : Option Charset :=
  labels.lookup (normalize label)

/-- The 16-bit units of some bytes, or nothing when a byte is left over. -/
def units? (lowFirst : Bool) : List UInt8 → Option (List Nat)
  | [] => some []
  | [_] => none
  | a :: b :: rest =>
    let unit := if lowFirst then a.toNat + 256 * b.toNat else 256 * a.toNat + b.toNat
    (units? lowFirst rest).map (unit :: ·)

/-- The characters of some units, or nothing when a surrogate stands alone. -/
def joinUnits? : List Nat → Option (List Char)
  | [] => some []
  | [unit] => if 0xd800 ≤ unit && unit < 0xe000 then none else some [Char.ofNat unit]
  | high :: low :: rest =>
    if 0xd800 ≤ high && high < 0xdc00 then
      if 0xdc00 ≤ low && low < 0xe000 then
        (joinUnits? rest).map
          (Char.ofNat (0x10000 + 0x400 * (high - 0xd800) + (low - 0xdc00)) :: ·)
      else none
    else if 0xdc00 ≤ high && high < 0xe000 then none
    else (joinUnits? (low :: rest)).map (Char.ofNat high :: ·)

/-- The text of bytes in UTF-16. -/
def decodeUnits? (lowFirst : Bool) (bytes : List UInt8) : Option String := do
  let units ← units? lowFirst bytes
  let chars ← joinUnits? units
  return String.ofList chars

/-- The characters that Windows-1252 has in the place of the controls from 128 on; a zero stands for
none. -/
def windowsPoints : List Nat :=
  [0x20ac, 0, 0x201a, 0x192, 0x201e, 0x2026, 0x2020, 0x2021, 0x2c6, 0x2030, 0x160, 0x2039, 0x152, 0,
    0x17d, 0, 0, 0x2018, 0x2019, 0x201c, 0x201d, 0x2022, 0x2013, 0x2014, 0x2dc, 0x2122, 0x161, 0x203a,
    0x153, 0, 0x17e, 0x178]

/-- The character of a byte in Windows-1252. -/
def windowsChar? (b : UInt8) : Option Char :=
  if 0x80 ≤ b && b < 0xa0 then
    match windowsPoints[b.toNat - 0x80]? with
    | none | some 0 => none
    | some point => some (Char.ofNat point)
  else some (Char.ofNat b.toNat)

/-- The text of some bytes, or nothing when they are not of the character set. -/
def decode? (charset : Charset) (bytes : List UInt8) : Option String :=
  match charset with
  | utf8 => Utf8.decode? bytes
  | utf8Marked =>
    Utf8.decode? (if [0xef, 0xbb, 0xbf].isPrefixOf bytes then bytes.drop 3 else bytes)
  | latin1 => some (String.ofList (bytes.map fun b => Char.ofNat b.toNat))
  | windows1252 => (bytes.mapM windowsChar?).map String.ofList
  | ascii =>
    if bytes.all (· < 0x80) then some (String.ofList (bytes.map fun b => Char.ofNat b.toNat))
    else none
  | utf16 =>
    if [0xff, 0xfe].isPrefixOf bytes then decodeUnits? true (bytes.drop 2)
    else if [0xfe, 0xff].isPrefixOf bytes then decodeUnits? false (bytes.drop 2)
    else decodeUnits? true bytes
  | utf16Low => decodeUnits? true bytes
  | utf16High => decodeUnits? false bytes

end Charset

end SumTree
