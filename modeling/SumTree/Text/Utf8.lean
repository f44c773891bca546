/-!
# UTF-8

Decoding bytes into text. A sequence of bytes that is no character is a *fault*; it ends before the
first byte that could not continue it, so that a fault never swallows the start of a character. The
strict decoder refuses the first fault, the lossy one puts a replacement character in its place.

## Main Definitions

* `Utf8.Lead` — what a first byte promises.
* `Utf8.chars` — the characters of some bytes, with nothing in the place of each fault.
* `Utf8.decodeChars?`, `Utf8.decode?` — the characters and the text of bytes without a fault.
* `Utf8.lossy` — the text of any bytes.

## Design Notes

The second byte of a sequence has bounds of its own, which rule out surrogates, points beyond the
last one and forms that are longer than needed. The remaining bytes only have to be continuations.
-/

namespace SumTree

namespace Utf8

/-- What a first byte promises: how many bytes follow, the bounds of the first of those, and the
bits that the byte itself contributes. -/
structure Lead where
  following : Nat
  low : Nat
  high : Nat
  bits : Nat

/-- What a byte above ASCII promises as a first byte, or nothing when it cannot be one. -/
def lead? (b : UInt8) : Option Lead :=
  let n := b.toNat
  if 0xc2 ≤ n && n ≤ 0xdf then some ⟨1, 0x80, 0xbf, n - 0xc0⟩
  else if n == 0xe0 then some ⟨2, 0xa0, 0xbf, 0⟩
  else if n == 0xed then some ⟨2, 0x80, 0x9f, 13⟩
  else if 0xe1 ≤ n && n ≤ 0xef then some ⟨2, 0x80, 0xbf, n - 0xe0⟩
  else if n == 0xf0 then some ⟨3, 0x90, 0xbf, 0⟩
  else if n == 0xf4 then some ⟨3, 0x80, 0x8f, 4⟩
  else if 0xf1 ≤ n && n ≤ 0xf3 then some ⟨3, 0x80, 0xbf, n - 0xf0⟩
  else none

/-- Where a decoder stands: between two characters, or inside one that still needs `following`
bytes, the next of them between `low` and `high`. -/
inductive Place
  | between
  | inside (following low high bits : Nat)

/-- What has been decoded, the latest first, and where the decoder stands. -/
structure Progress where
  done : List (Option Char)
  place : Place

namespace Progress

/-- A byte that starts a character or is a fault. -/
def start (done : List (Option Char)) (b : UInt8) : Progress :=
  if b < 0x80 then ⟨some (Char.ofNat b.toNat) :: done, .between⟩
  else match lead? b with
    | some l => ⟨done, .inside l.following l.low l.high l.bits⟩
    | none => ⟨none :: done, .between⟩

/-- The progress after one more byte. -/
def next (p : Progress) (b : UInt8) : Progress :=
  match p.place with
  | .between => start p.done b
  | .inside following low high bits =>
    let n := b.toNat
    if low ≤ n && n ≤ high then
      let bits := 64 * bits + (n - 0x80)
      if following ≤ 1 then ⟨some (Char.ofNat bits) :: p.done, .between⟩
      else ⟨p.done, .inside (following - 1) 0x80 0xbf bits⟩
    else start (none :: p.done) b

/-- All that was decoded, a sequence without its end counted as a fault. -/
def finish (p : Progress) : List (Option Char) :=
  match p.place with
  | .between => p.done.reverse
  | .inside .. => (none :: p.done).reverse

end Progress

/-- The characters of some bytes, with nothing in the place of each fault. -/
def chars (bytes : List UInt8) : List (Option Char) :=
  (bytes.foldl Progress.next ⟨[], .between⟩).finish

/-- The characters of bytes without a fault. -/
def decodeChars? (bytes : List UInt8) : Option (List Char) :=
  (chars bytes).mapM id

/-- The text of bytes that hold no fault. -/
def decode? (bytes : List UInt8) : Option String :=
  (decodeChars? bytes).map String.ofList

/-- The text of any bytes, a replacement character in the place of each fault. -/
def lossy (bytes : List UInt8) : String :=
  String.ofList ((chars bytes).map (·.getD '\ufffd'))

end Utf8

end SumTree
