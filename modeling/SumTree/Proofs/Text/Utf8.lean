import Mathlib.Data.Char
import Mathlib.Data.List.Basic
import Mathlib.Tactic.IntervalCases
import SumTree.Text.Utf8

/-!
# UTF-8

The decoder reads the encoding of any text as that text (`decode?_toUTF8`). A character is encoded by
one to four bytes: the first one promises how many follow, and from between two characters the decoder
goes over them back to between two characters (`foldl_utf8EncodeChar`).
-/

namespace SumTree

namespace Utf8

/-! ### The bytes of a text -/

theorem loop_eq (bytes : ByteArray) (i : Nat) (done : List UInt8) :
    ByteArray.toList.loop bytes i done = done.reverse ++ bytes.data.toList.drop i := by
  fun_induction ByteArray.toList.loop bytes i done with
  | case1 i done hlt ih =>
      have hi : i < bytes.data.toList.length := by simpa using hlt
      rw [ih, List.drop_eq_getElem_cons hi]
      simp [ByteArray.get!, hlt]
  | case2 i done hge =>
      have hi : bytes.data.toList.length ≤ i := by simpa using Nat.le_of_not_lt hge
      rw [List.drop_eq_nil_of_le hi, List.append_nil]

/-- The bytes of a text are those of its characters. -/
theorem toUTF8_toList (s : String) :
    s.toUTF8.toList = s.toList.flatMap String.utf8EncodeChar := by
  conv_lhs => rw [← @String.ofList_toList s]
  rw [String.toUTF8_eq_toByteArray, String.toByteArray_ofList, ByteArray.toList, loop_eq,
    List.reverse_nil, List.nil_append, List.drop_zero]
  exact List.toList_data_toByteArray

/-- A text has no more characters than bytes. -/
theorem length_le_length_toUTF8 (s : String) : s.toList.length ≤ s.toUTF8.toList.length := by
  rw [toUTF8_toList]
  induction s.toList with
  | nil => exact Nat.le_refl _
  | cons c rest ih =>
      have hpos : 0 < (String.utf8EncodeChar c).length :=
        List.length_pos_iff.mpr String.utf8EncodeChar_ne_nil
      rw [List.flatMap_cons, List.length_append, List.length_cons]
      omega

/-! ### One step of the decoder -/

theorem toNat_ofNat {n : Nat} (h : n < 256) : (UInt8.ofNat n).toNat = n :=
  UInt8.toNat_ofNat_of_lt h

/-- A first byte above ASCII puts the decoder inside a character. -/
theorem start_of_lead {done : List (Option Char)} {following low high bits n : Nat} (hlow : 0x80 ≤ n)
    (hhigh : n < 256) (h : lead? (UInt8.ofNat n) = some ⟨following, low, high, bits⟩) :
    Progress.next ⟨done, .between⟩ (UInt8.ofNat n) = ⟨done, .inside following low high bits⟩ := by
  have hascii : ¬ UInt8.ofNat n < 0x80 := by
    rw [UInt8.lt_iff_toNat_lt, toNat_ofNat hhigh]
    show ¬ n < 128
    omega
  show Progress.start done (UInt8.ofNat n) = _
  rw [Progress.start, if_neg hascii, h]

/-- A byte between the bounds is a continuation, and the last one ends the character. -/
theorem next_inside {done : List (Option Char)} {following low high bits n : Nat} (hlow : low ≤ n)
    (hhigh : n ≤ high) (hn : n < 256) :
    Progress.next ⟨done, .inside following low high bits⟩ (UInt8.ofNat n) =
      if following ≤ 1 then ⟨some (Char.ofNat (64 * bits + (n - 0x80))) :: done, .between⟩
      else ⟨done, .inside (following - 1) 0x80 0xbf (64 * bits + (n - 0x80))⟩ := by
  show (if low ≤ (UInt8.ofNat n).toNat && (UInt8.ofNat n).toNat ≤ high then _ else _) = _
  simp only [toNat_ofNat hn, hlow, hhigh, decide_true, Bool.and_self, if_true]

theorem lead?_two : ∀ k, 2 ≤ k → k < 0x20 →
    lead? (UInt8.ofNat (k + 0xc0)) = some ⟨1, 0x80, 0xbf, k⟩ := by
  intro k hlow hhigh
  interval_cases k <;> rfl

theorem lead?_three : ∀ k, k < 0x10 → lead? (UInt8.ofNat (k + 0xe0)) =
    some ⟨2, if k = 0 then 0xa0 else 0x80, if k = 13 then 0x9f else 0xbf, k⟩ := by
  intro k hk
  interval_cases k <;> rfl

theorem lead?_four : ∀ k, k < 5 → lead? (UInt8.ofNat (k + 0xf0)) =
    some ⟨3, if k = 0 then 0x90 else 0x80, if k = 4 then 0x8f else 0xbf, k⟩ := by
  intro k hk
  interval_cases k <;> rfl

/-! ### One character -/

/-- The code points of characters leave out the surrogates and end at the last one. -/
theorem valid_toNat (c : Char) : c.val.toNat < 0xd800 ∨ 0xdfff < c.val.toNat ∧ c.val.toNat < 0x110000 :=
  c.valid

/-- The decoder goes over the bytes of a character. -/
theorem foldl_utf8EncodeChar (c : Char) (done : List (Option Char)) :
    (String.utf8EncodeChar c).foldl Progress.next ⟨done, .between⟩ = ⟨some c :: done, .between⟩ := by
  have hvalid := valid_toNat c
  have hc : Char.ofNat c.val.toNat = c := Char.ofNat_toNat c
  unfold String.utf8EncodeChar
  generalize c.val.toNat = v at hvalid hc
  dsimp only
  split
  · rename_i hone
    have hascii : UInt8.ofNat v < 0x80 := by
      rw [UInt8.lt_iff_toNat_lt, toNat_ofNat (by omega)]
      show v < 128
      omega
    show Progress.start done (UInt8.ofNat v) = _
    rw [Progress.start, if_pos hascii, toNat_ofNat (by omega), hc]
  · split
    · rename_i hone htwo
      have hlead := lead?_two (v / 64 % 0x20) (by omega) (by omega)
      have hjoined : 64 * (v / 64 % 0x20) + (v % 0x40 + 0x80 - 0x80) = v := by omega
      rw [List.foldl_cons, start_of_lead (by omega) (by omega) hlead, List.foldl_cons,
        next_inside (by omega) (by omega) (by omega), List.foldl_nil,
        if_pos (by decide), hjoined, hc]
    · split
      · rename_i hone htwo hthree
        have hlead := lead?_three (v / 4096 % 0x10) (by omega)
        have hjoined : 64 * (64 * (v / 4096 % 0x10) + (v / 64 % 0x40 + 0x80 - 0x80)) +
            (v % 0x40 + 0x80 - 0x80) = v := by omega
        rw [List.foldl_cons, start_of_lead (by omega) (by omega) hlead, List.foldl_cons,
          next_inside (by split <;> omega) (by split <;> omega) (by omega),
          if_neg (by decide), List.foldl_cons, next_inside (by omega) (by omega) (by omega),
          List.foldl_nil, if_pos (by decide), hjoined, hc]
      · rename_i hone htwo hthree
        have hlead := lead?_four (v / 262144 % 0x08) (by omega)
        have hjoined : 64 * (64 * (64 * (v / 262144 % 0x08) + (v / 4096 % 0x40 + 0x80 - 0x80)) +
            (v / 64 % 0x40 + 0x80 - 0x80)) + (v % 0x40 + 0x80 - 0x80) = v := by omega
        rw [List.foldl_cons, start_of_lead (by omega) (by omega) hlead, List.foldl_cons,
          next_inside (by split <;> omega) (by split <;> omega) (by omega),
          if_neg (by decide), List.foldl_cons, next_inside (by omega) (by omega) (by omega),
          if_neg (by decide), List.foldl_cons, next_inside (by omega) (by omega) (by omega),
          List.foldl_nil, if_pos (by decide), hjoined, hc]

/-! ### Bytes one after the other -/

/-- What was decoded before stays behind what a byte adds. -/
theorem next_append (done before : List (Option Char)) (place : Place) (b : UInt8) :
    Progress.next ⟨done ++ before, place⟩ b =
      ⟨(Progress.next ⟨done, place⟩ b).done ++ before, (Progress.next ⟨done, place⟩ b).place⟩ := by
  have hstart : ∀ found : List (Option Char), Progress.start (found ++ before) b =
      ⟨(Progress.start found b).done ++ before, (Progress.start found b).place⟩ := by
    intro found
    unfold Progress.start
    split
    · rfl
    · split <;> rfl
  unfold Progress.next
  cases place with
  | between => exact hstart done
  | inside following low high bits =>
      dsimp only
      split
      · split <;> rfl
      · exact hstart (none :: done)

theorem foldl_next_append (done : List (Option Char)) (place : Place) (bytes : List UInt8) :
    bytes.foldl Progress.next ⟨done, place⟩ =
      ⟨(bytes.foldl Progress.next ⟨[], place⟩).done ++ done,
        (bytes.foldl Progress.next ⟨[], place⟩).place⟩ := by
  induction bytes generalizing done place with
  | nil => rfl
  | cons b rest ih =>
      have hstep := next_append [] done place b
      rw [List.nil_append] at hstep
      rw [List.foldl_cons, List.foldl_cons, hstep, ih, ih (Progress.next ⟨[], place⟩ b).done]
      rw [List.append_assoc]

/-! ### Texts -/

theorem foldl_flatMap (cs : List Char) (done : List (Option Char)) :
    (cs.flatMap String.utf8EncodeChar).foldl Progress.next ⟨done, .between⟩ =
      ⟨(cs.map some).reverse ++ done, .between⟩ := by
  induction cs generalizing done with
  | nil => rfl
  | cons c rest ih =>
      rw [List.flatMap_cons, List.foldl_append, foldl_utf8EncodeChar, ih]
      simp

/-- The encoding of a text is decoded as that text. -/
theorem decodeChars?_toUTF8 (s : String) : decodeChars? s.toUTF8.toList = some s.toList := by
  have hchars : chars s.toUTF8.toList = s.toList.map some := by
    rw [toUTF8_toList, chars, foldl_flatMap]
    simp [Progress.finish]
  have hmapM : ∀ cs : List Char, (cs.map some).mapM id = some cs := by
    intro cs
    induction cs with
    | nil => rfl
    | cons c rest ih => simp [ih]
  rw [decodeChars?, hchars, hmapM]

theorem decode?_toUTF8 (s : String) : decode? s.toUTF8.toList = some s := by
  rw [decode?, decodeChars?_toUTF8, Option.map_some, String.ofList_toList]

end Utf8

end SumTree
