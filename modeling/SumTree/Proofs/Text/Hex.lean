import SumTree.Proofs.Number.Positional
import SumTree.Text.Hex

/-!
# Hexadecimal text

Bytes and numbers written in hexadecimal are read back: two digits for each byte, so that a digest
keeps its width (`toBytes?_ofBytes`), and the shortest digits of a number, filled up or not
(`toNat_ofNat`, `toNat_padded`).
-/

namespace SumTree

namespace Hex

theorem digitChar_spec : ∀ d, d < 16 → digitValue? (digitChar d) = some d := by
  decide

theorem isDigit_digitChar {d : Nat} (h : d < 16) : isDigit (digitChar d) = true := by
  rw [isDigit, digitChar_spec d h, Option.isSome_some]

/-! ### Bytes -/

theorem toBytes?_ofBytes (bytes : List UInt8) : toBytes? (ofBytes bytes) = some bytes := by
  induction bytes with
  | nil => rfl
  | cons b rest ih =>
      have hb : b.toNat < 256 := b.toNat_lt_size
      have hhigh := digitChar_spec (b.toNat / 16) (by omega)
      have hlow := digitChar_spec (b.toNat % 16) (by omega)
      have hjoined : 16 * (b.toNat / 16) + b.toNat % 16 = b.toNat := by omega
      show toBytes? (digitChar (b.toNat / 16) :: digitChar (b.toNat % 16) :: ofBytes rest) = _
      simp only [toBytes?, hhigh, hlow, ih, Option.bind_eq_bind, Option.bind_some, hjoined,
        UInt8.ofNat_toNat, Option.pure_def]

theorem ofBytes_injective : Function.Injective ofBytes := by
  intro bytes bytes' h
  have hread := congrArg toBytes? h
  rw [toBytes?_ofBytes, toBytes?_ofBytes] at hread
  exact Option.some.inj hread

theorem length_ofBytes (bytes : List UInt8) : (ofBytes bytes).length = 2 * bytes.length := by
  induction bytes with
  | nil => rfl
  | cons b rest ih =>
      show (ofBytes rest).length + 2 = _
      rw [ih, List.length_cons]
      omega

theorem isDigit_of_mem_ofBytes {bytes : List UInt8} {c : Char} (h : c ∈ ofBytes bytes) :
    isDigit c = true := by
  obtain ⟨b, -, hc⟩ := List.mem_flatMap.mp h
  have hb : b.toNat < 256 := b.toNat_lt_size
  simp only [ofByte, List.mem_cons, List.not_mem_nil, or_false] at hc
  rcases hc with rfl | rfl
  · exact isDigit_digitChar (by omega)
  · exact isDigit_digitChar (by omega)

/-! ### Numbers -/

theorem writesDigits : WritesDigits 16 digitChar digitsOnto :=
  ⟨fun _ _ _ => rfl⟩

/-- The shortest digits of a number are its digits to base sixteen. -/
theorem ofNat_eq_numeral (n : Nat) : ofNat n = numeral 16 digitChar n := by
  by_cases hn : n = 0
  · subst hn
    rfl
  · have hpos : 0 < n := Nat.pos_of_ne_zero hn
    have hfuel : n < 16 ^ (n.log2 / 4 + 1) := by
      calc n < 2 ^ (n.log2 + 1) := Nat.lt_log2_self
        _ ≤ 2 ^ (4 * (n.log2 / 4 + 1)) := Nat.pow_le_pow_right (by omega) (by omega)
        _ = 16 ^ (n.log2 / 4 + 1) := by rw [Nat.pow_mul]
    rw [ofNat, eq_of_writesDigits writesDigits (by decide) [] hpos hfuel, List.append_nil]

theorem toNat_ofNat (n : Nat) : toNat (ofNat n) = n := by
  rw [ofNat_eq_numeral, toNat]
  apply foldl_numeral (by decide)
  intro d hd
  rw [digitChar_spec d hd, Option.getD_some]

theorem ofNat_ne_nil (n : Nat) : ofNat n ≠ [] := by
  rw [ofNat_eq_numeral]
  exact numeral_ne_nil n

theorem isDigit_of_mem_ofNat {n : Nat} {c : Char} (h : c ∈ ofNat n) : isDigit c = true := by
  rw [ofNat_eq_numeral] at h
  obtain ⟨d, hd, rfl⟩ := mem_numeral (by decide) h
  exact isDigit_digitChar hd

theorem length_ofNat_le {n k : Nat} (hk : 0 < k) (hn : n < 16 ^ k) : (ofNat n).length ≤ k := by
  rw [ofNat_eq_numeral]
  exact length_numeral_le (by decide) hk hn

/-- A number that fits into `width` digits is filled up to exactly that many. -/
theorem length_padded {width n : Nat} (hwidth : 0 < width) (hn : n < 16 ^ width) :
    (padded width n).length = width := by
  have hlength := length_ofNat_le hwidth hn
  rw [padded, List.length_append, List.length_replicate]
  omega

theorem toNat_padded (width n : Nat) : toNat (padded width n) = n := by
  have hzeros : ∀ count, (List.replicate count '0').foldl
      (fun n c => 16 * n + (digitValue? c).getD 0) 0 = 0 := by
    intro count
    induction count with
    | zero => rfl
    | succ count ih => exact ih
  rw [padded, toNat, List.foldl_append, hzeros]
  exact toNat_ofNat n

theorem isDigit_of_mem_padded {width n : Nat} {c : Char} (h : c ∈ padded width n) :
    isDigit c = true := by
  rcases List.mem_append.mp h with hzero | hdigit
  · rw [(List.mem_replicate.mp hzero).2]
    rfl
  · exact isDigit_of_mem_ofNat hdigit

end Hex

end SumTree
