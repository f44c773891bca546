import Mathlib.Data.Nat.Digits.Lemmas

/-!
# Positional numerals

Numbers are written in several bases, by functions that put the last digit in front of a tail and go on
with the quotient. Such a function writes the digits of the number, the highest first
(`eq_of_writesDigits`), and folding over them from the left gives the number back (`foldl_numeral`).

## Main Definitions

* `WritesDigits` — a function that writes the digits of a number in front of a tail.
* `numeral` — the digits of a number as characters, the highest first.
-/

namespace SumTree

/-- A function that writes the digits of a number in front of a tail, one for each unit of fuel. -/
structure WritesDigits (base : Nat) (digit : Nat → Char)
    (write : List Char → Nat → Nat → List Char) : Prop where
  succ : ∀ tail fuel n, write tail (fuel + 1) n =
    if n < base then digit n :: tail else write (digit (n % base) :: tail) fuel (n / base)

/-- The digits of a number as characters, the highest first; zero has a digit too. -/
def numeral (base : Nat) (digit : Nat → Char) (n : Nat) : List Char :=
  if n = 0 then [digit 0] else ((Nat.digits base n).map digit).reverse

section

variable {base : Nat} {digit : Nat → Char}

theorem eq_of_writesDigits {write : List Char → Nat → Nat → List Char}
    (h : WritesDigits base digit write) (hbase : 1 < base) {fuel n : Nat} (tail : List Char)
    (hn : 0 < n) (hfuel : n < base ^ fuel) : write tail fuel n = numeral base digit n ++ tail := by
  have hne : n ≠ 0 := by omega
  rw [numeral, if_neg hne]
  clear hne
  induction fuel generalizing n tail with
  | zero =>
      rw [Nat.pow_zero] at hfuel
      omega
  | succ fuel ih =>
      rw [h.succ]
      by_cases hlast : n < base
      · rw [if_pos hlast, Nat.digits_of_lt base n (by omega) hlast]
        rfl
      · have hquotient : 0 < n / base := Nat.div_pos (by omega) (by omega)
        have hless : n / base < base ^ fuel := by
          rw [Nat.div_lt_iff_lt_mul (by omega), ← Nat.pow_succ]
          exact hfuel
        rw [if_neg hlast, ih _ hquotient hless, Nat.digits_def' hbase hn]
        simp

theorem numeral_ne_nil (n : Nat) : numeral base digit n ≠ [] := by
  unfold numeral
  split
  · simp
  · rename_i hn
    simpa [Nat.digits_eq_nil_iff_eq_zero] using hn

theorem mem_numeral (hbase : 1 < base) {n : Nat} {c : Char} (h : c ∈ numeral base digit n) :
    ∃ d, d < base ∧ c = digit d := by
  unfold numeral at h
  split at h
  · exact ⟨0, by omega, List.mem_singleton.mp h⟩
  · rw [List.mem_reverse] at h
    obtain ⟨d, hd, hc⟩ := List.mem_map.mp h
    exact ⟨d, Nat.digits_lt_base hbase hd, hc.symm⟩

theorem length_numeral_le (hbase : 1 < base) {n k : Nat} (hk : 0 < k) (hn : n < base ^ k) :
    (numeral base digit n).length ≤ k := by
  unfold numeral
  split
  · exact hk
  · rw [List.length_reverse, List.length_map]
    exact (Nat.digits_length_le_iff hbase n).mpr hn

/-- Only the numeral of zero starts with a zero. -/
theorem eq_zero_of_head_numeral (hzero : ∀ d, d < base → digit d = digit 0 → d = 0) (hbase : 1 < base)
    {n : Nat} (h : (numeral base digit n).head? = some (digit 0)) : n = 0 := by
  by_contra hn
  have hdigits : Nat.digits base n ≠ [] := Nat.digits_ne_nil_iff_ne_zero.mpr hn
  rw [numeral, if_neg hn, List.head?_reverse, List.getLast?_map,
    List.getLast?_eq_some_getLast hdigits, Option.map_some, Option.some.injEq] at h
  have hlast := Nat.digits_lt_base hbase (List.getLast_mem hdigits)
  exact Nat.getLast_digit_ne_zero base hn (hzero _ hlast h)

/-- Reading a numeral gives the number that it was written for. -/
theorem foldl_numeral (hbase : 1 < base) {value : Char → Nat}
    (hvalue : ∀ d, d < base → value (digit d) = d) (n : Nat) :
    (numeral base digit n).foldl (fun m c => base * m + value c) 0 = n := by
  unfold numeral
  split
  · rename_i hn
    simp [hvalue 0 (by omega), hn]
  · rw [List.foldl_reverse, List.foldr_map]
    calc (Nat.digits base n).foldr (fun d m => base * m + value (digit d)) 0
        = (Nat.digits base n).foldr (fun d m => d + base * m) 0 := by
          apply List.foldr_ext
          intro d hd m
          rw [hvalue d (Nat.digits_lt_base hbase hd), Nat.add_comm]
      _ = Nat.ofDigits base (Nat.digits base n) := (Nat.ofDigits_eq_foldr base _).symm
      _ = n := Nat.ofDigits_digits base n

end

end SumTree
