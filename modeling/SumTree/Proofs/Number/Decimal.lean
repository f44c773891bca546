import Mathlib.Data.List.TakeWhile
import SumTree.Fault
import SumTree.Proofs.Number.Positional

/-!
# Decimal numerals

What is written in decimal is read back: an integer that is short enough to be written has a text, and
the text is the numeral of that integer alone (`parse_of_text`). A natural number is written by plain
digits, with no zero in front but the one of zero itself, so that a plain numeral that was read is shown
without the zeros in front of it (`render_ofDigits`).

## Main Definitions

* `Decimal.trimmed` — a numeral without the zeros in front.
-/

namespace SumTree

namespace Decimal

/-- The digit of a value below ten. -/
def digitChar (value : Nat) : Char :=
  Char.ofNat (48 + value)

theorem digitChar_spec : ∀ d, d < 10 → Digit.isAscii (digitChar d) = true ∧
    Digit.asciiValue (digitChar d) = d ∧ (digitChar d).toNat < 128 := by
  decide

theorem eq_zero_of_digitChar : ∀ d, d < 10 → digitChar d = digitChar 0 → d = 0 := by
  decide

theorem writesDigits : WritesDigits 10 digitChar digitsOnto :=
  ⟨fun _ _ _ => rfl⟩

/-- The shortest digits of a number are its digits to base ten. -/
theorem digits_eq_numeral (n : Nat) : digits n = numeral 10 digitChar n := by
  by_cases hn : n = 0
  · subst hn
    rfl
  · have hpos : 0 < n := Nat.pos_of_ne_zero hn
    have hfuel : n < 10 ^ (n.log2 / 3 + 1) := by
      calc n < 2 ^ (n.log2 + 1) := Nat.lt_log2_self
        _ ≤ 2 ^ (3 * (n.log2 / 3 + 1)) := Nat.pow_le_pow_right (by omega) (by omega)
        _ = 8 ^ (n.log2 / 3 + 1) := by rw [Nat.pow_mul]
        _ ≤ 10 ^ (n.log2 / 3 + 1) := Nat.pow_le_pow_left (by omega) _
    rw [digits, eq_of_writesDigits writesDigits (by decide) [] hpos hfuel, List.append_nil]

theorem digits_ne_nil (n : Nat) : digits n ≠ [] := by
  rw [digits_eq_numeral]
  exact numeral_ne_nil n

theorem isAscii_of_mem_digits {n : Nat} {c : Char} (h : c ∈ digits n) : Digit.isAscii c = true := by
  rw [digits_eq_numeral] at h
  obtain ⟨d, hd, rfl⟩ := mem_numeral (by decide) h
  exact (digitChar_spec d hd).1

theorem ofDigits_digits (n : Nat) : ofDigits (digits n) = n := by
  rw [digits_eq_numeral, ofDigits]
  exact foldl_numeral (by decide) (fun d hd => (digitChar_spec d hd).2.1) n

theorem length_digits_le {n k : Nat} (hk : 0 < k) (hn : n < Nat.pow 10 k) : (digits n).length ≤ k := by
  rw [digits_eq_numeral]
  exact length_numeral_le (by decide) hk hn

theorem eq_zero_of_head_digits {n : Nat} {rest : List Char} (h : digits n = '0' :: rest) : n = 0 := by
  rw [digits_eq_numeral] at h
  exact eq_zero_of_head_numeral eq_zero_of_digitChar (by decide) (by rw [h]; rfl)

/-! ### Reading -/

theorem isAscii_iff {c : Char} : Digit.isAscii c = true ↔ '0' ≤ c ∧ c ≤ '9' := by
  rw [Digit.isAscii, Bool.and_eq_true, decide_eq_true_eq, decide_eq_true_eq, Char.le_def, Char.le_def]
  exact Iff.rfl

/-- Digits write a number by their place values, the last one for the units. -/
theorem ofDigits_eq (cs : List Char) :
    ofDigits cs = Nat.ofDigits 10 (cs.reverse.map Digit.asciiValue) := by
  rw [Nat.ofDigits_eq_foldr, List.foldr_map, List.foldr_reverse, ofDigits]
  congr 1
  funext n c
  exact Nat.add_comm _ _

theorem toNat_of_isAscii {c : Char} (h : Digit.isAscii c = true) : 48 ≤ c.toNat ∧ c.toNat ≤ 57 := by
  simpa [Digit.isAscii] using h

theorem ne_of_isAscii {c mark : Char} (h : Digit.isAscii c = true)
    (hmark : Digit.isAscii mark = false) : c ≠ mark := by
  rintro rfl
  rw [h] at hmark
  cases hmark

theorem isBlank_of_isAscii {c : Char} (h : Digit.isAscii c = true) : Blank.isBlank c = false := by
  obtain ⟨hlow, hhigh⟩ := toNat_of_isAscii h
  simp only [Blank.isBlank, Blank.isAsciiBlank, Bool.or_eq_false_iff, Bool.and_eq_false_iff,
    beq_eq_false_iff_ne, decide_eq_false_iff_not]
  omega

theorem joinDigits_of_isAscii {ds : List Char} (h : ∀ c ∈ ds, Digit.isAscii c = true)
    {afterDigit : Bool} (hsome : ds ≠ [] ∨ afterDigit = true) :
    joinDigits afterDigit ds = some ds := by
  induction ds generalizing afterDigit with
  | nil =>
      have hafter : afterDigit = true := hsome.resolve_left fun hne => hne rfl
      rw [joinDigits, hafter, if_pos rfl]
  | cons c rest ih =>
      have hc := h c List.mem_cons_self
      have hunderscore : (c == '_') = false := beq_eq_false_iff_ne.mpr (ne_of_isAscii hc rfl)
      rw [joinDigits, hunderscore, if_neg Bool.false_ne_true,
        ih (fun d hd => h d (List.mem_cons_of_mem c hd)) (.inr rfl)]
      rfl

theorem foldScripts_of_ascii {cs : List Char} (h : ∀ c ∈ cs, c.toNat < 128) :
    foldScripts cs = cs := by
  unfold foldScripts
  refine (List.map_congr_left fun c hc => ?_).trans (List.map_id cs)
  exact if_pos (h c hc)

/-- Digits behind an optional sign are read as the number that they write, unless there are too many
of them. -/
theorem readAscii_digits (negative : Bool) {ds : List Char} (hne : ds ≠ [])
    (h : ∀ c ∈ ds, Digit.isAscii c = true) :
    readAscii ((if negative then ['-'] else []) ++ ds) =
      if ds.length > maxDigits then .error (.tooLong ds.length)
      else .ok (if negative then -(ofDigits ds : Int) else (ofDigits ds : Int)) := by
  obtain ⟨first, rest, rfl⟩ := List.exists_cons_of_ne_nil hne
  have hfirst := h first List.mem_cons_self
  have hbound := toNat_of_isAscii hfirst
  have hblank : Blank.isAsciiBlank first = false := by
    simp only [Blank.isAsciiBlank, Bool.or_eq_false_iff, beq_eq_false_iff_ne,
      Bool.and_eq_false_iff, decide_eq_false_iff_not]
    omega
  have hsplit : splitSign (((if negative then ['-'] else []) ++ first :: rest).dropWhile
      Blank.isAsciiBlank) = (negative, first :: rest) := by
    cases negative with
    | true => rfl
    | false =>
        rw [if_neg Bool.false_ne_true, List.nil_append, List.dropWhile_cons_of_neg (by simp [hblank])]
        unfold splitSign
        split
        · rename_i heq
          cases heq
          exact absurd rfl (ne_of_isAscii hfirst rfl)
        · rename_i heq
          cases heq
          exact absurd rfl (ne_of_isAscii hfirst rfl)
        · rfl
  have hpart : ∀ c ∈ first :: rest, (Digit.isAscii c || c == '_') = true := by
    intro c hc
    rw [h c hc, Bool.true_or]
  have htake : (first :: rest).takeWhile (fun c => Digit.isAscii c || c == '_') = first :: rest :=
    List.takeWhile_eq_self_iff.mpr hpart
  have hdrop : (first :: rest).dropWhile (fun c => Digit.isAscii c || c == '_') = [] :=
    List.dropWhile_eq_nil_iff.mpr hpart
  unfold readAscii
  simp only [hsplit, htake, hdrop, joinDigits_of_isAscii h (.inl hne), List.dropWhile_nil,
    List.isEmpty_nil, if_true]

theorem readAscii_of_sign {negative : Bool} {ds : List Char} (hne : ds ≠ [])
    (h : ∀ c ∈ ds, Digit.isAscii c = true) (hlength : ds.length ≤ maxDigits) :
    readAscii ((if negative then ['-'] else []) ++ ds) =
      .ok (if negative then -(ofDigits ds : Int) else (ofDigits ds : Int)) := by
  rw [readAscii_digits negative hne h, if_neg (Nat.not_lt.mpr hlength)]

/-- A number of a few digits may be written. -/
theorem fits_of_lt_pow {n k : Nat} (h : n < Nat.pow 10 k) (hk : k ≤ maxDigits) : fits n = true := by
  have hmono : ∀ limit, k ≤ limit → Nat.pow 10 k ≤ Nat.pow 10 limit :=
    fun _ hlimit => Nat.pow_le_pow_right (Nat.zero_lt_succ 9) hlimit
  rw [fits, decide_eq_true_eq, Int.natAbs_natCast]
  exact Nat.lt_of_lt_of_le h (hmono maxDigits hk)

/-- An integer that may be written has no more digits than may be read. -/
theorem length_digits_of_fits {n : Int} (h : fits n = true) :
    (digits n.natAbs).length ≤ maxDigits :=
  length_digits_le (Nat.zero_lt_succ _) (of_decide_eq_true h)

/-- A sign and a magnitude are an integer. -/
theorem signed_natAbs (n : Int) : (if n < 0 then -(n.natAbs : Int) else (n.natAbs : Int)) = n := by
  split <;> omega

/-- What is written is read back. -/
theorem read_render {n : Int} (h : fits n = true) : read (render n) = .ok n := by
  have hlength := length_digits_of_fits h
  have hascii : ∀ c ∈ (if n < 0 then ['-'] else []) ++ digits n.natAbs, c.toNat < 128 := by
    intro c hc
    rcases List.mem_append.mp hc with hsign | hdigit
    · split at hsign
      · rw [List.mem_singleton.mp hsign]
        decide
      · cases hsign
    · have hbound := toNat_of_isAscii (isAscii_of_mem_digits hdigit)
      omega
  have hsigned := @readAscii_of_sign (decide (n < 0)) _ (digits_ne_nil n.natAbs)
    (fun _ hc => isAscii_of_mem_digits hc) hlength
  simp only [decide_eq_true_eq, ofDigits_digits] at hsigned
  rw [read, render, String.toList_ofList, foldScripts_of_ascii hascii, hsigned,
    signed_natAbs]

theorem write?_of_fits {n : Int} (h : fits n = true) : write? n = some (render n) := by
  unfold write?
  exact if_pos h

theorem text_of_fits {n : Int} (h : fits n = true) : text n = .ok (render n) := by
  unfold text
  rw [write?_of_fits h]

theorem of_text_eq_ok {n : Int} {s : String} (h : text n = .ok s) :
    fits n = true ∧ s = render n := by
  unfold text write? at h
  cases hfits : fits n with
  | true =>
      rw [hfits] at h
      cases h
      exact ⟨rfl, rfl⟩
  | false =>
      rw [hfits] at h
      cases h

theorem text_of_not_fits {n : Int} (h : fits n = false) : text n = .error .tooLongToWrite := by
  unfold text write?
  rw [h]
  rfl

theorem of_text_eq_error {n : Int} {fault : ValueFault} (h : text n = .error fault) :
    fits n = false ∧ fault = .tooLongToWrite := by
  cases hfits : fits n with
  | true =>
      rw [text_of_fits hfits] at h
      cases h
  | false =>
      rw [text_of_not_fits hfits] at h
      cases h
      exact ⟨rfl, rfl⟩

/-- The text of an integer is the numeral of that integer. -/
theorem parse_of_text {n : Int} {s : String} (h : text n = .ok s) : parse s = .ok n := by
  obtain ⟨hfits, rfl⟩ := of_text_eq_ok h
  rw [parse, read_render hfits]

/-- A plain numeral is digits and nothing else. -/
theorem isPlain_iff {s : String} :
    isPlain s = true ↔ s.toList ≠ [] ∧ ∀ c ∈ s.toList, Digit.isAscii c = true := by
  rw [isPlain, Bool.and_eq_true, List.all_eq_true, Bool.not_eq_true', ← Bool.not_eq_true,
    String.isEmpty_iff, ← String.toList_eq_nil_iff]

/-- A plain numeral is the number that its digits write, unless there are too many of them. -/
theorem parse_of_isPlain {s : String} (h : isPlain s = true) :
    parse s = if s.toList.length > maxDigits then .error (.tooLongToRead s.toList.length)
      else .ok (ofDigits s.toList : Int) := by
  obtain ⟨hne, hdigits⟩ := isPlain_iff.mp h
  have hascii : ∀ c ∈ s.toList, c.toNat < 128 := by
    intro c hc
    have hbound := toNat_of_isAscii (hdigits c hc)
    omega
  have hread := readAscii_digits false hne hdigits
  simp only [Bool.false_eq_true, if_false, List.nil_append] at hread
  rw [parse, read, foldScripts_of_ascii hascii, hread]
  by_cases hlong : s.toList.length > maxDigits
  · rw [if_pos hlong, if_pos hlong]
  · rw [if_neg hlong, if_neg hlong]

/-- A natural number is written by digits alone. -/
theorem isPlain_render (n : Nat) : isPlain (render n) = true := by
  have hlist : (render n).toList = digits n := by
    rw [render, String.toList_ofList, if_neg (by omega), List.nil_append, Int.natAbs_natCast]
  have hne : (render n).isEmpty = false := by
    rw [Bool.eq_false_iff]
    intro hempty
    rw [String.isEmpty_iff] at hempty
    rw [hempty] at hlist
    exact digits_ne_nil n hlist.symm
  rw [isPlain, hlist, hne, Bool.not_false, Bool.true_and, List.all_eq_true]
  exact fun c hc => isAscii_of_mem_digits hc

/-! ### Sizes -/

theorem asciiValue_lt_ten {c : Char} (h : Digit.isAscii c = true) : Digit.asciiValue c < 10 := by
  have hc := toNat_of_isAscii h
  rw [Digit.asciiValue]
  omega

/-- Digits write a number below the power of ten of their count. -/
theorem ofDigits_lt_pow {ds : List Char} (h : ∀ c ∈ ds, Digit.isAscii c = true) :
    ofDigits ds < 10 ^ ds.length := by
  have hvalues : ∀ value ∈ ds.reverse.map Digit.asciiValue, value < 10 := by
    intro value hvalue
    obtain ⟨c, hc, rfl⟩ := List.mem_map.mp hvalue
    exact asciiValue_lt_ten (h c (List.mem_reverse.mp hc))
  have hbound := Nat.ofDigits_lt_base_pow_length (by decide) hvalues
  rw [List.length_map, List.length_reverse] at hbound
  rw [ofDigits_eq]
  exact hbound

/-- The integer of as many digits as may be read, with either sign, may be written. -/
theorem fits_of_digits {ds : List Char} (h : ∀ c ∈ ds, Digit.isAscii c = true)
    (hlength : ds.length ≤ maxDigits) (negative : Bool) :
    fits (if negative then -(ofDigits ds : Int) else (ofDigits ds : Int)) = true := by
  have hfits : fits (ofDigits ds : Int) = true := fits_of_lt_pow (ofDigits_lt_pow h) hlength
  cases negative with
  | true =>
      rw [if_pos rfl, fits, Int.natAbs_neg]
      exact hfits
  | false => exact hfits

/-- A natural number may be written exactly when it has no more digits than the limit. -/
theorem fits_natCast_iff {n : Nat} :
    fits n = true ↔ (Nat.digits 10 n).length ≤ maxDigits := by
  have hdigits : ∀ limit, n < Nat.pow 10 limit ↔ (Nat.digits 10 n).length ≤ limit :=
    fun limit => (Nat.digits_length_le_iff (by decide) n).symm
  rw [fits, decide_eq_true_eq, Int.natAbs_natCast]
  exact hdigits maxDigits

/-! ### Zeros in front -/

/-- A numeral without the zeros in front; of zeros alone one is kept. -/
def trimmed (s : String) : String :=
  match s.toList.dropWhile (· == '0') with
  | [] => "0"
  | ds => String.ofList ds

theorem digitChar_asciiValue {c : Char} (h : Digit.isAscii c = true) :
    digitChar (Digit.asciiValue c) = c := by
  obtain ⟨hlow, -⟩ := toNat_of_isAscii h
  rw [digitChar, Digit.asciiValue, Nat.add_sub_cancel' hlow, Char.ofNat_toNat]

/-- Zeros in front do not count. -/
theorem ofDigits_dropWhile (cs : List Char) : ofDigits (cs.dropWhile (· == '0')) = ofDigits cs := by
  induction cs with
  | nil => rfl
  | cons c rest ih =>
      by_cases hzero : c = '0'
      · subst hzero
        rw [List.dropWhile_cons_of_pos (by rfl), ih]
        rfl
      · rw [List.dropWhile_cons_of_neg (by simpa using hzero)]

/-- Digits that do not begin with a zero are the shortest ones of their number. -/
theorem digits_ofDigits {c : Char} {rest : List Char}
    (h : ∀ d ∈ c :: rest, Digit.isAscii d = true) (hhead : c ≠ '0') :
    digits (ofDigits (c :: rest)) = c :: rest := by
  have hc := h c List.mem_cons_self
  have hdigits : Nat.digits 10 (ofDigits (c :: rest)) =
      (c :: rest).reverse.map Digit.asciiValue := by
    rw [ofDigits_eq]
    refine Nat.digits_ofDigits 10 (by decide) _ ?_ fun hne => ?_
    · intro value hvalue
      obtain ⟨d, hd, rfl⟩ := List.mem_map.mp hvalue
      exact asciiValue_lt_ten (h d (List.mem_reverse.mp hd))
    · -- The last of the reversed digits is the first one.
      simp only [List.reverse_cons, List.map_append, List.map_cons, List.map_nil,
        List.getLast_append_singleton]
      intro hzero
      refine hhead ?_
      rw [← digitChar_asciiValue hc, hzero]
      rfl
  have hpos : ofDigits (c :: rest) ≠ 0 := by
    intro hzero
    rw [hzero] at hdigits
    simp at hdigits
  rw [digits_eq_numeral, numeral, if_neg hpos, hdigits, List.map_map, List.map_reverse,
    List.reverse_reverse]
  exact (List.map_congr_left fun d hd => digitChar_asciiValue (h d hd)).trans (List.map_id _)

/-- The number that a plain numeral writes is shown as the numeral without the zeros in front. -/
theorem render_ofDigits {s : String} (h : isPlain s = true) :
    render (ofDigits s.toList : Nat) = trimmed s := by
  obtain ⟨-, hdigits⟩ := isPlain_iff.mp h
  have hrender : ∀ n : Nat, render n = String.ofList (digits n) := by
    intro n
    rw [render, if_neg (by omega), List.nil_append, Int.natAbs_natCast]
  rw [hrender, ← ofDigits_dropWhile, trimmed]
  split
  · rename_i hzeros
    rw [hzeros]
    rfl
  · rename_i hne
    obtain ⟨c, rest, hcons⟩ := List.exists_cons_of_ne_nil hne
    have hhead : c ≠ '0' := by
      have hnot := List.head_dropWhile_not (· == '0') hne
      simp only [hcons, List.head_cons, beq_eq_false_iff_ne] at hnot
      exact hnot
    rw [hcons, digits_ofDigits (fun d hd => hdigits d ?_) hhead]
    rw [← hcons] at hd
    exact (List.dropWhile_suffix _).subset hd

end Decimal

end SumTree
