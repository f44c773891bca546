import SumTree.Proofs.Wire.Record

/-!
# Hexadecimal text of numbers and of digests

A text is read as a number exactly when it is read as a digest, namely when it is the mark of base
sixteen followed by one or more digits (`digits?_eq_some_iff`). The bytes of a digest are the number in
base 256, the first byte being the highest (`digest_of_spells`), so that the two readings never differ.
Both undo their writers: a number from zero on is read back, and so is every digest that is not empty.

## Main Definitions

* `Hexadecimal.alphabet` — the digits of base sixteen.
* `Hexadecimal.Spells` — a text is the mark and some digits.
-/

namespace SumTree

/-! ### Digits and bytes -/

namespace Hex

theorem exists_of_isDigit {c : Char} (h : isDigit c = true) :
    ∃ d, digitValue? c = some d ∧ d < 16 := by
  obtain ⟨d, hd⟩ := Option.isSome_iff_exists.mp h
  refine ⟨d, hd, ?_⟩
  unfold digitValue? at hd
  grind

/-- Digits come in pairs, one for each byte, and both write the same number. -/
theorem exists_toBytes? {ds : List Char} (hdigits : ∀ c ∈ ds, isDigit c = true)
    (heven : ds.length % 2 = 0) : ∃ bytes, toBytes? ds = some bytes ∧
      2 * bytes.length = ds.length ∧ ∀ n, bytes.foldl (fun n b => 256 * n + b.toNat) n =
        ds.foldl (fun n c => 16 * n + (digitValue? c).getD 0) n := by
  induction ds using toBytes?.induct with
  | case1 => exact ⟨[], rfl, rfl, fun n => rfl⟩
  | case2 c => cases heven
  | case3 high low rest ih =>
      obtain ⟨h, hhigh, hh⟩ := exists_of_isDigit (hdigits high (by simp))
      obtain ⟨l, hlow, hl⟩ := exists_of_isDigit (hdigits low (by simp))
      rw [List.length_cons, List.length_cons] at heven ⊢
      obtain ⟨bytes, hread, hlength, hvalue⟩ :=
        ih (fun c hc => hdigits c (by simp [hc])) (by omega)
      have hbyte : (UInt8.ofNat (16 * h + l)).toNat = 16 * h + l := by
        rw [UInt8.toNat_ofNat']
        omega
      refine ⟨UInt8.ofNat (16 * h + l) :: bytes, ?_, ?_, fun n => ?_⟩
      · simp [toBytes?, hhigh, hlow, hread]
      · rw [List.length_cons]
        omega
      · rw [List.foldl_cons, List.foldl_cons, List.foldl_cons, hvalue, hbyte, hhigh, hlow]
        congr 1
        simp only [Option.getD_some]
        omega

/-- The number in base 256 that bytes are, the first one being the highest. -/
theorem foldl_toNat_eq_ofDigits (bytes : List UInt8) :
    bytes.foldl (fun n b => 256 * n + b.toNat) 0 =
      Nat.ofDigits 256 (bytes.reverse.map UInt8.toNat) := by
  rw [Nat.ofDigits_eq_foldr, List.foldr_map, List.foldr_reverse]
  congr 1
  funext n b
  exact Nat.add_comm _ _

end Hex

/-! ### Texts with the mark of base sixteen -/

namespace Hexadecimal

/-- The digits of base sixteen, those from ten on in either case. -/
def alphabet : List Char :=
  "0123456789abcdefABCDEF".toList

/-- A text is the mark of base sixteen, in either case, and one or more digits. -/
structure Spells (s : String) (ds : List Char) : Prop where
  marked : s.toList = '0' :: 'x' :: ds ∨ s.toList = '0' :: 'X' :: ds
  nonempty : ds ≠ []
  digits : ∀ c ∈ ds, c ∈ alphabet

theorem isDigit_iff {c : Char} : Hex.isDigit c = true ↔ c ∈ alphabet := by
  have hcodes : c ∈ alphabet ↔ c.toNat ∈ alphabet.map Char.toNat :=
    (List.mem_map_of_injective fun _ _ => Char.toNat_inj.mp).symm
  have hlist : alphabet.map Char.toNat = [48, 49, 50, 51, 52, 53, 54, 55, 56, 57, 97, 98, 99, 100,
      101, 102, 65, 66, 67, 68, 69, 70] := by decide
  have hranges : Hex.isDigit c = true ↔ (48 ≤ c.toNat ∧ c.toNat ≤ 57) ∨
      (97 ≤ c.toNat ∧ c.toNat ≤ 102) ∨ (65 ≤ c.toNat ∧ c.toNat ≤ 70) := by
    unfold Hex.isDigit Hex.digitValue?
    grind
  rw [hcodes, hlist, hranges]
  simp only [List.mem_cons, List.not_mem_nil, or_false]
  omega

/-- The digits of a text are what stands behind the mark. -/
theorem digits?_eq_some_iff {s : String} {ds : List Char} : digits? s = some ds ↔ Spells s ds := by
  unfold digits?
  constructor
  · intro h
    split at h
    · rename_i mark found heq
      split at h
      · rename_i hgood
        cases h
        simp only [Bool.and_eq_true, Bool.or_eq_true, beq_iff_eq, Bool.not_eq_true',
          List.isEmpty_eq_false_iff, List.all_eq_true] at hgood
        obtain ⟨⟨hmark, hne⟩, hdigits⟩ := hgood
        refine ⟨?_, hne, fun c hc => isDigit_iff.mp (hdigits c hc)⟩
        rcases hmark with rfl | rfl
        · exact .inl heq
        · exact .inr heq
      · cases h
    · cases h
  · rintro ⟨hmarked, hne, hdigits⟩
    have hall : ds.all Hex.isDigit = true :=
      List.all_eq_true.mpr fun c hc => isDigit_iff.mpr (hdigits c hc)
    rcases hmarked with hmarked | hmarked
    · rw [hmarked]
      simp [hne, hall]
    · rw [hmarked]
      simp [hne, hall]

variable {s : String} {ds : List Char}

theorem Spells.isDigit (h : Spells s ds) : ∀ c ∈ ds, Hex.isDigit c = true :=
  fun c hc => isDigit_iff.mpr (h.digits c hc)

theorem number_of_spells (h : Spells s ds) : number s = .ok (Hex.toNat ds) := by
  rw [number, digits?_eq_some_iff.mpr h]

/-- A digest has a byte for every two digits, an odd one counting as two, and is the number that the
digits write. -/
theorem digest_of_spells (h : Spells s ds) : ∃ bytes, digest s = .ok bytes ∧
    bytes.length = (ds.length + 1) / 2 ∧
    Nat.ofDigits 256 (bytes.reverse.map UInt8.toNat) = Hex.toNat ds := by
  -- A zero in front changes nothing but the number of digits.
  obtain ⟨even, heven, hlength, hdigits, hvalue⟩ : ∃ even,
      even = (if ds.length % 2 == 1 then '0' :: ds else ds) ∧
      even.length = 2 * ((ds.length + 1) / 2) ∧ (∀ c ∈ even, Hex.isDigit c = true) ∧
      Hex.toNat even = Hex.toNat ds := by
    by_cases hodd : ds.length % 2 = 1
    · refine ⟨'0' :: ds, by rw [hodd]; rfl, ?_, ?_, rfl⟩
      · rw [List.length_cons]
        omega
      · exact List.forall_mem_cons.mpr ⟨rfl, h.isDigit⟩
    · refine ⟨ds, by rw [if_neg (by simpa using hodd)], by omega, h.isDigit, rfl⟩
  obtain ⟨bytes, hread, hbytes, hfold⟩ := Hex.exists_toBytes? hdigits (by omega)
  refine ⟨bytes, ?_, by omega, ?_⟩
  · unfold digest
    rw [digits?_eq_some_iff.mpr h]
    dsimp only
    rw [← heven, hread]
  · rw [← Hex.foldl_toNat_eq_ofDigits, hfold, ← hvalue]
    rfl

theorem exists_number_iff : (∃ n, number s = .ok n) ↔ ∃ ds, Spells s ds := by
  constructor
  · rintro ⟨n, hn⟩
    unfold number at hn
    split at hn
    · exact ⟨_, digits?_eq_some_iff.mp ‹_›⟩
    · cases hn
  · rintro ⟨ds, h⟩
    exact ⟨_, number_of_spells h⟩

theorem exists_digest_iff : (∃ bytes, digest s = .ok bytes) ↔ ∃ ds, Spells s ds := by
  constructor
  · rintro ⟨bytes, hbytes⟩
    unfold digest at hbytes
    split at hbytes
    · exact ⟨_, digits?_eq_some_iff.mp ‹_›⟩
    · cases hbytes
  · rintro ⟨ds, h⟩
    obtain ⟨bytes, hbytes, -⟩ := digest_of_spells h
    exact ⟨bytes, hbytes⟩

/-- A number below zero is written with a sign in front of the mark, and nothing reads that. -/
theorem digits?_ofInt_of_neg {n : Int} (h : n < 0) : digits? (Hex.ofInt n) = none := by
  rw [Hex.ofInt, if_pos h, digits?, String.toList_ofList]
  rfl

/-- The same texts are read as numbers and as digests: the mark of base sixteen and one or more digits.
Such a digest has half as many bytes as there are digits, rounded up, and in base 256 it is the number.
A number from zero on is read back, one below zero is read by neither, and a digest that is not empty is
read back. -/
theorem number_agrees_with_digest :
    (∀ s : String,
      ((∃ n, number s = .ok n) ↔ ∃ ds, Spells s ds) ∧
      ((∃ bytes, digest s = .ok bytes) ↔ ∃ ds, Spells s ds) ∧
      ∀ ds, Spells s ds → ∃ bytes, digest s = .ok bytes ∧
        bytes.length = (ds.length + 1) / 2 ∧
        number s = .ok (Nat.ofDigits 256 (bytes.reverse.map UInt8.toNat))) ∧
    (∀ n : Int, 0 ≤ n → number (Hex.ofInt n) = .ok n.toNat) ∧
    (∀ n : Int, n < 0 → number (Hex.ofInt n) = .error (.notHex (Hex.ofInt n)) ∧
      digest (Hex.ofInt n) = .error (.notHex (Hex.ofInt n))) ∧
    ∀ node : Node, node.hash ≠ [] → digest node.hashText = .ok node.hash := by
  refine ⟨fun s => ⟨exists_number_iff, exists_digest_iff, fun ds h => ?_⟩, fun n => number_ofInt,
    fun n h => ?_, fun node => digest_hashText⟩
  · obtain ⟨bytes, hbytes, hlength, hvalue⟩ := digest_of_spells h
    refine ⟨bytes, hbytes, hlength, ?_⟩
    rw [hvalue]
    exact number_of_spells h
  · have hnone := digits?_ofInt_of_neg h
    rw [number, digest, hnone]
    exact ⟨rfl, rfl⟩

/-- Three digits in both cases behind a capital mark, a number below zero, and a digest whose first byte
is zero. -/
theorem number_agrees_with_digest_mixed :
    (∃ bytes, digest "0X0fF" = .ok bytes ∧ bytes.length = 2 ∧
      number "0X0fF" = .ok (Nat.ofDigits 256 (bytes.reverse.map UInt8.toNat))) ∧
    number (Hex.ofInt 255) = .ok 255 ∧ number (Hex.ofInt (-5)) = .error (.notHex (Hex.ofInt (-5))) ∧
    digest (Node.hashText ⟨[0, 255], []⟩) = .ok [0, 255] := by
  obtain ⟨htexts, hnumber, hnegative, hdigest⟩ := number_agrees_with_digest
  have hdigits : ['0', 'f', 'F'].all Hex.isDigit = true := by decide
  have hspells : Spells "0X0fF" ['0', 'f', 'F'] :=
    ⟨.inr rfl, by decide, fun c hc => isDigit_iff.mp (List.all_eq_true.mp hdigits c hc)⟩
  exact ⟨(htexts "0X0fF").2.2 _ hspells, hnumber 255 (by decide), (hnegative (-5) (by decide)).1,
    hdigest ⟨[0, 255], []⟩ (by decide)⟩

end Hexadecimal

end SumTree
