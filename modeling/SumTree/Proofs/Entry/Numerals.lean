import SumTree.Entry
import SumTree.Proofs.Except
import SumTree.Proofs.Number.Decimal

/-!
# Entries of numerals

An entry is read back from the numerals of its balances (`ofNumerals_shown`). Of plain numerals every
list is read, each as the number that its digits write, and the number of digits is all that can be wrong
with one of them (`ofNumerals_eq_ok_iff`, `fault_of_ofNumerals`): a plain numeral has no sign, so that no
balance is negative.

## Main Definitions

* `Entry.shown` — the texts of the balances of an entry.
-/

namespace SumTree

namespace Entry

/-- The texts of the balances of an entry. -/
def shown (e : Entry) : List String :=
  e.amounts.map Decimal.render

theorem isPlain_shown (e : Entry) : ∀ text ∈ e.shown, Decimal.isPlain text = true := by
  intro text htext
  obtain ⟨b, hb, rfl⟩ := List.mem_map.mp htext
  obtain ⟨n, -, rfl⟩ := List.mem_map.mp hb
  exact Decimal.isPlain_render n

theorem naturals_amounts (username : String) (balances : List Nat) :
    naturals username (balances.map Int.ofNat) = .ok balances := by
  induction balances with
  | nil => rfl
  | cons b rest ih =>
      have hsign : ¬ Int.ofNat b < 0 := by simp
      rw [List.map_cons, naturals, if_neg hsign, ih]
      rfl

theorem ofInts_amounts (username : String) (balances : List Nat) :
    ofInts username (balances.map Int.ofNat) = .ok ⟨username, balances⟩ := by
  rw [ofInts, naturals_amounts]
  rfl

/-- An entry is read back from the numerals of its balances. -/
theorem ofNumerals_shown {e : Entry} (h : ∀ b ∈ e.amounts, Decimal.fits b = true) :
    ofNumerals e.username e.shown = .ok e := by
  have hints : e.shown.mapM Decimal.parse = .ok e.amounts :=
    mapM_map_eq_ok fun b hb => Decimal.parse_of_text (Decimal.text_of_fits (h b hb))
  unfold ofNumerals
  rw [hints]
  exact ofInts_amounts e.username e.balances

/-! ### Plain numerals -/

variable {username : String} {texts : List String}

/-- Plain numerals that are not too long are the numbers that their digits write. -/
theorem mapM_parse_of_isPlain (hplain : ∀ text ∈ texts, Decimal.isPlain text = true)
    (hshort : ∀ text ∈ texts, text.toList.length ≤ Decimal.maxDigits) :
    texts.mapM Decimal.parse =
      .ok ((texts.map fun text => Decimal.ofDigits text.toList).map Int.ofNat) := by
  rw [List.map_map]
  refine mapM_eq_ok_map fun text htext => ?_
  rw [Decimal.parse_of_isPlain (hplain text htext), if_neg (Nat.not_lt.mpr (hshort text htext))]
  rfl

/-- Plain numerals that are read are not too long. -/
theorem short_of_mapM_parse (hplain : ∀ text ∈ texts, Decimal.isPlain text = true) {ints : List Int}
    (h : texts.mapM Decimal.parse = .ok ints) :
    ∀ text ∈ texts, text.toList.length ≤ Decimal.maxDigits := by
  intro text htext
  obtain ⟨n, hn⟩ := exists_of_mem_mapM h htext
  rw [Decimal.parse_of_isPlain (hplain text htext)] at hn
  split at hn
  · cases hn
  · omega

/-- Balances in plain numerals are read unless one of them has too many digits. -/
theorem ofNumerals_eq_ok_iff (hplain : ∀ text ∈ texts, Decimal.isPlain text = true) {e : Entry} :
    ofNumerals username texts = .ok e ↔
      (∀ text ∈ texts, text.toList.length ≤ Decimal.maxDigits) ∧
        e = ⟨username, texts.map fun text => Decimal.ofDigits text.toList⟩ := by
  have hread : (∀ text ∈ texts, text.toList.length ≤ Decimal.maxDigits) →
      ofNumerals username texts =
        .ok ⟨username, texts.map fun text => Decimal.ofDigits text.toList⟩ := by
    intro hshort
    rw [ofNumerals, mapM_parse_of_isPlain hplain hshort]
    exact ofInts_amounts username _
  constructor
  · intro h
    obtain ⟨ints, hints, -⟩ := exists_of_bind_eq_ok h
    have hshort := short_of_mapM_parse hplain hints
    rw [hread hshort] at h
    cases h
    exact ⟨hshort, rfl⟩
  · rintro ⟨hshort, rfl⟩
    exact hread hshort

/-- Balances in plain numerals are refused for the number of digits alone. -/
theorem fault_of_ofNumerals (hplain : ∀ text ∈ texts, Decimal.isPlain text = true)
    {fault : ValueFault} (h : ofNumerals username texts = .error fault) :
    ∃ text ∈ texts, Decimal.maxDigits < text.toList.length ∧
      fault = .tooLongToRead text.toList.length := by
  cases hints : texts.mapM Decimal.parse with
  | error found =>
      rw [ofNumerals, hints] at h
      cases h
      obtain ⟨text, htext, hfault⟩ := exists_of_mapM_eq_error hints
      rw [Decimal.parse_of_isPlain (hplain text htext)] at hfault
      split at hfault
      · rename_i hlong
        cases hfault
        exact ⟨text, htext, hlong, rfl⟩
      · cases hfault
  | ok ints =>
      -- Numerals that are all read make an entry.
      rw [(ofNumerals_eq_ok_iff hplain).mpr ⟨short_of_mapM_parse hplain hints, rfl⟩] at h
      cases h

end Entry

end SumTree
