import SumTree.Proofs.Json.Limits
import SumTree.Schema.Check

/-!
# What a check has seen

A check that passes has seen every part that it asks for: the members of a record
(`exists_of_required`), the elements of a list (`exists_of_list`), the digits of an integer
(`fits_of_integer`). A check that does not pass names at least one issue, so that a refusal is never
without a reason (`Checked.Explained`).

## Main Definitions

* `Checked.Explained` — the outcomes that are a value or name an issue.
-/

namespace SumTree

namespace Checked

variable {α β : Type}

/-! ### Checks that pass -/

theorem under_eq_ok_iff {step : Step} {x : Checked α} {a : α} :
    under step x = .ok a ↔ x = .ok a := by
  cases x with
  | ok b => exact Iff.rfl
  | error issues => exact ⟨fun h => (nomatch h), fun h => (nomatch h)⟩

theorem both_eq_ok_iff {x : Checked α} {y : Checked β} {p : α × β} :
    both x y = .ok p ↔ x = .ok p.1 ∧ y = .ok p.2 := by
  cases x with
  | ok a =>
      cases y with
      | ok b => simp [both, Prod.ext_iff]
      | error issues => simp [both]
  | error issues =>
      cases y with
      | ok b => simp [both]
      | error others => simp [both]

theorem forall₂_of_items {check : Json → Checked α} {index : Nat} {items : List Json}
    {values : List α} (h : Checked.items check index items = .ok values) :
    List.Forall₂ (fun v a => check v = .ok a) items values := by
  induction items generalizing index values with
  | nil =>
      cases h
      exact .nil
  | cons v rest ih =>
      obtain ⟨p, hp, rfl⟩ := exists_of_map_eq_ok h
      obtain ⟨hv, hrest⟩ := both_eq_ok_iff.mp hp
      exact .cons (under_eq_ok_iff.mp hv) (ih hrest)

/-! ### Checks that do not pass -/

/-- The outcome is a value or names at least one issue. -/
def Explained (x : Checked α) : Prop :=
  x ≠ .error []

theorem explained_ok (a : α) : Explained (.ok a : Checked α) :=
  fun h => (nomatch h)

theorem explained_fail (kind : IssueKind) : Explained (fail kind : Checked α) :=
  fun h => (nomatch h)

theorem explained_refuse (text : String) : Explained (refuse text : Checked α) :=
  fun h => (nomatch h)

namespace Explained

theorem under {x : Checked α} (hx : Explained x) (step : Step) :
    Explained (Checked.under step x) := by
  cases x with
  | ok a => exact explained_ok a
  | error issues =>
      intro h
      rw [Checked.under, Except.error.injEq, List.map_eq_nil_iff] at h
      rw [h] at hx
      exact hx rfl

theorem both {x : Checked α} {y : Checked β} (hx : Explained x) (hy : Explained y) :
    Explained (Checked.both x y) := by
  cases x with
  | ok a =>
      cases y with
      | ok b => exact explained_ok (a, b)
      | error issues =>
          intro h
          cases h
          exact hy rfl
  | error issues =>
      cases y with
      | ok b =>
          intro h
          cases h
          exact hx rfl
      | error others =>
          intro h
          rw [Checked.both, Except.error.injEq, List.append_eq_nil_iff] at h
          rw [h.1] at hx
          exact hx rfl

theorem map {x : Checked α} (hx : Explained x) (f : α → β) : Explained (x.map f) := by
  cases x with
  | ok a => exact explained_ok (f a)
  | error issues =>
      intro h
      cases h
      exact hx rfl

theorem bind {x : Checked α} {f : α → Checked β} (hx : Explained x) (hf : ∀ a, Explained (f a)) :
    Explained (x >>= f) := by
  cases x with
  | ok a => exact hf a
  | error issues =>
      intro h
      cases h
      exact hx rfl

theorem mapM {f : α → Checked β} (hf : ∀ a, Explained (f a)) (xs : List α) :
    Explained (xs.mapM f) := by
  induction xs with
  | nil => exact explained_ok []
  | cons x rest ih =>
      rw [List.mapM_cons]
      exact (hf x).bind fun _ => ih.bind fun _ => explained_ok _

theorem items {check : Json → Checked α} (hcheck : ∀ v, Explained (check v)) (index : Nat)
    (vs : List Json) : Explained (Checked.items check index vs) := by
  induction vs generalizing index with
  | nil => exact explained_ok []
  | cons v rest ih => exact (((hcheck v).under _).both (ih _)).map _

end Explained

end Checked

open Checked

/-! ### Parts of a document -/

/-- A member that is found is among those of the object. -/
theorem Json.Bounded.get? {v member : Json} {name : String} (hv : v.Bounded)
    (h : v.get? name = some member) : member.Bounded := by
  cases hv with
  | obj hmembers =>
      obtain ⟨m, hfound, rfl⟩ := Option.map_eq_some_iff.mp h
      exact hmembers m (List.mem_reverse.mp (List.mem_of_find?_eq_some hfound))
  | _ => cases h

namespace Check

variable {α : Type} {check : Json → Checked α}

/-- A required member that passes is there. -/
theorem exists_of_required {record : Json} {name : String} {a : α}
    (h : required record name check = .ok a) :
    ∃ member, record.get? name = some member ∧ check member = .ok a := by
  rw [required, under_eq_ok_iff] at h
  cases hmember : record.get? name with
  | none =>
      rw [hmember] at h
      cases h
  | some member =>
      rw [hmember] at h
      exact ⟨member, rfl, h⟩

/-- A list passes element by element. -/
theorem exists_of_list {v : Json} {values : List α} (h : list check v = .ok values) :
    ∃ items, List.Forall₂ (fun v a => check v = .ok a) items values := by
  cases v with
  | arr items => exact ⟨items, forall₂_of_items h⟩
  | _ => cases h

theorem explained_required (hcheck : ∀ v, Explained (check v)) (record : Json) (name : String) :
    Explained (required record name check) := by
  refine Explained.under ?_ _
  cases record.get? name with
  | none => exact explained_fail _
  | some v => exact hcheck v

theorem explained_record (hcheck : ∀ v, Explained (check v)) (v : Json) :
    Explained (record check v) := by
  cases v with
  | obj members => exact hcheck _
  | _ => exact explained_fail _

theorem explained_list (hcheck : ∀ v, Explained (check v)) (v : Json) :
    Explained (list check v) := by
  cases v with
  | arr items => exact Explained.items hcheck 0 items
  | _ => exact explained_fail _

theorem explained_text (v : Json) : Explained (text v) := by
  unfold text
  cases textOf? v with
  | none => exact explained_fail _
  | some s => exact explained_ok s

/-! ### Integers -/

theorem isAscii_of_joinDigits {afterDigit : Bool} {cs ds : List Char}
    (h : Decimal.joinDigits afterDigit cs = some ds)
    (hcs : ∀ c ∈ cs, (Digit.isAscii c || c == '_') = true) : ∀ c ∈ ds, Digit.isAscii c = true := by
  induction cs generalizing afterDigit ds with
  | nil =>
      rw [Decimal.joinDigits] at h
      split at h
      · cases h
        exact fun c hc => absurd hc List.not_mem_nil
      · cases h
  | cons c rest ih =>
      rw [List.forall_mem_cons] at hcs
      rw [Decimal.joinDigits] at h
      split at h
      · split at h
        · exact ih h hcs.2
        · cases h
      · rename_i hunderscore
        obtain ⟨others, hothers, rfl⟩ := Option.map_eq_some_iff.mp h
        refine List.forall_mem_cons.mpr ⟨?_, ih hothers hcs.2⟩
        exact (Bool.or_eq_true_iff.mp hcs.1).resolve_right hunderscore

/-- Leading zeros do not count, all other digits of a numeral are limited. -/
theorem fits_of_intNumeral {s : String} {n : Int} (h : intNumeral s = .ok n) :
    Decimal.fits n = true := by
  unfold intNumeral at h
  generalize Decimal.splitSign (Blank.strip isSpace s.toList) = signed at h
  obtain ⟨negative, cs⟩ := signed
  dsimp only at h
  split at h
  · rename_i digits hdigits
    -- What follows the digits decides whether there is an integer, not which one.
    have hsignificant : ∀ zero : Bool, (if !zero then Checked.fail .intNumeral else
        if (digits.dropWhile (· == '0')).length > Decimal.maxDigits then Checked.fail .intTooLong
        else .ok (if negative then -(Decimal.ofDigits (digits.dropWhile (· == '0')) : Int)
          else Decimal.ofDigits (digits.dropWhile (· == '0')))) = .ok n → Decimal.fits n = true := by
      intro zero h
      split at h
      · cases h
      · split at h
        · cases h
        · rename_i hlength
          cases h
          have hascii := isAscii_of_joinDigits hdigits fun c hc => by
            have hpart := List.mem_takeWhile_imp hc
            exact hpart
          refine Decimal.fits_of_digits (fun c hc => hascii c ?_) (Nat.not_lt.mp hlength) negative
          exact (List.dropWhile_suffix _).subset hc
    exact hsignificant _ h
  · cases h

theorem fits_of_natAbs_lt_two_pow {n : Int} (h : n.natAbs < 0x8000000000000000) :
    Decimal.fits n = true := by
  have hpow : n.natAbs < Nat.pow 10 19 := Nat.lt_trans h (by decide)
  have hfits := Decimal.fits_of_lt_pow hpow (by decide)
  rwa [Decimal.fits, Int.natAbs_natCast] at hfits

/-- Whatever an integer is read from, it may be written. -/
theorem fits_of_integer {v : Json} {n : Int} (hv : v.Bounded) (h : integer v = .ok n) :
    Decimal.fits n = true := by
  unfold integer at h
  split at h
  · cases h
    exact hv.fits
  · cases h
    refine fits_of_natAbs_lt_two_pow ?_
    split <;> decide
  · split at h
    · cases h
    · split at h
      · split at h
        · rename_i hsmall
          cases h
          exact fits_of_natAbs_lt_two_pow hsmall
        · cases h
      · cases h
  · exact fits_of_intNumeral h
  · cases h
  · cases h

theorem nonneg_of_natural {v : Json} {n : Int} (h : natural v = .ok n) :
    0 ≤ n ∧ integer v = .ok n := by
  unfold natural at h
  split at h
  · rename_i m hm
    split at h
    · cases h
    · rename_i hsign
      cases h
      exact ⟨Int.not_lt.mp hsign, hm⟩
  · cases h

theorem explained_natural_int (n : Int) : Explained (natural (.int n)) := by
  show Explained (if n < 0 then Checked.fail .belowMinimum else .ok n)
  split
  · exact explained_fail _
  · exact explained_ok n

end Check

end SumTree
