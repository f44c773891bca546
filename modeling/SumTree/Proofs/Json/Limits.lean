import SumTree.Json.Reader
import SumTree.Proofs.Except
import SumTree.Proofs.Number.Decimal

/-!
# Integers that are read may be written

The reader refuses an integer of more digits than may be written, so that no value that was read holds
one (`bounded_of_readChars`). What is read from a document can therefore always be shown again.

## Main Definitions

* `Json.Bounded` — the values all of whose integers may be written.
-/

namespace SumTree

namespace Json

/-- The values all of whose integers may be written. -/
inductive Bounded : Json → Prop
  | null : Bounded .null
  | bool (b : Bool) : Bounded (.bool b)
  | int {n : Int} (h : Decimal.fits n = true) : Bounded (.int n)
  | real (x : Float) : Bounded (.num (.real x))
  | str (s : String) : Bounded (.str s)
  | unpaired (points : List Nat) : Bounded (.unpaired points)
  | arr {items : List Json} (h : ∀ v ∈ items, Bounded v) : Bounded (.arr items)
  | obj {members : List (String × Json)} (h : ∀ m ∈ members, Bounded m.2) : Bounded (.obj members)

theorem Bounded.fits {n : Int} (h : Bounded (.num (.int n))) : Decimal.fits n = true := by
  cases h with
  | int hfits => exact hfits

/-- A reader all of whose values are bounded. -/
def ReadsBounded (reader : Reader Json) : Prop :=
  ∀ {cs : List Char} {v : Json} {rest : List Char}, reader cs = .ok (v, rest) → Bounded v

/-! ### Scalars -/

theorem isAscii_of_wholeDigits {begun : Nat} {cs ds : List Char} (h : wholeDigits begun cs = .ok ds) :
    ∀ c ∈ ds, Digit.isAscii c = true := by
  intro c hc
  unfold wholeDigits at h
  split at h
  · cases h
    rw [List.mem_singleton.mp hc]
    rfl
  · split at h
    · cases h
      exact (List.mem_takeWhile_imp hc)
    · cases h
  · cases h

theorem readsBounded_readNumber : ReadsBounded readNumber := by
  intro cs v rest h
  unfold readNumber at h
  generalize splitMinus cs = signed at h
  obtain ⟨negative, body⟩ := signed
  obtain ⟨whole, hwhole, h⟩ := exists_of_bind_eq_ok h
  dsimp only at h
  split at h
  · split at h
    · cases h
    · rename_i hlength
      cases h
      exact .int (Decimal.fits_of_digits (isAscii_of_wholeDigits hwhole) (Nat.not_lt.mp hlength) _)
  · split at h
    · cases h
      exact .real _
    · cases h

theorem bounded_of_mem_words : ∀ w ∈ words, Bounded w.2 := by
  simp only [words, List.forall_mem_cons]
  exact ⟨.null, .bool true, .bool false, .real _, .real _, .real _, fun _ h => absurd h List.not_mem_nil⟩

theorem readsBounded_readScalar : ReadsBounded readScalar := by
  intro cs v rest h
  unfold readScalar at h
  split at h
  · rename_i found hfound
    cases h
    obtain ⟨w, hw, hmap⟩ := List.exists_of_findSome?_eq_some hfound
    obtain ⟨rest', -, heq⟩ := Option.map_eq_some_iff.mp hmap
    cases heq
    exact bounded_of_mem_words w hw
  · exact readsBounded_readNumber h

theorem readsBounded_readString (dialect : Dialect) : ReadsBounded (readString dialect) := by
  intro cs v rest h
  unfold readString at h
  obtain ⟨⟨points, after⟩, -, h⟩ := exists_of_bind_eq_ok h
  dsimp only at h
  split at h
  · cases h
    exact .str _
  · split at h
    · cases h
      exact .unpaired _
    · cases h

/-! ### Containers -/

theorem bounded_of_readItems {item : Reader Json} (hitem : ReadsBounded item) {fuel : Nat}
    {done items : List Json} {cs rest : List Char}
    (h : readItems item fuel done cs = .ok (items, rest)) (hdone : ∀ v ∈ done, Bounded v) :
    ∀ v ∈ items, Bounded v := by
  induction fuel generalizing done cs with
  | zero => cases h
  | succ fuel ih =>
      unfold readItems at h
      obtain ⟨⟨value, after⟩, hvalue, h⟩ := exists_of_bind_eq_ok h
      have hmore : ∀ v ∈ value :: done, Bounded v :=
        List.forall_mem_cons.mpr ⟨hitem hvalue, hdone⟩
      dsimp only at h
      split at h
      · exact ih h hmore
      · cases h
        exact fun v hv => hmore v (List.mem_reverse.mp hv)
      · cases h

theorem bounded_of_readMembers {dialect : Dialect} {item : Reader Json} (hitem : ReadsBounded item)
    {fuel : Nat} {done members : List (String × Json)} {cs rest : List Char}
    (h : readMembers dialect item fuel done cs = .ok (members, rest))
    (hdone : ∀ m ∈ done, Bounded m.2) : ∀ m ∈ members, Bounded m.2 := by
  induction fuel generalizing done cs with
  | zero => cases h
  | succ fuel ih =>
      unfold readMembers at h
      split at h
      · obtain ⟨⟨name, after⟩, -, h⟩ := exists_of_bind_eq_ok h
        dsimp only at h
        split at h
        · obtain ⟨⟨value, after'⟩, hvalue, h⟩ := exists_of_bind_eq_ok h
          have hmore : ∀ m ∈ (nameOf name, value) :: done, Bounded m.2 :=
            List.forall_mem_cons.mpr ⟨hitem hvalue, hdone⟩
          dsimp only at h
          split at h
          · exact ih h hmore
          · cases h
            exact fun m hm => hmore m (List.mem_reverse.mp hm)
          · cases h
        · cases h
      · cases h

theorem bounded_nil : Bounded (.arr []) :=
  .arr fun _ h => absurd h List.not_mem_nil

theorem bounded_empty : Bounded (.obj []) :=
  .obj fun _ h => absurd h List.not_mem_nil

/-- The recursion is that of the reader, on how many containers may be inside each other. -/
theorem readsBounded_readValue (dialect : Dialect) (size depth : Nat) :
    ReadsBounded (readValue dialect size depth) := by
  induction depth using Nat.strongRecOn with
  | ind depth ih =>
      intro cs v rest h
      unfold readValue at h
      split at h
      · exact readsBounded_readString dialect h
      · split at h
        · cases h
          exact bounded_nil
        · cases h
      · split at h
        · cases h
          exact bounded_empty
        · cases h
      · split at h
        · cases h
          exact bounded_nil
        · obtain ⟨⟨items, after⟩, hitems, h⟩ := exists_of_bind_eq_ok h
          cases h
          refine .arr (bounded_of_readItems (ih _ (Nat.lt_succ_self _)) hitems ?_)
          exact fun _ hv => absurd hv List.not_mem_nil
      · split at h
        · cases h
          exact bounded_empty
        · obtain ⟨⟨members, after⟩, hmembers, h⟩ := exists_of_bind_eq_ok h
          cases h
          refine .obj (bounded_of_readMembers (ih _ (Nat.lt_succ_self _)) hmembers ?_)
          exact fun _ hm => absurd hm List.not_mem_nil
      · exact readsBounded_readScalar h

/-- No value that was read holds an integer that may not be written. -/
theorem bounded_of_readChars {dialect : Dialect} {cs : List Char} {v : Json}
    (h : readChars dialect cs = .ok v) : Bounded v := by
  unfold readChars at h
  obtain ⟨⟨value, rest⟩, hvalue, h⟩ := exists_of_bind_eq_ok h
  dsimp only at h
  split at h
  · cases h
    exact readsBounded_readValue dialect _ _ hvalue
  · cases h

end Json

end SumTree
