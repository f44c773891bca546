import Mathlib.Data.List.Forall2
import Mathlib.Data.List.Perm.Basic

/-!
# Computations that can fail

A computation that succeeds has succeeded in each of its steps.
-/

namespace SumTree

variable {ε α β : Type}

theorem exists_of_bind_eq_ok {x : Except ε α} {f : α → Except ε β} {b : β}
    (h : x >>= f = .ok b) : ∃ a, x = .ok a ∧ f a = .ok b := by
  cases x with
  | error fault => cases h
  | ok a => exact ⟨a, rfl, h⟩

theorem exists_of_map_eq_ok {x : Except ε α} {f : α → β} {b : β} (h : x.map f = .ok b) :
    ∃ a, x = .ok a ∧ f a = b := by
  cases x with
  | error fault => cases h
  | ok a => exact ⟨a, rfl, Except.ok.inj h⟩

theorem bind_eq_ok_iff {x : Except ε α} {f : α → Except ε β} {b : β} :
    x >>= f = .ok b ↔ ∃ a, x = .ok a ∧ f a = .ok b := by
  refine ⟨exists_of_bind_eq_ok, ?_⟩
  rintro ⟨a, rfl, h⟩
  exact h

/-- What else a first step needs is needed by the whole. -/
theorem bind_eq_ok_iff_and {x x' : Except ε α} {P : Prop} (h : ∀ a, x' = .ok a ↔ x = .ok a ∧ P)
    {f : α → Except ε β} {b : β} : x' >>= f = .ok b ↔ x >>= f = .ok b ∧ P := by
  rw [bind_eq_ok_iff, bind_eq_ok_iff]
  constructor
  · rintro ⟨a, hx', hf⟩
    obtain ⟨hx, hP⟩ := (h a).mp hx'
    exact ⟨⟨a, hx, hf⟩, hP⟩
  · rintro ⟨⟨a, hx, hf⟩, hP⟩
    exact ⟨a, (h a).mpr ⟨hx, hP⟩, hf⟩

theorem map_eq_ok_iff {x : Except ε α} {f : α → β} {b : β} :
    x.map f = .ok b ↔ ∃ a, x = .ok a ∧ f a = b := by
  refine ⟨exists_of_map_eq_ok, ?_⟩
  rintro ⟨a, rfl, rfl⟩
  rfl

theorem mapError_eq_ok_iff {ε' : Type} {x : Except ε α} {f : ε → ε'} {a : α} :
    x.mapError f = .ok a ↔ x = .ok a := by
  cases x with
  | error fault => simp [Except.mapError]
  | ok b => simp [Except.mapError]

/-- A computation over a list gives what it gives for every element. -/
theorem mapM_eq_ok_iff {f : α → Except ε β} {xs : List α} {ys : List β} :
    xs.mapM f = .ok ys ↔ List.Forall₂ (fun x y => f x = .ok y) xs ys := by
  constructor
  · intro h
    induction xs generalizing ys with
    | nil =>
        cases h
        exact .nil
    | cons x rest ih =>
        rw [List.mapM_cons] at h
        obtain ⟨y, hy, h⟩ := exists_of_bind_eq_ok h
        obtain ⟨others, hothers, h⟩ := exists_of_bind_eq_ok h
        cases h
        exact .cons hy (ih hothers)
  · intro h
    induction h with
    | nil => rfl
    | cons hy _ ih =>
        rw [List.mapM_cons, hy, ih]
        rfl

/-- A computation over a list that succeeds has succeeded for every element. -/
theorem exists_of_mem_mapM {f : α → Except ε β} {xs : List α} {ys : List β}
    (h : xs.mapM f = .ok ys) {x : α} (hx : x ∈ xs) : ∃ y, f x = .ok y := by
  obtain ⟨i, hi, rfl⟩ := List.mem_iff_getElem.mp hx
  have hall := mapM_eq_ok_iff.mp h
  exact ⟨_, hall.get hi (hall.length_eq ▸ hi)⟩

/-- A computation over a list that fails has failed for some element. -/
theorem exists_of_mapM_eq_error {f : α → Except ε β} {xs : List α} {fault : ε}
    (h : xs.mapM f = .error fault) : ∃ x ∈ xs, f x = .error fault := by
  induction xs with
  | nil => cases h
  | cons x rest ih =>
      rw [List.mapM_cons] at h
      cases hx : f x with
      | error fault' =>
          rw [hx] at h
          cases h
          exact ⟨x, List.mem_cons_self, hx⟩
      | ok y =>
          cases hrest : rest.mapM f with
          | error fault' =>
              rw [hx, hrest] at h
              cases h
              obtain ⟨x', hx', hfault⟩ := ih hrest
              exact ⟨x', List.mem_cons_of_mem x hx', hfault⟩
          | ok ys =>
              rw [hx, hrest] at h
              cases h

/-- A computation over a list succeeds if it does for every element. -/
theorem exists_mapM_eq_ok {f : α → Except ε β} {xs : List α} (h : ∀ x ∈ xs, ∃ y, f x = .ok y) :
    ∃ ys, xs.mapM f = .ok ys := by
  cases hxs : xs.mapM f with
  | ok ys => exact ⟨ys, rfl⟩
  | error fault =>
      obtain ⟨x, hx, hfault⟩ := exists_of_mapM_eq_error hxs
      obtain ⟨y, hy⟩ := h x hx
      rw [hy] at hfault
      cases hfault

theorem mapM_eq_ok_map {f : α → Except ε β} {g : α → β} {xs : List α}
    (h : ∀ x ∈ xs, f x = .ok (g x)) : xs.mapM f = .ok (xs.map g) := by
  rw [mapM_eq_ok_iff, List.forall₂_map_right_iff, List.forall₂_same]
  exact h

/-- What is read back one by one is read back as a list. -/
theorem mapM_map_eq_ok {read : α → Except ε β} {write : β → α} {ys : List β}
    (h : ∀ y ∈ ys, read (write y) = .ok y) : (ys.map write).mapM read = .ok ys := by
  rw [mapM_eq_ok_iff, List.forall₂_map_left_iff, List.forall₂_same]
  exact h

/-- Computations over two lists that agree element by element agree on the lists. -/
theorem mapM_eq_ok_of_forall₂ {γ : Type} {f : α → Except ε γ} {g : β → Except ε γ} {xs : List α}
    {ys : List β} {zs : List γ} (h : List.Forall₂ (fun x y => ∀ z, f x = .ok z → g y = .ok z) xs ys)
    (hf : xs.mapM f = .ok zs) : ys.mapM g = .ok zs := by
  rw [mapM_eq_ok_iff] at hf ⊢
  induction h generalizing zs with
  | nil =>
      cases hf
      exact .nil
  | cons hxy _ ih =>
      cases hf with
      | cons hx hrest => exact .cons (hxy _ hx) (ih hrest)

/-- A computation over a list gives the same results over the list in another order, in that order. -/
theorem exists_perm_of_mapM {f : α → Except ε β} {xs xs' : List α} {ys : List β}
    (hperm : xs.Perm xs') (h : xs.mapM f = .ok ys) : ∃ ys', xs'.mapM f = .ok ys' ∧ ys.Perm ys' := by
  obtain ⟨ys', hys', hperm'⟩ := List.perm_comp_forall₂ hperm.symm (mapM_eq_ok_iff.mp h)
  exact ⟨ys', mapM_eq_ok_iff.mpr hys', hperm'.symm⟩

theorem forall₂_and_right {R : α → β → Prop} {P : β → Prop} {xs : List α} {ys : List β} :
    List.Forall₂ (fun x y => R x y ∧ P y) xs ys ↔ List.Forall₂ R xs ys ∧ ∀ y ∈ ys, P y := by
  constructor
  · intro h
    induction h with
    | nil => exact ⟨.nil, fun y hy => absurd hy List.not_mem_nil⟩
    | cons hxy _ ih => exact ⟨.cons hxy.1 ih.1, List.forall_mem_cons.mpr ⟨hxy.2, ih.2⟩⟩
  · rintro ⟨h, hall⟩
    induction h with
    | nil => exact .nil
    | cons hxy _ ih =>
        obtain ⟨hy, hrest⟩ := List.forall_mem_cons.mp hall
        exact .cons ⟨hxy, hy⟩ (ih hrest)

end SumTree
