import Mathlib.Data.List.DropRight
import SumTree.Proofs.Text.Split
import SumTree.Text.Blank

/-!
# Trimming

What trimming takes off is blank throughout (`exists_strip`), and blanks at the ends of a text do not
matter to it (`strip_append`). So a text that is split at a mark and trimmed part by part may be trimmed
as a whole first, as long as the mark is not blank itself (`map_strip_splitOn`).
-/

namespace SumTree

namespace Blank

variable {drop : Char → Bool}

/-! ### Ends -/

theorem strip_eq (cs : List Char) : strip drop cs = (cs.dropWhile drop).rdropWhile drop := rfl

/-- A text is what is left of it with the characters that were taken off its ends. -/
theorem exists_strip (drop : Char → Bool) (cs : List Char) : ∃ front back,
    cs = front ++ strip drop cs ++ back ∧ (∀ c ∈ front, drop c = true) ∧
      ∀ c ∈ back, drop c = true := by
  refine ⟨cs.takeWhile drop, (cs.dropWhile drop).rtakeWhile drop, ?_, ?_, ?_⟩
  · rw [strip_eq, List.append_assoc, List.rdropWhile_append_rtakeWhile,
      List.takeWhile_append_dropWhile]
  · exact fun c hc => List.mem_takeWhile_imp hc
  · exact fun c hc => List.mem_rtakeWhile_imp hc

theorem rdropWhile_append {back : List Char} (hback : ∀ c ∈ back, drop c = true) (cs : List Char) :
    (cs ++ back).rdropWhile drop = cs.rdropWhile drop := by
  rw [List.rdropWhile, List.reverse_append, List.dropWhile_append_of_pos]
  · rfl
  · exact fun c hc => hback c (List.mem_reverse.mp hc)

/-- Characters at the ends that are taken off do not matter. -/
theorem strip_append {front back : List Char} (hfront : ∀ c ∈ front, drop c = true)
    (hback : ∀ c ∈ back, drop c = true) (cs : List Char) :
    strip drop (front ++ cs ++ back) = strip drop cs := by
  rw [strip_eq, strip_eq, List.append_assoc, List.dropWhile_append_of_pos hfront,
    List.dropWhile_append]
  split
  · rename_i hempty
    rw [List.isEmpty_iff.mp hempty, List.dropWhile_eq_nil_iff.mpr hback]
  · exact rdropWhile_append hback _

/-- Nothing is taken off a text that holds nothing of the kind. -/
theorem strip_of_forall {cs : List Char} (h : ∀ c ∈ cs, drop c = false) : strip drop cs = cs := by
  obtain ⟨front, back, hcs, hfront, hback⟩ := exists_strip drop cs
  have hnone : ∀ ds : List Char, (∀ c ∈ ds, drop c = true) → (∀ c ∈ ds, c ∈ cs) → ds = [] := by
    intro ds hds hmem
    apply List.eq_nil_iff_forall_not_mem.mpr
    intro c hc
    have hdrop := hds c hc
    rw [h c (hmem c hc)] at hdrop
    cases hdrop
  have hfront' := hnone front hfront fun c hc => by
    rw [hcs]
    exact List.mem_append_left back (List.mem_append_left _ hc)
  have hback' := hnone back hback fun c hc => by
    rw [hcs]
    exact List.mem_append_right _ hc
  rw [hfront', hback', List.nil_append, List.append_nil] at hcs
  exact hcs.symm

/-! ### Parts -/

/-- What is put behind a text lands in its last part. -/
theorem exists_splitOn_append {mark : Char} {back : List Char} (hback : mark ∉ back)
    (cs : List Char) : ∃ parts last, cs.splitOn mark = parts ++ [last] ∧
      (cs ++ back).splitOn mark = parts ++ [last ++ back] := by
  induction cs with
  | nil => exact ⟨[], [], rfl, List.splitOn_eq_singleton hback⟩
  | cons c rest ih =>
      obtain ⟨parts, last, hrest, happend⟩ := ih
      rw [List.cons_append, List.splitOn_cons_eq_if_modifyHead, List.splitOn_cons_eq_if_modifyHead,
        hrest, happend]
      split
      · exact ⟨[] :: parts, last, rfl, rfl⟩
      · cases parts with
        | nil => exact ⟨[], c :: last, rfl, rfl⟩
        | cons part parts => exact ⟨(c :: part) :: parts, last, rfl, rfl⟩

/-- What is put in front of a text lands in its first part. -/
theorem exists_append_splitOn {mark : Char} {front : List Char} (hfront : mark ∉ front)
    (cs : List Char) : ∃ first parts, cs.splitOn mark = first :: parts ∧
      (front ++ cs).splitOn mark = (front ++ first) :: parts := by
  obtain ⟨first, parts, hcs⟩ := List.exists_cons_of_ne_nil (List.splitOn_ne_nil mark cs)
  refine ⟨first, parts, hcs, ?_⟩
  induction front with
  | nil => exact hcs
  | cons c rest ih =>
      rw [List.mem_cons, not_or] at hfront
      have hc : (c == mark) = false := beq_eq_false_iff_ne.mpr fun h => hfront.1 h.symm
      rw [List.cons_append, List.splitOn_cons_eq_if_modifyHead, hc, if_neg Bool.false_ne_true,
        ih hfront.2]
      rfl

/-- Trimming a text does not change its trimmed parts. -/
theorem map_strip_splitOn {mark : Char} (hmark : drop mark = false) (cs : List Char) :
    ((strip drop cs).splitOn mark).map (strip drop) = (cs.splitOn mark).map (strip drop) := by
  obtain ⟨front, back, hcs, hfront, hback⟩ := exists_strip drop cs
  have hnot : ∀ ds : List Char, (∀ c ∈ ds, drop c = true) → mark ∉ ds := by
    intro ds hds hmem
    rw [hds mark hmem] at hmark
    cases hmark
  have hnone : ∀ c ∈ ([] : List Char), drop c = true := fun c hc => absurd hc List.not_mem_nil
  obtain ⟨parts, last, hsplit, hsplit'⟩ :=
    exists_splitOn_append (hnot back hback) (front ++ strip drop cs)
  obtain ⟨first, others, hinner, hinner'⟩ :=
    exists_append_splitOn (hnot front hfront) (strip drop cs)
  -- Only the first and the last part have characters more than those of the trimmed text.
  have hlast := strip_append hnone hback last
  have hfirst := strip_append hfront hnone first
  rw [List.nil_append] at hlast
  rw [List.append_nil] at hfirst
  calc ((strip drop cs).splitOn mark).map (strip drop)
      = (first :: others).map (strip drop) := by rw [hinner]
    _ = ((front ++ first) :: others).map (strip drop) := by rw [List.map_cons, List.map_cons, hfirst]
    _ = (parts ++ [last]).map (strip drop) := by rw [← hinner', hsplit]
    _ = (parts ++ [last ++ back]).map (strip drop) := by
        rw [List.map_append, List.map_append, List.map_singleton, List.map_singleton, hlast]
    _ = (cs.splitOn mark).map (strip drop) := by rw [← hsplit', ← hcs]

/-! ### Texts -/

theorem toList_trim (s : String) : (trim s).toList = strip isBlank s.toList :=
  String.toList_ofList

/-- Nothing is trimmed off a text without blanks. -/
theorem trim_of_forall {s : String} (h : ∀ c ∈ s.toList, isBlank c = false) : trim s = s := by
  rw [trim, strip_of_forall h, String.ofList_toList]

/-- The trimmed parts of a text, which are those of the trimmed text. -/
theorem map_trim_splitOn {mark : Char} (hmark : isBlank mark = false) (s : String) :
    ((trim s).splitOn (String.singleton mark)).map trim =
      (s.splitOn (String.singleton mark)).map trim := by
  have htrim : trim ∘ String.ofList = String.ofList ∘ strip isBlank := by
    funext cs
    rw [Function.comp_apply, Function.comp_apply, trim, String.toList_ofList]
  rw [splitOn_singleton, splitOn_singleton, toList_trim, List.map_map, List.map_map, htrim,
    ← List.map_map, ← List.map_map, map_strip_splitOn hmark]

end Blank

end SumTree
