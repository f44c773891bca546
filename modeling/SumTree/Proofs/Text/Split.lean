import Mathlib.Data.String.Basic

/-!
# Splitting a text at a character

`String.splitOn` walks through a text by byte positions, and its recursion is justified by them, so it
does not compute in a proof. At a separator of one character it is the splitting of the list of
characters (`splitOn_singleton`), for which the library has its laws.
-/

namespace SumTree

namespace Split

theorem next_singleton (c : Char) :
    (0 : String.Pos.Raw).next (String.singleton c) = ⟨c.utf8Size⟩ := by
  simpa using String.next_of_valid [] c []

theorem get_singleton (c : Char) : (0 : String.Pos.Raw).get (String.singleton c) = c := by
  simpa using String.get_of_valid [] [c]

theorem atEnd_singleton (c : Char) :
    (⟨c.utf8Size⟩ : String.Pos.Raw).atEnd (String.singleton c) = true := by
  simpa using String.atEnd_of_valid [c] []

/-- The walk over the characters `l ++ m ++ r` behind `l ++ m`, where the last piece starts at `m` and
the pieces in front are `pieces`, the last one first. -/
theorem splitOnAux_singleton (c : Char) (l m r : List Char) (pieces : List String) :
    (String.ofList (l ++ m ++ r)).splitOnAux (String.singleton c) ⟨String.utf8Len l⟩
        ⟨String.utf8Len l + String.utf8Len m⟩ 0 pieces =
      pieces.reverse ++ (List.splitOnPPrepend (· == c) r m.reverse).map String.ofList := by
  induction r generalizing l m pieces with
  | nil =>
      have hpiece := String.extract_of_valid l m []
      unfold String.splitOnAux
      rw [if_pos]
      · simpa using hpiece
      · simpa using String.atEnd_of_valid (l ++ m) []
  | cons a r ih =>
      have hget := String.get_of_valid (l ++ m) (a :: r)
      have hnext := String.next_of_valid (l ++ m) a r
      have hpiece := String.extract_of_valid l m (a :: r)
      rw [String.utf8Len_append] at hget hnext
      unfold String.splitOnAux
      rw [if_neg]
      · simp only [get_singleton, next_singleton, atEnd_singleton, hget, hnext, List.headD_cons]
        rw [List.splitOnPPrepend_cons_eq_if]
        cases h : a == c with
        | true =>
            -- the piece `m` ends in front of `a`, and the walk goes on with an empty one
            have hback : (⟨String.utf8Len l + String.utf8Len m + a.utf8Size⟩ :
                String.Pos.Raw).unoffsetBy ⟨c.utf8Size⟩ =
                  ⟨String.utf8Len l + String.utf8Len m⟩ := by
              rw [beq_iff_eq.mp h]
              simp [String.Pos.Raw.unoffsetBy]
            have hrest := ih (l ++ m ++ [a]) [] (String.ofList m :: pieces)
            simp only [if_true, hback, hpiece]
            simpa [Nat.add_assoc] using hrest
        | false =>
            have hback : (⟨String.utf8Len l + String.utf8Len m⟩ : String.Pos.Raw).unoffsetBy 0 =
                ⟨String.utf8Len l + String.utf8Len m⟩ := rfl
            have hrest := ih l (m ++ [a]) pieces
            simp only [if_false, Bool.false_eq_true, hback, hnext]
            simpa [Nat.add_assoc] using hrest
      · simpa using String.atEnd_of_valid (l ++ m) (a :: r)

end Split

theorem splitOn_singleton (s : String) (c : Char) :
    s.splitOn (String.singleton c) = (s.toList.splitOn c).map String.ofList := by
  have hne : (String.singleton c == "") = false := by
    rw [beq_eq_false_iff_ne]
    exact String.singleton_ne_empty
  have hwalk := Split.splitOnAux_singleton c [] [] s.toList []
  unfold String.splitOn
  rw [hne, List.splitOn_eq_splitOnP]
  simpa using hwalk

/-- What holds of the characters of some texts and of the mark between them holds of what they make. -/
theorem forall_mem_intercalate {P : Char → Prop} {mark : Char} (hmark : P mark)
    {texts : List (List Char)} (h : ∀ text ∈ texts, ∀ c ∈ text, P c) :
    ∀ c ∈ [mark].intercalate texts, P c := by
  induction texts with
  | nil => exact fun c hc => absurd hc List.not_mem_nil
  | cons text texts ih =>
      obtain ⟨hfirst, hothers⟩ := List.forall_mem_cons.mp h
      cases texts with
      | nil =>
          rw [List.intercalate_singleton]
          exact hfirst
      | cons second texts =>
          rw [List.intercalate_cons_cons]
          intro c hc
          rcases List.mem_append.mp hc with hc | hc
          · rcases List.mem_append.mp hc with hc | hc
            · exact hfirst c hc
            · rw [List.mem_singleton.mp hc]
              exact hmark
          · exact ih hothers c hc

end SumTree
