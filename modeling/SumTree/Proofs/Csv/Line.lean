import SumTree.Csv.Record
import SumTree.Proofs.Csv.Source
import SumTree.Proofs.Except

/-!
# Records on lines

When no cell of a table holds a line break, its records stand on lines of their own, in order and from
the first line on (`exists_mapM_recordOf`). A line that ends inside quotes leaves its end in the open
field, and what a field holds stays in the record until that is complete (`Holds.foldlM`), so no such line
begins a record. A blank line makes a record without fields, and no other line does
(`eq_nil_iff_isBlankLine`).

## Main Definitions

* `Csv.recordOf` — the record that a line makes by itself.
* `Csv.isBlankLine` — the lines that hold nothing but their ends.
* `Csv.Progress.Step` — what one more character can do.
* `Csv.Progress.Holds` — the record that is read has a field with some property.
-/

namespace SumTree

namespace Csv

/-- The progress when nothing follows. -/
def Progress.close (p : Progress) : Progress :=
  if p.place = .quoted then p.save .recordStart else p.endLine

/-- The record that a line makes by itself. -/
def recordOf (line : List Char) : Except Fault (List String) :=
  (line.foldlM Progress.next .empty).map fun p => p.close.record

/-- Whether a line holds nothing but its end. -/
def isBlankLine (line : List Char) : Bool :=
  line.all Progress.isLineEnd

/-- The reader stands in a field of the record. -/
def Place.IsField (place : Place) : Prop :=
  place ≠ .recordStart ∧ place ≠ .lineEnd

namespace Progress

/-- What one more character can do. -/
inductive Step (p : Progress) (c : Char) : Progress → Prop
  | stay (hplace : p.place = .lineEnd) : Step p c p
  | blank (hplace : p.place = .recordStart) (hc : isLineEnd c = true) :
      Step p c { p with place := .lineEnd }
  | quote {place : Place} (hc : c = quoteMark) (hplace : place.IsField) :
      Step p c { p with place := place }
  | save {place : Place} (hplace : place ≠ .quoted) : Step p c (p.save place)
  | add {place : Place} (hplace : place.IsField) (hc : isLineEnd c = true → p.place = .quoted) :
      Step p c ⟨place, c :: p.field, p.length + 1, p.fields⟩

/-- The record that is read has a field with the property `P`, an earlier one or the one begun. -/
def Holds (P : List Char → Prop) (p : Progress) : Prop :=
  (p.place.IsField ∧ P p.field.reverse) ∨ ∃ cell ∈ p.fields, P cell.toList

variable {p q : Progress} {c : Char} {line : List Char}

/-! ### One character -/

theorem step_of_add {place : Place} (h : p.add c place = .ok q) (hplace : place.IsField)
    (hc : isLineEnd c = true → p.place = .quoted) : Step p c q := by
  unfold add at h
  split at h
  · cases h
    exact .add hplace hc
  · cases h

theorem step_of_startField (h : p.startField c = .ok q) : Step p c q := by
  unfold startField at h
  split at h
  · cases h
    exact .save nofun
  · rename_i hend
    split at h
    · rename_i hc
      cases h
      exact .quote (beq_iff_eq.mp hc) ⟨nofun, nofun⟩
    · split at h
      · cases h
        exact .save nofun
      · exact step_of_add h ⟨nofun, nofun⟩ fun hc => absurd hc hend

theorem step_of_next (h : p.next c = .ok q) : Step p c q := by
  cases hplace : p.place with
  | recordStart =>
      rw [next, hplace] at h
      dsimp only at h
      split at h
      · rename_i hend
        cases h
        exact .blank hplace hend
      · exact step_of_startField h
  | fieldStart =>
      rw [next, hplace] at h
      exact step_of_startField h
  | plain =>
      rw [next, hplace] at h
      dsimp only at h
      split at h
      · cases h
        exact .save nofun
      · rename_i hend
        split at h
        · cases h
          exact .save nofun
        · exact step_of_add h ⟨nofun, nofun⟩ fun hc => absurd hc hend
  | quoted =>
      rw [next, hplace] at h
      dsimp only at h
      split at h
      · rename_i hc
        cases h
        exact .quote (beq_iff_eq.mp hc) ⟨nofun, nofun⟩
      · exact step_of_add h ⟨nofun, nofun⟩ fun _ => hplace
  | quoteInQuoted =>
      rw [next, hplace] at h
      dsimp only at h
      split at h
      · rename_i hc
        rw [beq_iff_eq.mp hc] at h ⊢
        exact step_of_add h ⟨nofun, nofun⟩ fun hend => absurd hend (by decide)
      · split at h
        · cases h
          exact .save nofun
        · split at h
          · cases h
            exact .save nofun
          · rename_i hend
            exact step_of_add h ⟨nofun, nofun⟩ fun hc => absurd hc hend
  | lineEnd =>
      rw [next, hplace] at h
      cases h
      exact .stay hplace

/-! ### What a field holds -/

section

variable {P : List Char → Prop}

theorem Holds.save (h : p.Holds P) (place : Place) : ∃ cell ∈ (p.save place).fields, P cell.toList := by
  rcases h with ⟨-, hfield⟩ | ⟨cell, hcell, hP⟩
  · refine ⟨String.ofList p.field.reverse, List.mem_cons_self, ?_⟩
    rw [String.toList_ofList]
    exact hfield
  · exact ⟨cell, List.mem_cons_of_mem _ hcell, hP⟩

/-- What a field holds is still there when the record is complete. -/
theorem Holds.record (h : p.Holds P) : ∃ cell ∈ p.close.record, P cell.toList := by
  have hclose : ∃ cell ∈ p.close.fields, P cell.toList := by
    by_cases hquoted : p.place = .quoted
    · rw [close, if_pos hquoted]
      exact h.save _
    · rw [close, if_neg hquoted, endLine]
      split
      · rename_i hplace
        exact h.resolve_left fun hin => hin.1.1 hplace
      · rename_i hplace
        exact h.resolve_left fun hin => hin.1.2 hplace
      · exact h.save _
      · exact h.save _
      · exact h.save _
      · rename_i hplace
        exact absurd hplace hquoted
  obtain ⟨cell, hcell, hcellP⟩ := hclose
  exact ⟨cell, List.mem_reverse.mpr hcell, hcellP⟩

variable (hP : ∀ cs c, P cs → P (cs ++ [c]))
include hP

theorem Holds.step (h : p.Holds P) (hstep : Step p c q) : q.Holds P := by
  cases hstep with
  | stay => exact h
  | blank hplace hc =>
      rcases h with ⟨hin, -⟩ | hfields
      · exact absurd hplace hin.1
      · exact .inr hfields
  | quote hc hplace =>
      rcases h with ⟨-, hfield⟩ | hfields
      · exact .inl ⟨hplace, hfield⟩
      · exact .inr hfields
  | save hplace => exact .inr (h.save _)
  | add hplace hc =>
      rcases h with ⟨-, hfield⟩ | hfields
      · refine .inl ⟨hplace, ?_⟩
        rw [List.reverse_cons]
        exact hP _ c hfield
      · exact .inr hfields

/-- What a field holds stays in the record. -/
theorem Holds.foldlM (h : p.Holds P) (hline : line.foldlM next p = .ok q) : q.Holds P := by
  induction line generalizing p with
  | nil =>
      cases hline
      exact h
  | cons c rest ih =>
      rw [List.foldlM_cons] at hline
      obtain ⟨p', hc, hrest⟩ := exists_of_bind_eq_ok hline
      exact ih (h.step hP (step_of_next hc)) hrest

end

/-- Inside quotes a line leaves its end in the open field. -/
theorem holds_of_ended (hended : Ended line) (hline : line.foldlM next p = .ok q)
    (hq : q.place = .quoted) : q.Holds fun cs => ¬ Unbroken cs := by
  obtain ⟨front, c, rfl, hc⟩ : ∃ front c, line = front ++ [c] ∧ isLineEnd c = true := by
    obtain ⟨body, ending, rfl, -⟩ := hended
    cases ending with
    | feed => exact ⟨body, '\n', rfl, rfl⟩
    | carriage => exact ⟨body, '\r', rfl, rfl⟩
    | both => exact ⟨body ++ ['\r'], '\n', by rw [List.append_assoc]; rfl, rfl⟩
  rw [List.foldlM_append] at hline
  obtain ⟨p', -, hlast⟩ := exists_of_bind_eq_ok hline
  rw [List.foldlM_cons] at hlast
  obtain ⟨q', hnext, hlast⟩ := exists_of_bind_eq_ok hlast
  cases hlast
  have hne : c ≠ quoteMark := by
    rintro rfl
    cases hc
  cases step_of_next hnext with
  | stay hplace =>
      rw [hplace] at hq
      cases hq
  | blank => cases hq
  | quote hquote => exact absurd hquote hne
  | save hplace => exact absurd hq hplace
  | add hplace =>
      refine .inl ⟨hplace, fun hunbroken => ?_⟩
      have hmem := hunbroken c (List.mem_reverse.mpr List.mem_cons_self)
      simp [isLineEnd, hmem.1, hmem.2] at hc

end Progress

/-! ### The records of lines -/

variable {p q : Progress} {whole : Bool} {line : List Char} {lines : List (List Char)}

/-- The records that are there already stay in front. -/
theorem records_readLines (done : List (List String)) (p : Progress) (whole : Bool)
    (lines : List (List Char)) : (readLines done p whole lines).records =
      done.reverse ++ (readLines [] p whole lines).records := by
  induction lines generalizing done p with
  | nil =>
      simp only [readLines]
      split
      · simp
      · split <;> simp
  | cons line rest ih =>
      simp only [readLines]
      split
      · simp
      · split
        · rw [ih, ih [_], List.reverse_cons, List.append_assoc]
          rfl
        · exact ih done _

/-- Inside quotes the end of a line ends no record, and elsewhere it does. -/
theorem endLine_cases (p : Progress) : (p.place = .quoted ∧ p.endLine = p) ∨
    p.place ≠ .quoted ∧ p.endLine.place = .recordStart ∧ p.endLine = p.close := by
  unfold Progress.close Progress.endLine
  cases hplace : p.place <;> simp [Progress.save]

/-- One line in front of others ends in a record or inside quotes. -/
theorem records_cons (h : line.foldlM Progress.next p = .ok q) :
    (readLines [] p whole (line :: lines)).records =
      if q.place = .quoted then (readLines [] q whole lines).records
      else q.close.record :: (readLines [] .empty whole lines).records := by
  rw [readLines, h]
  dsimp only
  rcases endLine_cases q with ⟨hquoted, hsame⟩ | ⟨hquoted, hstart, hclose⟩
  · rw [hsame, hquoted, if_pos rfl]
    rfl
  · rw [hstart, if_neg hquoted, hclose]
    exact records_readLines [q.close.record] .empty whole lines

/-- What an open field holds is in the next record, if there is one. -/
theorem exists_of_holds {P : List Char → Prop} (hP : ∀ cs c, P cs → P (cs ++ [c])) (h : p.Holds P)
    (hp : p.place = .quoted) : (readLines [] p whole lines).records = [] ∨
      ∃ record ∈ (readLines [] p whole lines).records, ∃ cell ∈ record, P cell.toList := by
  induction lines generalizing p with
  | nil =>
      cases whole with
      | false => exact .inl rfl
      | true =>
          have hclose : (readLines [] p true []).records = [p.close.record] := by
            simp [readLines, Progress.close, hp]
          rw [hclose]
          exact .inr ⟨_, List.mem_singleton_self _, h.record⟩
  | cons line rest ih =>
      cases hline : line.foldlM Progress.next p with
      | error fault =>
          left
          rw [readLines, hline]
          rfl
      | ok q =>
          have hq := h.foldlM hP hline
          rw [records_cons hline]
          split
          · rename_i hquoted
            exact ih hq hquoted
          · exact .inr ⟨_, List.mem_cons_self, hq.record⟩

/-- The records of a table without line breaks in its cells are those of its first lines. -/
theorem exists_mapM_recordOf_readLines (hended : lines.Pairwise fun line _ => Ended line)
    (hcells : ∀ record ∈ (readLines [] .empty whole lines).records, ∀ cell ∈ record,
      Unbroken cell.toList) : ∃ front rest, lines = front ++ rest ∧
        front.mapM recordOf = .ok (readLines [] .empty whole lines).records := by
  induction lines with
  | nil =>
      refine ⟨[], [], rfl, ?_⟩
      cases whole <;> rfl
  | cons line rest ih =>
      cases hline : line.foldlM Progress.next .empty with
      | error fault =>
          refine ⟨[], line :: rest, rfl, ?_⟩
          rw [readLines, hline]
          rfl
      | ok q =>
          have hrecord : recordOf line = .ok q.close.record := by
            rw [recordOf, hline]
            rfl
          rw [records_cons hline] at hcells ⊢
          split at hcells
          · rename_i hquoted
            rw [if_pos hquoted]
            cases rest with
            | nil =>
                -- Without an end the line makes the last record, unless something is wrong behind it.
                cases whole with
                | false => exact ⟨[], [line], rfl, rfl⟩
                | true =>
                    refine ⟨[line], [], rfl, ?_⟩
                    rw [List.mapM_cons, hrecord]
                    simp [readLines, Progress.close, hquoted]
            | cons second others =>
                -- The end of the line is in the open field, so no record can follow.
                have hfirst := (List.pairwise_cons.mp hended).1 second List.mem_cons_self
                have hbroken := Progress.holds_of_ended hfirst hline hquoted
                have hmore : ∀ cs c, ¬ Unbroken cs → ¬ Unbroken (cs ++ [c]) :=
                  fun cs c hcs h => hcs fun d hd => h d (List.mem_append_left _ hd)
                rcases exists_of_holds hmore hbroken hquoted with hnone | hcell
                · exact ⟨[], line :: second :: others, rfl, congrArg Except.ok hnone.symm⟩
                · obtain ⟨record, hrecord, cell, hcell, hnot⟩ := hcell
                  exact absurd (hcells record hrecord cell hcell) hnot
          · rename_i hquoted
            obtain ⟨front, others, hrest, hfront⟩ :=
              ih (List.pairwise_cons.mp hended).2 (List.forall_mem_cons.mp hcells).2
            refine ⟨line :: front, others, by rw [hrest, List.cons_append], ?_⟩
            rw [List.mapM_cons, hrecord, hfront, if_neg hquoted]
            rfl

/-- The records of a file without line breaks in its cells are those of its first lines. -/
theorem exists_mapM_recordOf {bytes : List UInt8}
    (hcells : ∀ record ∈ (read (Source.ofBytes bytes)).records, ∀ cell ∈ record,
      Unbroken cell.toList) : ∃ front rest, (Source.ofBytes bytes).lines = front ++ rest ∧
        front.mapM recordOf = .ok (read (Source.ofBytes bytes)).records := by
  obtain ⟨front, last, hlines, hfront, hlast⟩ := exists_ended_ofBytes bytes
  refine exists_mapM_recordOf_readLines ?_ hcells
  rw [hlines, List.pairwise_append]
  refine ⟨List.pairwise_of_forall_mem_list fun l hl _ _ => hfront l hl, ?_, fun l hl _ _ => hfront l hl⟩
  rcases hlast with rfl | ⟨l, rfl, -⟩
  · exact .nil
  · exact List.pairwise_singleton _ _

/-! ### Blank lines -/

/-- A line that starts with an ordinary character has a field. -/
theorem ne_nil_of_recordOf {c : Char} {rest : List Char} (hc : Progress.isLineEnd c = false)
    {record : List String} (h : recordOf (c :: rest) = .ok record) : record ≠ [] := by
  obtain ⟨q, hline, rfl⟩ := exists_of_map_eq_ok h
  rw [List.foldlM_cons] at hline
  obtain ⟨p, hnext, hrest⟩ := exists_of_bind_eq_ok hline
  have hp : p.Holds fun _ => True := by
    cases Progress.step_of_next hnext with
    | stay hplace => cases hplace
    | blank _ hend =>
        rw [hc] at hend
        cases hend
    | quote _ hplace => exact .inl ⟨hplace, trivial⟩
    | save => exact .inr ⟨_, List.mem_cons_self, trivial⟩
    | add hplace => exact .inl ⟨hplace, trivial⟩
  obtain ⟨cell, hcell, -⟩ := (hp.foldlM (fun _ _ _ => trivial) hrest).record
  exact List.ne_nil_of_mem hcell

/-- A line that starts with its end holds nothing else. -/
theorem eq_chars_of_isLineEnd {c : Char} {rest : List Char} (h : Ended (c :: rest) ∨ Unbroken (c :: rest))
    (hc : Progress.isLineEnd c = true) : ∃ ending : LineEnd, c :: rest = ending.chars := by
  have hnot : ¬ (c ≠ '\n' ∧ c ≠ '\r') := by
    rintro ⟨hfeed, hreturn⟩
    simp [Progress.isLineEnd, hfeed, hreturn] at hc
  rcases h with ⟨body, ending, hline, hbody⟩ | hunbroken
  · cases body with
    | nil => exact ⟨ending, hline⟩
    | cons d others =>
        cases hline
        exact absurd (hbody c List.mem_cons_self) hnot
  · exact absurd (hunbroken c List.mem_cons_self) hnot

/-- The lines that make a record without fields are the blank ones. -/
theorem eq_nil_iff_isBlankLine {line : List Char} (h : Ended line ∨ Unbroken line)
    {record : List String} (hrecord : recordOf line = .ok record) :
    record = [] ↔ isBlankLine line = true := by
  cases line with
  | nil =>
      cases hrecord
      exact ⟨fun _ => rfl, fun _ => rfl⟩
  | cons c rest =>
      cases hc : Progress.isLineEnd c with
      | false =>
          have hblank : isBlankLine (c :: rest) = false := by rw [isBlankLine, List.all_cons, hc]; rfl
          simp [ne_nil_of_recordOf hc hrecord, hblank]
      | true =>
          obtain ⟨ending, hline⟩ := eq_chars_of_isLineEnd h hc
          rw [hline] at hrecord ⊢
          cases ending <;> cases hrecord <;> exact ⟨fun _ => rfl, fun _ => rfl⟩

end Csv

end SumTree
