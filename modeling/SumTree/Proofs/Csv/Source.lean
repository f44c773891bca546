import SumTree.Csv.Source
import SumTree.Proofs.Text.Utf8

/-!
# The lines of a file

A line of a file is a text without line breaks and one of three ends, except for the last line, which
may lack its end (`exists_ended_ofBytes`). The blocks in which a file is decoded do not matter: the lines
of the bytes of a text are the lines of that text (`ofBytes_toUTF8`), where a text without line breaks
goes on the line begun (`splitLinesOnto_append`) and an end ends it (`splitLinesOnto_end`).

## Main Definitions

* `Csv.LineEnd` — the ends of lines.
* `Csv.Unbroken`, `Csv.Ended` — a text without line breaks, and a line with its end.
-/

namespace SumTree

namespace Csv

/-- What a line ends with. -/
inductive LineEnd
  | feed
  | carriage
  | both
  deriving Repr, DecidableEq

/-- The characters of a line end. -/
def LineEnd.chars : LineEnd → List Char
  | feed => ['\n']
  | carriage => ['\r']
  | both => ['\r', '\n']

/-- A text without line breaks. -/
def Unbroken (cs : List Char) : Prop :=
  ∀ c ∈ cs, c ≠ '\n' ∧ c ≠ '\r'

instance (cs : List Char) : Decidable (Unbroken cs) :=
  List.decidableBAll _ cs

/-- A line with its end. -/
def Ended (line : List Char) : Prop :=
  ∃ (body : List Char) (ending : LineEnd), line = body ++ ending.chars ∧ Unbroken body

/-- An end that what follows does not make longer: a carriage return in front of a line feed is one end
with it. -/
def LineEnd.IsWhole (ending : LineEnd) (rest : List Char) : Prop :=
  ending = .carriage → rest.head? ≠ some '\n'

/-! ### Lines of a text -/

/-- A text is empty, or starts with an ordinary character, or with a line end. -/
@[elab_as_elim]
theorem lineEnd_induction {motive : List Char → Prop} (nil : motive [])
    (char : ∀ c rest, c ≠ '\n' → c ≠ '\r' → motive rest → motive (c :: rest))
    (ending : ∀ (e : LineEnd) rest, e.IsWhole rest → motive rest → motive (e.chars ++ rest))
    (cs : List Char) : motive cs := by
  induction hlength : cs.length using Nat.strong_induction_on generalizing cs with
  | h n ih =>
      have hless : ∀ rest : List Char, rest.length < cs.length → motive rest :=
        fun rest h => ih rest.length (hlength ▸ h) rest rfl
      match cs with
      | [] => exact nil
      | c :: rest =>
          by_cases hfeed : c = '\n'
          · subst hfeed
            exact ending .feed rest nofun (hless rest (Nat.lt_succ_self _))
          · by_cases hreturn : c = '\r'
            · subst hreturn
              by_cases hpair : rest.head? = some '\n'
              · obtain ⟨rest, rfl⟩ := List.head?_eq_some_iff.mp hpair
                exact ending .both rest nofun (hless rest (Nat.lt_add_of_pos_right (Nat.succ_pos 1)))
              · exact ending .carriage rest (fun _ => hpair) (hless rest (Nat.lt_succ_self _))
            · exact char c rest hfeed hreturn (hless rest (Nat.lt_succ_self _))

section

variable {done : List (List Char)} {line : List Char}

/-- An ordinary character goes on the line begun. -/
theorem splitLinesOnto_cons {c : Char} (hfeed : c ≠ '\n') (hreturn : c ≠ '\r') (cs : List Char) :
    splitLinesOnto done line (c :: cs) = splitLinesOnto done (c :: line) cs := by
  rw [splitLinesOnto]
  · simp [hfeed, hreturn]
  · exact fun _ h => absurd h hreturn

/-- A line end ends the line begun. -/
theorem splitLinesOnto_end {ending : LineEnd} {cs : List Char} (hwhole : ending.IsWhole cs) :
    splitLinesOnto done line (ending.chars ++ cs) =
      splitLinesOnto ((line.reverse ++ ending.chars) :: done) [] cs := by
  cases ending with
  | feed =>
      show splitLinesOnto done line ('\n' :: cs) = _
      rw [splitLinesOnto]
      · simp [LineEnd.chars]
      · nofun
  | carriage =>
      show splitLinesOnto done line ('\r' :: cs) = _
      rw [splitLinesOnto]
      · simp [LineEnd.chars]
      · rintro rest - rfl
        exact hwhole rfl rfl
  | both =>
      show splitLinesOnto done line ('\r' :: '\n' :: cs) = _
      rw [splitLinesOnto]
      simp [LineEnd.chars]

/-- The lines that are there already stay in front. -/
theorem splitLinesOnto_done (done : List (List Char)) (line cs : List Char) :
    splitLinesOnto done line cs = done.reverse ++ splitLinesOnto [] line cs := by
  induction cs using lineEnd_induction generalizing done line with
  | nil => cases line <;> simp [splitLinesOnto]
  | char c rest hfeed hreturn ih =>
      rw [splitLinesOnto_cons hfeed hreturn, splitLinesOnto_cons hfeed hreturn, ih]
  | ending e rest hwhole ih =>
      rw [splitLinesOnto_end hwhole, splitLinesOnto_end hwhole, ih (_ :: done), ih [_]]
      simp

/-- Ordinary characters go on the line begun. -/
theorem splitLinesOnto_append {body : List Char} (h : Unbroken body) (cs : List Char) :
    splitLinesOnto done line (body ++ cs) = splitLinesOnto done (body.reverse ++ line) cs := by
  induction body generalizing line with
  | nil => rfl
  | cons c rest ih =>
      obtain ⟨⟨hfeed, hreturn⟩, hrest⟩ := List.forall_mem_cons.mp h
      rw [List.cons_append, splitLinesOnto_cons hfeed hreturn, ih hrest, List.reverse_cons,
        List.append_assoc, List.singleton_append]

/-- All lines have their ends but perhaps the last one. -/
theorem exists_ended_splitLinesOnto (hline : Unbroken line) (cs : List Char) :
    ∃ front last, splitLinesOnto [] line cs = front ++ last ∧ (∀ l ∈ front, Ended l) ∧
      (last = [] ∨ ∃ l, last = [l] ∧ Unbroken l) := by
  induction cs using lineEnd_induction generalizing line with
  | nil =>
      refine ⟨[], splitLinesOnto [] line [], rfl, fun l hl => absurd hl List.not_mem_nil, ?_⟩
      rw [splitLinesOnto]
      split
      · exact .inl rfl
      · exact .inr ⟨line.reverse, rfl, fun c hc => hline c (List.mem_reverse.mp hc)⟩
  | char c rest hfeed hreturn ih =>
      rw [splitLinesOnto_cons hfeed hreturn]
      exact ih (List.forall_mem_cons.mpr ⟨⟨hfeed, hreturn⟩, hline⟩)
  | ending e rest hwhole ih =>
      obtain ⟨front, last, hrest, hfront, hlast⟩ := ih (fun c hc => absurd hc List.not_mem_nil)
      rw [splitLinesOnto_end hwhole, splitLinesOnto_done, hrest]
      refine ⟨(line.reverse ++ e.chars) :: front, last, rfl, ?_, hlast⟩
      refine List.forall_mem_cons.mpr ⟨⟨line.reverse, e, rfl, ?_⟩, hfront⟩
      exact fun c hc => hline c (List.mem_reverse.mp hc)

end

/-! ### Lines of bytes -/

theorem isComplete_of_ended {line : List Char} (h : Ended line) : isComplete line = true := by
  obtain ⟨body, ending, rfl, -⟩ := h
  have hlast : ∃ c, ending.chars.getLast? = some c ∧ (c == '\n' || c == '\r') = true := by
    cases ending <;> exact ⟨_, rfl, rfl⟩
  obtain ⟨c, hc, hend⟩ := hlast
  rw [isComplete, List.getLast?_append, hc]
  exact hend

theorem isComplete_of_unbroken {line : List Char} (h : Unbroken line) : isComplete line = false := by
  rw [isComplete]
  split
  · rename_i c hc
    have hc := h c (List.mem_of_getLast? hc)
    simp [hc.1, hc.2]
  · rfl

/-- All lines of a file that can be had have their ends but perhaps the last one. -/
theorem exists_ended_ofBytes (bytes : List UInt8) :
    ∃ front last, (Source.ofBytes bytes).lines = front ++ last ∧ (∀ l ∈ front, Ended l) ∧
      (last = [] ∨ ∃ l, last = [l] ∧ Unbroken l) := by
  have hnone : Unbroken [] := fun c hc => absurd hc List.not_mem_nil
  unfold Source.ofBytes
  split
  rename_i latestFirst whole hdecoded
  cases whole with
  | true => exact exists_ended_splitLinesOnto hnone _
  | false =>
      obtain ⟨front, last, hlines, hfront, hlast⟩ := exists_ended_splitLinesOnto hnone _
      refine ⟨front, [], ?_, hfront, .inl rfl⟩
      have hkept : front.filter isComplete = front :=
        List.filter_eq_self.mpr fun l hl => isComplete_of_ended (hfront l hl)
      have hdropped : last.filter isComplete = [] := by
        rcases hlast with rfl | ⟨l, rfl, hl⟩
        · rfl
        · rw [List.filter_cons_of_neg (by simp [isComplete_of_unbroken hl]), List.filter_nil]
      show (splitLines _).filter isComplete = _
      rw [splitLines, hlines, List.filter_append, hkept, hdropped]

theorem ended_or_unbroken {bytes : List UInt8} {line : List Char}
    (h : line ∈ (Source.ofBytes bytes).lines) : Ended line ∨ Unbroken line := by
  obtain ⟨front, last, hlines, hfront, hlast⟩ := exists_ended_ofBytes bytes
  rw [hlines] at h
  rcases List.mem_append.mp h with hline | hline
  · exact .inl (hfront line hline)
  · rcases hlast with rfl | ⟨l, rfl, hl⟩
    · exact absurd hline List.not_mem_nil
    · exact .inr (List.mem_singleton.mp hline ▸ hl)

/-! ### Blocks -/

/-- Without bytes there are no characters. -/
theorem decodeBlocks_nil (fuel : Nat) {place : Utf8.Place} (done : List Char) {chars : List Char}
    (h : [].foldl Utf8.Progress.next ⟨[], place⟩ = ⟨chars.map some, .between⟩) :
    decodeBlocks done place (fuel + 1) [] = (chars ++ done, true) := by
  obtain ⟨hchars, rfl⟩ := Utf8.Progress.mk.inj h
  rw [List.map_eq_nil_iff.mp hchars.symm]
  rfl

/-- Bytes without a fault are decoded in blocks as they are decoded at once. -/
theorem decodeBlocks_eq {fuel : Nat} {place : Utf8.Place} {bytes : List UInt8}
    (hfuel : bytes.length ≤ fuel * blockSize) (done : List Char) {chars : List Char}
    (h : bytes.foldl Utf8.Progress.next ⟨[], place⟩ = ⟨chars.map some, .between⟩) :
    decodeBlocks done place (fuel + 1) bytes = (chars ++ done, true) := by
  induction fuel generalizing place bytes done chars with
  | zero =>
      obtain rfl : bytes = [] := List.length_eq_zero_iff.mp (by omega)
      exact decodeBlocks_nil 0 done h
  | succ fuel ih =>
      by_cases hempty : bytes = []
      · subst hempty
        exact decodeBlocks_nil (fuel + 1) done h
      · obtain ⟨front, place', hfirst⟩ : ∃ front place',
            (bytes.take blockSize).foldl Utf8.Progress.next ⟨[], place⟩ = ⟨front, place'⟩ :=
          ⟨_, _, rfl⟩
        have hfuel' : (bytes.drop blockSize).length ≤ fuel * blockSize := by
          rw [List.length_drop, Nat.sub_le_iff_le_add, ← Nat.succ_mul]
          exact hfuel
        -- The characters of the first block are those that the other blocks do not add.
        rw [← List.take_append_drop blockSize bytes, List.foldl_append, hfirst,
          Utf8.foldl_next_append] at h
        obtain ⟨hchars, hplace⟩ := Utf8.Progress.mk.inj h
        obtain ⟨later, first, rfl, hlater, rfl⟩ := List.append_eq_map_iff.mp hchars
        have hrest : (bytes.drop blockSize).foldl Utf8.Progress.next ⟨[], place'⟩ =
            ⟨later.map some, .between⟩ := by
          rw [hlater, ← hplace]
        have hfaults : (first.map some).any Option.isNone = false := by simp
        rw [decodeBlocks]
        · simp only [hfirst, hfaults, Bool.false_eq_true, if_false, List.filterMap_map,
            Function.comp_def, id_eq, List.filterMap_some]
          rw [ih hfuel' _ hrest, List.append_assoc]
        · exact hempty

/-- The lines of the bytes of a text are the lines of the text. -/
theorem ofBytes_toUTF8 (s : String) :
    Source.ofBytes s.toUTF8.toList = ⟨splitLines s.toList, true⟩ := by
  have hdecoded : s.toUTF8.toList.foldl Utf8.Progress.next ⟨[], .between⟩ =
      ⟨s.toList.reverse.map some, .between⟩ := by
    rw [Utf8.toUTF8_toList, Utf8.foldl_flatMap, List.append_nil, List.map_reverse]
  have hfuel : s.toUTF8.toList.length ≤ (s.toUTF8.toList.length / blockSize + 1) * blockSize := by
    rw [Nat.mul_comm]
    exact Nat.le_of_lt (Nat.lt_mul_div_succ _ (by decide))
  unfold Source.ofBytes
  rw [decodeBlocks_eq hfuel [] hdecoded, List.append_nil]
  dsimp only
  rw [if_pos rfl, List.reverse_reverse]

end Csv

end SumTree
