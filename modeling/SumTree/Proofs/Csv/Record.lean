import SumTree.Csv.Record
import SumTree.Proofs.Csv.Source

/-!
# Records of a text

The reader of records goes from character to character, while the text comes in lines. Inside a line it
stands somewhere behind the start of that line (`Reaches`), and a text that ends no record takes it from
one place to another (`Passes`), whether the text is part of one line or, inside quotes, of several
(`passes_doubled`). Texts that spell records are put into lines, and the table of these lines has those
records (`tableFrom_joined`).

## Main Definitions

* `Csv.doubled` — a text with each of its quotes twice.
* `Csv.Passes` — what a text that ends no record does to the reader.
* `Csv.Spells` — a text that makes a record on lines of its own.
* `Csv.joined` — texts with a line end between each two.
-/

namespace SumTree

namespace Csv

/-- The table of a text of which `line`, the latest character first, is read already, by a reader that
stood at `p` at the start of that line; `done` holds the records before it, the latest first. -/
def tableFrom (done : List (List String)) (p : Progress) (line cs : List Char) : Table :=
  readLines done p true (splitLinesOnto [] line cs)

/-- A reader that stood at `p` at the start of a line stands at `q` behind `line`, the latest character
first. -/
structure Reaches (p : Progress) (line : List Char) (q : Progress) : Prop where
  start : p = .empty ∨ p.place = .quoted
  read : line.reverse.foldlM Progress.next p = .ok q

/-- A reader at `q` that goes through `text`, with `rest` behind it, ends no record and stands at `q'`. -/
def Passes (q : Progress) (text rest : List Char) (q' : Progress) : Prop :=
  ∀ done p line, Reaches p line q → ∃ p' line', Reaches p' line' q' ∧
    tableFrom done p line (text ++ rest) = tableFrom done p' line' rest

variable {done : List (List String)} {p q q' : Progress} {line text rest : List Char}

/-! ### Inside a line -/

theorem reaches_empty : Reaches .empty [] .empty :=
  ⟨.inl rfl, rfl⟩

theorem reaches_of_quoted (h : q.place = .quoted) : Reaches q [] q :=
  ⟨.inr h, rfl⟩

theorem Reaches.append (h : Reaches p line q) (htext : text.foldlM Progress.next q = .ok q') :
    Reaches p (text.reverse ++ line) q' := by
  refine ⟨h.start, ?_⟩
  rw [List.reverse_append, List.reverse_reverse, List.foldlM_append, h.read]
  exact htext

/-- A reader in a plain field has begun its line. -/
theorem Reaches.ne_nil (h : Reaches p line q) (hq : q.place = .plain) : line ≠ [] := by
  rintro rfl
  cases h.read
  rcases h.start with rfl | hquoted
  · cases hq
  · rw [hquoted] at hq
    cases hq

/-- A text without line breaks is read character after character. -/
theorem passes_of_unbroken (h : Unbroken text) (htext : text.foldlM Progress.next q = .ok q') :
    Passes q text rest q' := by
  intro done p line hline
  refine ⟨p, text.reverse ++ line, hline.append htext, ?_⟩
  rw [tableFrom, splitLinesOnto_append h]
  rfl

theorem Passes.append {text' : List Char} {q'' : Progress} (h : Passes q text (text' ++ rest) q')
    (h' : Passes q' text' rest q'') : Passes q (text ++ text') rest q'' := by
  intro done p line hline
  obtain ⟨p', line', hline', htable⟩ := h done p line hline
  obtain ⟨p'', line'', hline'', htable'⟩ := h' done p' line' hline'
  refine ⟨p'', line'', hline'', ?_⟩
  rw [List.append_assoc, htable, htable']

/-! ### Ends of lines -/

/-- The end of a line ends the record, unless it stands inside quotes. -/
theorem tableFrom_end {ending : LineEnd} (hwhole : ending.IsWhole rest) (h : Reaches p line q)
    (hend : ending.chars.foldlM Progress.next q = .ok q') :
    tableFrom done p line (ending.chars ++ rest) =
      if q'.endLine.place == .recordStart then tableFrom (q'.endLine.record :: done) .empty [] rest
      else tableFrom done q'.endLine [] rest := by
  have hread : (line.reverse ++ ending.chars).foldlM Progress.next p = .ok q' := by
    rw [List.foldlM_append, h.read]
    exact hend
  rw [tableFrom, splitLinesOnto_end hwhole, splitLinesOnto_done]
  show readLines done p true ((line.reverse ++ ending.chars) :: splitLinesOnto [] [] rest) = _
  rw [readLines, hread]
  rfl

/-- The end of a line ends a record in its last field. -/
theorem tableFrom_end_of_plain {ending : LineEnd} (hwhole : ending.IsWhole rest)
    (h : Reaches p line q) (hq : q.place = .plain) : tableFrom done p line (ending.chars ++ rest) =
      tableFrom (q.endLine.record :: done) .empty [] rest := by
  have hend : ending.chars.foldlM Progress.next q = .ok (q.save .lineEnd) := by
    cases ending <;> simp [LineEnd.chars, Progress.next, hq, Progress.isLineEnd, Progress.save]
    rfl
  rw [tableFrom_end hwhole h hend]
  simp [Progress.endLine, Progress.save, Progress.record, hq]

/-- The end of the text ends a record in its last field. -/
theorem tableFrom_nil_of_plain (h : Reaches p line q) (hq : q.place = .plain) :
    tableFrom done p line [] = ⟨(q.endLine.record :: done).reverse, none⟩ := by
  have hlines : splitLinesOnto [] line [] = [line.reverse] := by
    rw [splitLinesOnto, if_neg (by simpa using h.ne_nil hq)]
    rfl
  rw [tableFrom, hlines, readLines, h.read]
  simp [Progress.endLine, Progress.save, hq, readLines, Progress.empty]

/-- The end of a line inside quotes belongs to the field. -/
theorem passes_end {ending : LineEnd} (hwhole : ending.IsWhole rest)
    (hend : ending.chars.foldlM Progress.next q = .ok q') (hq : q'.place = .quoted) :
    Passes q ending.chars rest q' := by
  intro done p line hline
  have hsame : q'.endLine = q' := by
    unfold Progress.endLine
    rw [hq]
  refine ⟨q', [], reaches_of_quoted hq, ?_⟩
  rw [tableFrom_end hwhole hline hend, hsame, hq]
  rfl

/-! ### Characters of fields -/

/-- The progress with more characters in its field. -/
def Progress.extend (q : Progress) (cs : List Char) : Progress :=
  ⟨q.place, cs.reverse ++ q.field, q.length + cs.length, q.fields⟩

theorem length_extend (q : Progress) (cs : List Char) :
    (q.extend cs).length = q.length + cs.length := rfl

theorem extend_append (q : Progress) (cs ds : List Char) :
    (q.extend cs).extend ds = q.extend (cs ++ ds) := by
  simp only [Progress.extend, List.reverse_append, List.append_assoc, List.length_append, Nat.add_assoc]

theorem extend_cons (q : Progress) (c : Char) (cs : List Char) :
    q.extend (c :: cs) = (q.extend [c]).extend cs :=
  (extend_append q [c] cs).symm

section

variable {c : Char}

theorem add_eq {place : Place} (hroom : q.length < fieldLimit) :
    q.add c place = .ok { q.extend [c] with place := place } := by
  rw [Progress.add, if_pos hroom]
  rfl

theorem next_quoted (hq : q.place = .quoted) (hc : c ≠ quoteMark) (hroom : q.length < fieldLimit) :
    q.next c = .ok (q.extend [c]) := by
  have hnext : q.next c = q.add c q.place := by simp [Progress.next, hq, hc]
  rw [hnext, add_eq hroom]
  rfl

/-- Inside quotes a quote that stands twice is read as one. -/
theorem foldlM_quoteMarks (hq : q.place = .quoted) (hroom : q.length < fieldLimit) :
    [quoteMark, quoteMark].foldlM Progress.next q = .ok (q.extend [quoteMark]) := by
  have hfirst : q.next quoteMark = .ok { q with place := .quoteInQuoted } := by
    simp [Progress.next, hq]
  have hsecond : { q with place := Place.quoteInQuoted }.next quoteMark =
      .ok (q.extend [quoteMark]) := by
    have hroom' : { q with place := Place.quoteInQuoted }.length < fieldLimit := hroom
    simp only [Progress.next, beq_self_eq_true, if_true]
    rw [add_eq hroom', ← hq]
    rfl
  rw [List.foldlM_cons, hfirst, ← hsecond]
  exact bind_pure (Progress.next _ quoteMark)

theorem next_plain (hq : q.place = .plain) (hend : Progress.isLineEnd c = false)
    (hdelimiter : c ≠ delimiter) (hroom : q.length < fieldLimit) :
    q.next c = .ok (q.extend [c]) := by
  have hnext : q.next c = q.add c q.place := by simp [Progress.next, hq, hend, hdelimiter]
  rw [hnext, add_eq hroom]
  rfl

end

/-! ### Fields -/

/-- A text with each of its quotes twice. -/
def doubled (cs : List Char) : List Char :=
  cs.flatMap fun c => if c = quoteMark then [c, c] else [c]

theorem doubled_append (cs ds : List Char) : doubled (cs ++ ds) = doubled cs ++ doubled ds :=
  List.flatMap_append

theorem head?_doubled (cs : List Char) : (doubled cs).head? = cs.head? := by
  cases cs with
  | nil => rfl
  | cons c rest =>
      rw [doubled, List.flatMap_cons]
      split <;> rfl

theorem unbroken_doubled {cs : List Char} (h : Unbroken cs) : Unbroken (doubled cs) := by
  intro c hc
  obtain ⟨d, hd, hmem⟩ := List.mem_flatMap.mp hc
  have hcd : c = d := by
    split at hmem <;> simpa using hmem
  rw [hcd]
  exact h d hd

theorem doubled_lineEnd (ending : LineEnd) : doubled ending.chars = ending.chars := by
  cases ending <;> rfl

/-- Inside quotes a text with doubled quotes is read as that text. -/
theorem foldlM_doubled {cs : List Char} (hq : q.place = .quoted)
    (hfits : q.length + cs.length ≤ fieldLimit) :
    (doubled cs).foldlM Progress.next q = .ok (q.extend cs) := by
  induction cs generalizing q with
  | nil => rfl
  | cons c rest ih =>
      rw [List.length_cons] at hfits
      have hroom : q.length < fieldLimit := by omega
      have hchar : (doubled [c]).foldlM Progress.next q = .ok (q.extend [c]) := by
        rw [doubled, List.flatMap_singleton]
        split
        · rename_i hc
          rw [hc]
          exact foldlM_quoteMarks hq hroom
        · rename_i hc
          exact (bind_pure (q.next c)).trans (next_quoted hq hc hroom)
      have hquoted : (q.extend [c]).place = .quoted := hq
      rw [← List.singleton_append, doubled_append, List.foldlM_append, hchar,
        ← extend_append q [c] rest]
      exact ih hquoted (by rw [length_extend, List.length_singleton]; omega)

/-- A text with doubled quotes passes inside quotes, whatever line breaks it holds. -/
theorem passes_doubled {cs : List Char} (hrest : rest.head? = some quoteMark)
    (hq : q.place = .quoted) (hfits : q.length + cs.length ≤ fieldLimit) :
    Passes q (doubled cs) rest (q.extend cs) := by
  induction cs using lineEnd_induction generalizing q with
  | nil => exact passes_of_unbroken (fun c hc => absurd hc List.not_mem_nil) rfl
  | char c cs hfeed hreturn ih =>
      rw [List.length_cons] at hfits
      have hone : Unbroken [c] := List.forall_mem_singleton.mpr ⟨hfeed, hreturn⟩
      have hchar : (doubled [c]).foldlM Progress.next q = .ok (q.extend [c]) :=
        foldlM_doubled hq (by rw [List.length_singleton]; omega)
      rw [← List.singleton_append, doubled_append, ← extend_append]
      refine (passes_of_unbroken (unbroken_doubled hone) hchar).append (ih hq ?_)
      rw [length_extend, List.length_singleton]
      omega
  | ending e cs hwhole ih =>
      rw [List.length_append] at hfits
      have hend : (doubled e.chars).foldlM Progress.next q = .ok (q.extend e.chars) :=
        foldlM_doubled hq (by omega)
      rw [doubled_lineEnd] at hend
      have hwhole' : e.IsWhole (doubled cs ++ rest) := by
        intro he
        rw [List.head?_append, head?_doubled, hrest]
        have hhead := hwhole he
        cases hcs : cs.head? with
        | none => decide
        | some c =>
            rw [hcs] at hhead
            exact hhead
      -- The end is in the field now, and the next line starts inside quotes.
      rw [doubled_append, doubled_lineEnd, ← extend_append]
      refine (passes_end hwhole' hend hq).append (ih hq ?_)
      rw [length_extend]
      omega

/-- A text that needs no quotes: it holds no line break, no delimiter and no quote. -/
def Bare (cs : List Char) : Prop :=
  ∀ c ∈ cs, (c ≠ '\n' ∧ c ≠ '\r') ∧ c ≠ delimiter ∧ c ≠ quoteMark

theorem foldlM_bare {cs : List Char} (hbare : Bare cs) (hq : q.place = .plain)
    (hfits : q.length + cs.length ≤ fieldLimit) :
    cs.foldlM Progress.next q = .ok (q.extend cs) := by
  induction cs generalizing q with
  | nil => rfl
  | cons c rest ih =>
      rw [List.length_cons] at hfits
      obtain ⟨⟨⟨hfeed, hreturn⟩, hdelimiter, -⟩, hrest⟩ := List.forall_mem_cons.mp hbare
      have hend : Progress.isLineEnd c = false := by simp [Progress.isLineEnd, hfeed, hreturn]
      have hplain : (q.extend [c]).place = .plain := hq
      rw [List.foldlM_cons, next_plain hq hend hdelimiter (by omega), extend_cons q c rest]
      exact ih hrest hplain (by rw [length_extend, List.length_singleton]; omega)

/-- A text that needs no quotes is a field. -/
theorem foldlM_bare_of_fieldStart {cs : List Char} (hne : cs ≠ []) (hbare : Bare cs)
    (hq : q.place = .fieldStart) (hfits : q.length + cs.length ≤ fieldLimit) :
    cs.foldlM Progress.next q = .ok { q.extend cs with place := .plain } := by
  cases cs with
  | nil => exact absurd rfl hne
  | cons c rest =>
      rw [List.length_cons] at hfits
      obtain ⟨⟨⟨hfeed, hreturn⟩, hdelimiter, hquote⟩, hrest⟩ := List.forall_mem_cons.mp hbare
      have hnext : q.next c = .ok { q.extend [c] with place := .plain } := by
        have hadd : q.next c = q.add c .plain := by
          simp [Progress.next, Progress.startField, Progress.isLineEnd, hq, hfeed, hreturn, hdelimiter,
            hquote]
        rw [hadd, add_eq (by omega)]
      have hplain : { q.extend [c] with place := Place.plain }.place = .plain := rfl
      rw [List.foldlM_cons, hnext, extend_cons q c rest]
      exact foldlM_bare hrest hplain (by dsimp only [length_extend, List.length_singleton]; omega)

/-- Behind a closing quote and a delimiter, a text that needs no quotes is the next field. -/
theorem foldlM_close {cs : List Char} (hq : q.place = .quoted) (hne : cs ≠ []) (hbare : Bare cs)
    (hfits : cs.length ≤ fieldLimit) : (quoteMark :: delimiter :: cs).foldlM Progress.next q =
      .ok { (q.save .fieldStart).extend cs with place := .plain } := by
  have hquote : q.next quoteMark = .ok { q with place := .quoteInQuoted } := by
    simp [Progress.next, hq]
  have hdelimiter : { q with place := Place.quoteInQuoted }.next delimiter =
      .ok (q.save .fieldStart) := rfl
  have hroom : (q.save .fieldStart).length + cs.length ≤ fieldLimit := by
    dsimp only [Progress.save]
    omega
  rw [List.foldlM_cons, hquote]
  exact foldlM_bare_of_fieldStart hne hbare rfl hroom

/-! ### Texts of records -/

/-- A text makes a record on lines of its own, whatever text follows. -/
structure Spells (text : List Char) (record : List String) : Prop where
  head : ∃ c, text.head? = some c ∧ c ≠ '\n'
  passes : ∀ rest, ∃ q, Passes .empty text rest q ∧ q.place = .plain ∧ q.endLine.record = record

/-- Two fields of which the first stands in quotes. -/
def quotedRow (first second : List Char) : List Char :=
  [quoteMark] ++ (doubled first ++ (quoteMark :: delimiter :: second))

theorem spells_quotedRow {first second : List Char} (hfirst : first.length ≤ fieldLimit)
    (hne : second ≠ []) (hbare : Bare second) (hsecond : second.length ≤ fieldLimit) :
    Spells (quotedRow first second) [String.ofList first, String.ofList second] := by
  refine ⟨⟨quoteMark, rfl, by decide⟩, fun rest => ?_⟩
  have hopen : [quoteMark].foldlM Progress.next .empty = .ok ⟨.quoted, [], 0, []⟩ := rfl
  have hfits : 0 + first.length ≤ fieldLimit := by omega
  have hunbroken : Unbroken (quoteMark :: delimiter :: second) :=
    List.forall_mem_cons.mpr ⟨by decide, List.forall_mem_cons.mpr
      ⟨by decide, fun c hc => (hbare c hc).1⟩⟩
  refine ⟨_, (passes_of_unbroken (by decide) hopen).append ((passes_doubled rfl rfl hfits).append
    (passes_of_unbroken hunbroken (foldlM_close rfl hne hbare hsecond))), rfl, ?_⟩
  simp [Progress.endLine, Progress.record, Progress.save, Progress.extend]

/-! ### Texts of tables -/

/-- Texts with a line end between each two, and one behind the last if the text is closed. -/
def joined (ending : LineEnd) (closed : Bool) (texts : List (List Char)) : List Char :=
  ending.chars.intercalate texts ++ if closed then ending.chars else []

/-- The last text makes the last record, whether its line has an end or not. -/
theorem tableFrom_singleton (ending : LineEnd) (closed : Bool) {record : List String}
    (h : Spells text record) : tableFrom done .empty [] (joined ending closed [text]) =
      ⟨done.reverse ++ [record], none⟩ := by
  rw [joined, List.intercalate_singleton]
  obtain ⟨q, hpasses, hq, rfl⟩ := h.passes (if closed then ending.chars else [])
  obtain ⟨p, line, hline, htable⟩ := hpasses done .empty [] reaches_empty
  rw [htable]
  cases closed with
  | false => exact (tableFrom_nil_of_plain hline hq).trans (by rw [List.reverse_cons])
  | true =>
      have hwhole : ending.IsWhole [] := fun _ => nofun
      have hend : tableFrom done p line (ending.chars ++ []) = _ :=
        tableFrom_end_of_plain hwhole hline hq
      rw [List.append_nil] at hend
      refine hend.trans ?_
      rw [← List.reverse_cons]
      rfl

/-- Texts of records on lines of their own make a table of these records. -/
theorem tableFrom_joined (ending : LineEnd) (closed : Bool) {texts : List (List Char)}
    {records : List (List String)} (h : List.Forall₂ Spells texts records) (hne : texts ≠ []) :
    tableFrom done .empty [] (joined ending closed texts) = ⟨done.reverse ++ records, none⟩ := by
  induction h generalizing done with
  | nil => exact absurd rfl hne
  | @cons text record texts records hfirst hrest ih =>
      cases hrest with
      | nil => exact tableFrom_singleton ending closed hfirst
      | @cons text' record' texts records hsecond hothers =>
          have hsplit : joined ending closed (text :: text' :: texts) =
              text ++ (ending.chars ++ joined ending closed (text' :: texts)) := by
            simp only [joined, List.intercalate_cons_cons, List.append_assoc]
          have hwhole : ending.IsWhole (joined ending closed (text' :: texts)) := by
            intro _
            obtain ⟨c, hc, hfeed⟩ := hsecond.head
            obtain ⟨tail, rfl⟩ := List.head?_eq_some_iff.mp hc
            cases texts <;> simpa [joined] using hfeed
          obtain ⟨q, hpasses, hq, rfl⟩ :=
            hfirst.passes (ending.chars ++ joined ending closed (text' :: texts))
          obtain ⟨p, line, hline, htable⟩ := hpasses done .empty [] reaches_empty
          rw [hsplit, htable, tableFrom_end_of_plain hwhole hline hq, ih (List.cons_ne_nil _ _),
            List.reverse_cons, List.append_assoc, List.singleton_append]

/-- The table of the bytes of texts of records. -/
theorem read_joined (ending : LineEnd) (closed : Bool) {texts : List (List Char)}
    {records : List (List String)} (h : List.Forall₂ Spells texts records) (hne : texts ≠ []) :
    read (Source.ofBytes (String.ofList (joined ending closed texts)).toUTF8.toList) =
      ⟨records, none⟩ := by
  rw [ofBytes_toUTF8, String.toList_ofList]
  exact tableFrom_joined ending closed h hne

end Csv

end SumTree
