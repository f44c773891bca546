import SumTree.Proofs.Csv.Line
import SumTree.Proofs.Entry.Rows

/-!
# Lines of faulty rows

A faulty row is reported with the number of its record, the header being the first and records without
fields not counted. In a file without line breaks in its cells a record stands on a line of its own, so
this is the number of its line, less one for each blank line between the header and the row
(`load_eq_error_of_row`). The records that count and the lines they stand on are matched by
`exists_split_of_filter`.
-/

namespace SumTree

namespace Entry

variable {source : String} {fault : EntryFault}

theorem faultOf_ne_run (stop : Csv.Fault) (e : RunError) : faultOf stop ≠ .run e := by
  cases stop <;> nofun

/-- A table is refused for a row when the rows below its header are. -/
theorem exists_of_ofTable_eq_error {table : Csv.Table}
    (h : ofTable source table = .error (.run (.entries fault)))
    (hrow : ∀ missing, fault ≠ .missingColumns source missing) :
    ∃ header records, table.records = header :: records ∧
      ofRows source ((records.filter fun record => !record.isEmpty).map (toRow header)) =
        .error (.run (.entries fault)) := by
  obtain ⟨records, fault?⟩ := table
  cases records with
  | nil =>
      cases fault? with
      | none =>
          cases h
          exact absurd rfl (hrow columns)
      | some stop =>
          have hfault : faultOf stop = .run (.entries fault) := Except.error.inj h
          exact absurd hfault (faultOf_ne_run stop _)
  | cons header records =>
      refine ⟨header, records, rfl, ?_⟩
      unfold ofTable at h
      dsimp only at h
      split at h
      · cases h
        exact absurd rfl (hrow _)
      · cases hrows : ofRows source ((records.filter fun record => !record.isEmpty).map (toRow header))
        with
        | error failure =>
            rw [hrows] at h
            exact h
        | ok entries =>
            rw [hrows] at h
            cases fault? with
            | none => cases h
            | some stop =>
                have hfault : faultOf stop = .run (.entries fault) := Except.error.inj h
                exact absurd hfault (faultOf_ne_run stop _)

/-- A record that is counted stands on a line of its own, behind lines that are blank or have a record
that is counted. -/
theorem exists_split_of_filter {lines : List (List Char)} {records : List (List String)}
    (hlines : List.Forall₂ (fun line record => Csv.recordOf line = .ok record) lines records)
    (hblank : ∀ line ∈ lines, ∀ record, Csv.recordOf line = .ok record →
      (record = [] ↔ Csv.isBlankLine line = true))
    {front rest : List (List String)} {record : List String}
    (h : (records.filter fun record => !record.isEmpty) = front ++ record :: rest) :
    ∃ before line after, lines = before ++ line :: after ∧ Csv.recordOf line = .ok record ∧
      Csv.isBlankLine line = false ∧
      (∀ l ∈ before, Csv.isBlankLine l = true ∨ ∃ r ∈ front, Csv.recordOf l = .ok r) ∧
      front.length + before.countP Csv.isBlankLine = before.length := by
  induction hlines generalizing front with
  | nil => cases front <;> cases h
  | @cons line found lines records hfound hrest ih =>
      obtain ⟨hline, hothers⟩ := List.forall_mem_cons.mp hblank
      have hempty := hline found hfound
      cases found with
      | nil =>
          have hline := hempty.mp rfl
          obtain ⟨before, bad, after, rfl, hbad, hkept, hbefore, hcount⟩ := ih hothers h
          refine ⟨line :: before, bad, after, rfl, hbad, hkept,
            List.forall_mem_cons.mpr ⟨.inl hline, hbefore⟩, ?_⟩
          rw [List.countP_cons_of_pos hline, List.length_cons, ← hcount, Nat.add_assoc]
      | cons cell cells =>
          have hline : Csv.isBlankLine line = false :=
            Bool.eq_false_iff.mpr fun hblank => absurd (hempty.mpr hblank) (List.cons_ne_nil _ _)
          rw [List.filter_cons_of_pos rfl] at h
          cases front with
          | nil =>
              cases h
              exact ⟨[], line, lines, rfl, hfound, hline, fun l hl => absurd hl List.not_mem_nil, rfl⟩
          | cons first front =>
              obtain ⟨hfirst, hfront⟩ := List.cons.inj h
              subst hfirst
              obtain ⟨before, bad, after, rfl, hbad, hkept, hbefore, hcount⟩ := ih hothers hfront
              refine ⟨line :: before, bad, after, rfl, hbad, hkept,
                List.forall_mem_cons.mpr ⟨.inr ⟨_, List.mem_cons_self, hfound⟩, ?_⟩, ?_⟩
              · exact fun l hl => (hbefore l hl).imp_right fun ⟨r, hr, hl⟩ =>
                  ⟨r, List.mem_cons_of_mem _ hr, hl⟩
              · have hnot : ¬ Csv.isBlankLine line = true := by rw [hline]; nofun
                rw [List.countP_cons_of_neg hnot, List.length_cons, List.length_cons, ← hcount]
                omega

/-- A file without line breaks in its cells that is refused for a row is refused for the first line below
its header that is neither blank nor makes a well-formed row. The number that is named is that of this
line exactly when no line between the header and it is blank, and otherwise it is less by the number of
these lines. -/
theorem load_eq_error_of_row {bytes : List UInt8}
    (hcells : ∀ record ∈ (Csv.read (Csv.Source.ofBytes bytes)).records, ∀ cell ∈ record,
      Csv.Unbroken cell.toList)
    (h : load source bytes = .error (.run (.entries fault)))
    (hrow : ∀ missing, fault ≠ .missingColumns source missing) :
    ∃ header front line rest columns record n,
      (Csv.Source.ofBytes bytes).lines = header :: (front ++ line :: rest) ∧
      Csv.recordOf header = .ok columns ∧
      (∀ l ∈ front, Csv.isBlankLine l = true ∨
        ∃ record, Csv.recordOf l = .ok record ∧ (toRow columns record).WellFormed) ∧
      Csv.isBlankLine line = false ∧ Csv.recordOf line = .ok record ∧
      ¬ (toRow columns record).WellFormed ∧
      fault = (toRow columns record).fault source n ∧
      n + front.countP Csv.isBlankLine = front.length + 2 ∧
      (n = front.length + 2 ↔ ∀ l ∈ front, Csv.isBlankLine l = false) := by
  obtain ⟨columns, records, hrecords, hrows⟩ := exists_of_ofTable_eq_error h hrow
  obtain ⟨read, unread, hlines, hread⟩ := Csv.exists_mapM_recordOf hcells
  have hblank : ∀ line ∈ read, ∀ record, Csv.recordOf line = .ok record →
      (record = [] ↔ Csv.isBlankLine line = true) := by
    intro line hline record hrecord
    have hmem : line ∈ (Csv.Source.ofBytes bytes).lines := hlines ▸ List.mem_append_left _ hline
    exact Csv.eq_nil_iff_isBlankLine (Csv.ended_or_unbroken hmem) hrecord
  rw [hrecords, mapM_eq_ok_iff] at hread
  cases hread with
  | @cons header _ below _ hheader hbelow =>
      obtain ⟨good, row, others, hsplit, hgood, hbad⟩ := exists_of_ofRowsFrom_eq_error hrows
      obtain ⟨front, counted, hcounted, rfl, hmap⟩ := List.map_eq_append_iff.mp hsplit
      obtain ⟨record, tail, rfl, rfl, -⟩ := List.map_eq_cons_iff.mp hmap
      obtain ⟨before, line, after, rfl, hline, hkept, hbefore, hcount⟩ :=
        exists_split_of_filter hbelow (List.forall_mem_cons.mp hblank).2 hcounted
      rw [List.length_map] at hbad
      rcases ofRow_eq_error hbad with ⟨hnot, hfault⟩ | ⟨-, -, digits, hfault⟩
      · obtain rfl : fault = (toRow columns record).fault source (front.length + 2) :=
          RunError.entries.inj (Failure.run.inj hfault)
        refine ⟨header, before, line, after ++ unread, columns, record, front.length + 2, ?_, hheader,
          ?_, hkept, hline, hnot, rfl, by omega, ?_⟩
        · rw [hlines, List.cons_append, List.append_assoc, List.cons_append]
        · refine fun l hl => (hbefore l hl).imp_right fun ⟨r, hr, hl⟩ => ⟨r, hl, ?_⟩
          exact (hgood _ (List.mem_map_of_mem hr)).1
        · have hzero : before.countP Csv.isBlankLine = 0 ↔
              ∀ l ∈ before, Csv.isBlankLine l = false := by
            simp only [List.countP_eq_zero, Bool.not_eq_true]
          rw [← hzero]
          omega
      · cases hfault

end Entry

namespace Sample

/-- A file with lines of several ends, one of which is blank, and a faulty row on the fourth line. -/
def gappedFile : String :=
  "username;balances\r\n\r\nann;1, 2\rbob"

theorem read_gappedFile : Csv.read (Csv.Source.ofBytes gappedFile.toUTF8.toList) =
    ⟨[Entry.columns, [], ["ann", "1, 2"], ["bob"]], none⟩ := by
  rw [Csv.ofBytes_toUTF8]
  decide

theorem load_gappedFile : Entry.load "entries.csv" gappedFile.toUTF8.toList =
    .error (.run (.entries (.missingCell "entries.csv" 3))) := by
  have hparts : Row.parts (Entry.toRow Entry.columns ["ann", "1, 2"]) = ["1", "2"] := by
    rw [Row.parts_eq_map]
    decide
  have hfirst : ∀ line, Entry.ofRow "entries.csv" line (Entry.toRow Entry.columns ["ann", "1, 2"]) =
      .ok (Row.entry (Entry.toRow Entry.columns ["ann", "1, 2"])) := by
    intro line
    have hplain : ∀ part ∈ ["1", "2"], Decimal.isPlain part = true := by decide
    have hlength : ∀ part ∈ ["1", "2"], part.toList.length ≤ Decimal.maxDigits := by decide
    refine Entry.ofRow_eq_ok_iff.mpr ⟨Row.wellFormed_iff.mpr ⟨by decide, ?_⟩, ?_, rfl⟩
    · rw [hparts]
      exact hplain
    · intro part hpart _
      rw [hparts] at hpart
      exact hlength part hpart
  have hrows : Entry.ofRows "entries.csv" [Entry.toRow Entry.columns ["ann", "1, 2"],
      Entry.toRow Entry.columns ["bob"]] = .error (.run (.entries (.missingCell "entries.csv" 3))) := by
    rw [Entry.ofRows, Entry.ofRowsFrom, hfirst]
    rfl
  rw [Entry.load, read_gappedFile, Entry.ofTable]
  exact congrArg (· >>= pure) hrows

end Sample

theorem Entry.load_eq_error_of_row_gapped :
    (∀ record ∈ (Csv.read (Csv.Source.ofBytes Sample.gappedFile.toUTF8.toList)).records,
        ∀ cell ∈ record, Csv.Unbroken cell.toList) ∧
      load "entries.csv" Sample.gappedFile.toUTF8.toList =
        .error (.run (.entries (.missingCell "entries.csv" 3))) ∧
      ∃ (header line : List Char) (front rest : List (List Char)),
        (Csv.Source.ofBytes Sample.gappedFile.toUTF8.toList).lines = header :: (front ++ line :: rest) ∧
          Csv.isBlankLine line = false ∧ 3 + front.countP Csv.isBlankLine = front.length + 2 := by
  have hcells : ∀ record ∈ (Csv.read (Csv.Source.ofBytes Sample.gappedFile.toUTF8.toList)).records,
      ∀ cell ∈ record, Csv.Unbroken cell.toList := by
    rw [Sample.read_gappedFile]
    decide
  refine ⟨hcells, Sample.load_gappedFile, ?_⟩
  obtain ⟨header, front, line, rest, columns, record, n, hlines, -, -, hkept, -, -, hfault, hcount, -⟩ :=
    load_eq_error_of_row hcells Sample.load_gappedFile nofun
  refine ⟨header, line, front, rest, hlines, hkept, ?_⟩
  unfold Row.fault at hfault
  split at hfault
  · cases hfault
    exact hcount
  · cases hfault

/-- The number that is named need not be that of the line: below a blank line the third one is called the
second. -/
theorem Entry.misnumbered_row :
    (Csv.Source.ofBytes "username;balances\n\n;1\n".toUTF8.toList).lines =
        ["username;balances\n".toList, "\n".toList, ";1\n".toList] ∧
      Csv.read (Csv.Source.ofBytes "username;balances\n\n;1\n".toUTF8.toList) =
        ⟨[columns, [], ["", "1"]], none⟩ ∧
      load "entries.csv" "username;balances\n\n;1\n".toUTF8.toList =
        .error (.run (.entries (.missingCell "entries.csv" 2))) := by
  have hlines : Csv.Source.ofBytes "username;balances\n\n;1\n".toUTF8.toList =
      ⟨["username;balances\n".toList, "\n".toList, ";1\n".toList], true⟩ := by
    rw [Csv.ofBytes_toUTF8]
    decide
  have hread : Csv.read ⟨["username;balances\n".toList, "\n".toList, ";1\n".toList], true⟩ =
      ⟨[columns, [], ["", "1"]], none⟩ := by
    decide
  refine ⟨congrArg Csv.Source.lines hlines, hlines ▸ hread, ?_⟩
  rw [load, hlines, hread]
  rfl

end SumTree
