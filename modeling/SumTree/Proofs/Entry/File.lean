import SumTree.Proofs.Csv.Record
import SumTree.Proofs.Entry.Rows

/-!
# Files of entries

A file of entries has a header and a row for each entry: the username in quotes, and the numerals of the
balances with commas between them. A row spells a record of two cells whatever the username holds
(`Portable.spells_row`), and the entry is read back from these cells (`Portable.entry_cells`). So a file of
portable entries is loaded to these entries (`load_file`).

## Main Definitions

* `Entry.numerals` — the cell of the balances of an entry.
* `Entry.file` — the text of the file of some entries.
* `Entry.Portable` — the entries that a file can hold.
-/

namespace SumTree

namespace Entry

/-- The numerals of the balances of an entry with commas between them. -/
def numerals (e : Entry) : String :=
  ",".intercalate e.shown

/-- The text of the row of an entry. -/
def row (e : Entry) : List Char :=
  Csv.quotedRow e.username.toList e.numerals.toList

/-- The text of the file of some entries, with the end of its lines and whether the last one has it. -/
def file (ending : Csv.LineEnd) (closed : Bool) (entries : List Entry) : String :=
  String.ofList (Csv.joined ending closed ("username;balances".toList :: entries.map row))

/-- A file can hold an entry: it has a balance, its username is neither empty nor has blanks at its ends,
and neither a balance nor a cell is too long to be read. -/
structure Portable (e : Entry) : Prop where
  balances : e.balances ≠ []
  username : e.username ≠ ""
  trimmed : Blank.trim e.username = e.username
  digits : ∀ b ∈ e.balances, (Nat.digits 10 b).length ≤ Decimal.maxDigits
  usernameLength : e.username.length ≤ Csv.fieldLimit
  numeralsLength : e.numerals.length ≤ Csv.fieldLimit

variable {e : Entry}

/-! ### The cell of the balances -/

theorem toList_numerals (e : Entry) :
    e.numerals.toList = [','].intercalate (e.shown.map String.toList) :=
  String.toList_intercalate

theorem isAscii_shown {e : Entry} : ∀ text ∈ e.shown.map String.toList,
    ∀ c ∈ text, Digit.isAscii c = true := by
  intro text htext
  obtain ⟨numeral, hnumeral, rfl⟩ := List.mem_map.mp htext
  exact (Decimal.isPlain_iff.mp (isPlain_shown e numeral hnumeral)).2

/-- The cell of the balances needs no quotes: it holds digits and commas. -/
theorem bare_numerals (e : Entry) : Csv.Bare e.numerals.toList := by
  rw [toList_numerals]
  refine forall_mem_intercalate (by decide) fun text htext c hc => ?_
  have hdigit := isAscii_shown text htext c hc
  exact ⟨⟨Decimal.ne_of_isAscii hdigit rfl, Decimal.ne_of_isAscii hdigit rfl⟩,
    Decimal.ne_of_isAscii hdigit rfl, Decimal.ne_of_isAscii hdigit rfl⟩

/-- The numerals are the parts of their cell. -/
theorem parts_numerals (h : e.balances ≠ []) :
    (e.numerals.toList.splitOn ',').map (fun part => Blank.trim (String.ofList part)) = e.shown := by
  have hcomma : ∀ text ∈ e.shown.map String.toList, ',' ∉ text := by
    intro text htext hc
    exact absurd (isAscii_shown text htext ',' hc) (by decide)
  have hne : e.shown.map String.toList ≠ [] := by simpa [shown, amounts] using h
  have htrim : ∀ text ∈ e.shown, Blank.trim (String.ofList text.toList) = text := by
    intro text htext
    rw [String.ofList_toList]
    refine Blank.trim_of_forall fun c hc => ?_
    have hdigit := isAscii_shown text.toList (List.mem_map_of_mem htext) c hc
    exact Decimal.isBlank_of_isAscii hdigit
  rw [toList_numerals, List.splitOn_intercalate ',' hcomma hne, List.map_map]
  exact (List.map_congr_left htrim).trans (List.map_id e.shown)

theorem numerals_ne_nil (h : e.balances ≠ []) : e.numerals.toList ≠ [] := by
  intro hempty
  have hparts := parts_numerals h
  rw [hempty] at hparts
  have hplain := isPlain_shown e "" (hparts ▸ List.mem_singleton_self "")
  cases hplain

/-! ### Rows -/

theorem Portable.fits (h : e.Portable) : ∀ b ∈ e.amounts, Decimal.fits b = true := by
  intro b hb
  obtain ⟨n, hn, rfl⟩ := List.mem_map.mp hb
  exact Decimal.fits_of_lt_pow (Nat.lt_base_pow_length_digits (by decide)) (h.digits n hn)

/-- The row of an entry spells its username and its numerals. -/
theorem Portable.spells_row (h : e.Portable) : Csv.Spells e.row [e.username, e.numerals] := by
  have hspells := Csv.spells_quotedRow h.usernameLength (numerals_ne_nil h.balances)
    (bare_numerals e) h.numeralsLength
  rw [String.ofList_toList, String.ofList_toList] at hspells
  exact hspells

theorem spells_header : Csv.Spells "username;balances".toList columns := by
  refine ⟨⟨'u', rfl, by decide⟩, fun rest => ?_⟩
  exact ⟨⟨.plain, "secnalab".toList, 8, ["username"]⟩, Csv.passes_of_unbroken (by decide) rfl, rfl,
    rfl⟩

/-- An entry is read back from its cells. -/
theorem Portable.entry_cells (h : e.Portable) :
    Row.WellFormed (toRow columns [e.username, e.numerals]) ∧
      Row.Short (toRow columns [e.username, e.numerals]) ∧
      Row.entry (toRow columns [e.username, e.numerals]) = e := by
  have hname : Row.name (toRow columns [e.username, e.numerals]) = e.username := h.trimmed
  have hparts : Row.parts (toRow columns [e.username, e.numerals]) = e.shown := by
    rw [Row.parts_eq_map]
    exact parts_numerals h.balances
  obtain ⟨hshort, hentry⟩ :=
    (ofNumerals_eq_ok_iff (isPlain_shown e)).mp (ofNumerals_shown h.fits)
  refine ⟨⟨?_, ?_⟩, ?_, ?_⟩
  · rw [hname]
    exact h.username
  · rw [hparts]
    exact fun part hpart => Row.isPlain_iff_digits.mp (isPlain_shown e part hpart)
  · intro part hpart _
    rw [hparts] at hpart
    exact hshort part hpart
  · rw [Row.entry_eq, hname, hparts]
    exact hentry.symm

/-! ### Files -/

/-- The entries of a table below the header of entries are those of its rows. -/
theorem ofTable_columns (source : String) {records : List (List String)}
    (h : ∀ record ∈ records, record ≠ []) : ofTable source ⟨columns :: records, none⟩ =
      ofRows source (records.map (toRow columns)) := by
  have hmissing : columns.filter (fun name => !columns.contains name) = [] := by decide
  have hrecords : records.filter (fun record => !record.isEmpty) = records :=
    List.filter_eq_self.mpr fun record hrecord => by simpa using h record hrecord
  unfold ofTable
  simp only [hmissing, hrecords, List.isEmpty_nil, Bool.not_true, Bool.false_eq_true, if_false]
  exact bind_pure (ofRows source (records.map (toRow columns)))

/-- A file of portable entries is loaded to these entries, whatever its lines end with. -/
theorem load_file (source : String) (ending : Csv.LineEnd) (closed : Bool) {entries : List Entry}
    (h : ∀ e ∈ entries, e.Portable) :
    load source (file ending closed entries).toUTF8.toList = .ok entries := by
  have hspells : List.Forall₂ Csv.Spells ("username;balances".toList :: entries.map row)
      (columns :: entries.map fun e => [e.username, e.numerals]) := by
    refine .cons spells_header ?_
    rw [List.forall₂_map_left_iff, List.forall₂_map_right_iff, List.forall₂_same]
    exact fun e he => (h e he).spells_row
  rw [load, file, Csv.read_joined ending closed hspells (List.cons_ne_nil _ _), ofTable_columns,
    List.map_map, ofRows_eq_ok_iff, List.map_map]
  · refine ⟨?_, ?_⟩
    · intro row hrow
      obtain ⟨e, he, rfl⟩ := List.mem_map.mp hrow
      exact ⟨(h e he).entry_cells.1, (h e he).entry_cells.2.1⟩
    · exact ((List.map_congr_left fun e he => (h e he).entry_cells.2.2).trans
        (List.map_id entries)).symm
  · intro record hrecord
    obtain ⟨e, -, rfl⟩ := List.mem_map.mp hrecord
    exact List.cons_ne_nil _ _

end Entry

namespace Sample

/-- Entries whose usernames hold delimiters, quotes and line breaks. -/
def portableEntries : List Entry :=
  [⟨"a;\"b\",\r\n\rc", [0, 12]⟩, ⟨"\"\"", [7]⟩]

theorem portable_portableEntries : ∀ e ∈ portableEntries, e.Portable := by
  intro e he
  simp only [portableEntries, List.mem_cons, List.not_mem_nil, or_false] at he
  rcases he with rfl | rfl
  · exact ⟨by decide, by decide, by decide, by decide, by decide, by decide⟩
  · exact ⟨by decide, by decide, by decide, by decide, by decide, by decide⟩

end Sample

theorem Entry.load_file_quoted :
    file .carriage false Sample.portableEntries =
        "username;balances\r\"a;\"\"b\"\",\r\n\rc\";0,12\r\"\"\"\"\"\";7" ∧
      load "accounts" (file .carriage false Sample.portableEntries).toUTF8.toList =
        .ok Sample.portableEntries :=
  ⟨by decide, load_file "accounts" .carriage false Sample.portable_portableEntries⟩

end SumTree
